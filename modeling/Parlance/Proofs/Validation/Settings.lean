import Parlance.Proofs.Validation.Stacked
import Parlance.Proofs.Validation.Tables

/-! What a verdict owes to the settings. Leave for destructive statements, the allowed tables and the bound on
complexity each add or take away messages of their own, and the rest of the verdict does not depend on them. -/

namespace Parlance

open Text (trim)

namespace Validator

variable {v : Validator} {sql : List Char} {confirm : Bool}

theorem validate_blank (h : trim sql = []) : v.validate sql confirm = emptyVerdict := by
  rw [validate, h]
  rfl

theorem validate_visible (h : trim sql ≠ []) : v.validate sql confirm =
    let cs := trim sql
    let destructive := (Validation.classify cs).2
    let operation := (Validation.classify cs).1
    let requires := destructive && !confirm && !v.allowDestructive
    let errors := dangerErrors cs ++ stackErrors cs ++ confirmationErrors operation requires ++ v.tableErrors cs
    { accepted := errors.isEmpty
      errors := errors
      warnings := (if destructive && !requires then ["Destructive operation: " ++ operation] else [])
        ++ v.complexityWarnings (Validation.complexity cs)
      isDestructive := destructive
      complexity := Validation.complexity cs
      operation := operation
      requiresConfirmation := requires } := by
  have hempty : (trim sql).isEmpty = false := by simpa using h
  rw [validate, hempty]
  rfl

end Validator

/-! ### Leave for destructive statements -/

def confirmationMessage (operation : String) : String :=
  "Destructive operation (" ++ (operation ++ ") requires confirmation; resubmit with confirm_destructive=true")

/-- The verdict with leave to do what it objects to for want of a confirmation. -/
def Verdict.granted (x : Verdict) : Verdict :=
  let errors := x.errors.filter (· ≠ confirmationMessage x.operation)
  { x with
    accepted := errors.isEmpty
    errors := errors
    warnings := (if x.isDestructive then ["Destructive operation: " ++ x.operation] else []) ++ x.warnings
    requiresConfirmation := false }

namespace Validation

open Validator

theorem confirmationErrors_eq (operation : String) (requires : Bool) :
    confirmationErrors operation requires = if requires then [confirmationMessage operation] else [] := by
  cases requires with
  | false => rfl
  | true => exact congrArg ([·]) String.append_assoc

theorem filter_confirmationErrors (operation : String) (requires : Bool) :
    (confirmationErrors operation requires).filter (· ≠ confirmationMessage operation) = [] := by
  rw [confirmationErrors_eq]
  cases requires with
  | false => rfl
  | true => simp

/-- No other objection is taken for the one for want of a confirmation. -/
theorem filter_errors (v : Validator) (cs : List Char) (operation : String) (requires : Bool) :
    (dangerErrors cs ++ stackErrors cs ++ confirmationErrors operation requires ++ v.tableErrors cs).filter
        (· ≠ confirmationMessage operation) =
      dangerErrors cs ++ stackErrors cs ++ confirmationErrors operation false ++ v.tableErrors cs := by
  have hmessage : (confirmationMessage operation).toList.head? = some 'D' := head?_append (by decide) _
  have hkept {es : List String} (h : confirmationMessage operation ∉ es) :
      es.filter (· ≠ confirmationMessage operation) = es :=
    List.filter_eq_self.mpr fun e he => decide_eq_true (ne_of_mem_of_not_mem he h)
  rw [List.filter_append, List.filter_append, List.filter_append, filter_confirmationErrors,
    hkept (not_mem_of_head? head?_dangerErrors hmessage (by decide)),
    hkept (not_mem_of_head? head?_stackErrors hmessage (by decide)),
    hkept (not_mem_of_head? head?_tableErrors hmessage (by decide))]
  rfl

variable (v : Validator) (sql : List Char)

/-- Whoever gives it, leave is leave. -/
theorem validate_allowed (confirm : Bool) :
    { v with allowDestructive := true }.validate sql confirm = v.validate sql true := by
  by_cases h : trim sql = []
  · rw [validate_blank h, validate_blank h]
  · rw [validate_visible h, validate_visible h]
    simp only [Bool.not_true, Bool.and_false, Bool.false_and]
    rfl

/-- Leave takes one objection away and puts a warning in its place. -/
theorem validate_granted :
    v.validate sql true = ({ v with allowDestructive := false }.validate sql false).granted := by
  by_cases h : trim sql = []
  · rw [validate_blank h, validate_blank h]
    decide
  · rw [validate_visible h, validate_visible h, Verdict.granted]
    simp only [filter_errors, Bool.not_true, Bool.not_false, Bool.and_false, Bool.false_and, Bool.and_true]
    cases (classify (trim sql)).2 <;> rfl

/-! ### Allowed tables -/

/-- What is said of tables that are not allowed. -/
def tableReport : List String → List String
  | [] => []
  | ts => ["Unauthorized tables: " ++ ", ".intercalate ts]

theorem tableErrors_eq_tableReport {v : Validator} (hv : v.allowedTables ≠ []) (cs : List Char) :
    v.tableErrors cs = tableReport (v.unauthorized cs) := by
  have hempty : v.allowedTables.isEmpty = false := by simpa using hv
  rw [tableErrors, hempty, if_neg Bool.false_ne_true]
  cases v.unauthorized cs <;> rfl

theorem filter_addOnce (p : String → Bool) (out : List String) (t : String) :
    (addOnce out t).filter p = if p t then addOnce (out.filter p) t else out.filter p := by
  cases hp : p t with
  | true =>
    have hmem : t ∈ out.filter p ↔ t ∈ out := by simp [hp]
    simp only [addOnce, hmem, if_true]
    split
    · rfl
    · simp [hp]
  | false =>
    rw [addOnce]
    split <;> simp [hp]

/-- The first of each is the first of those that are left. -/
theorem filter_foldl_addOnce (p : String → Bool) (ts out : List String) :
    (ts.foldl addOnce out).filter p = (ts.filter p).foldl addOnce (out.filter p) := by
  induction ts generalizing out with
  | nil => rfl
  | cons t ts ih =>
    rw [List.foldl_cons, ih, filter_addOnce]
    cases hp : p t <;> simp [hp]

theorem unauthorized_more {ts us : List String} (h : ts ⊆ us) (cs : List Char) :
    { v with allowedTables := us }.unauthorized cs =
      ({ v with allowedTables := ts }.unauthorized cs).filter (!us.contains ·) := by
  have hsame : (referencedTables cs).filter (!us.contains ·) =
      ((referencedTables cs).filter (!ts.contains ·)).filter (!us.contains ·) := by
    rw [List.filter_filter]
    refine List.filter_congr fun t _ => ?_
    by_cases hu : t ∈ us
    · simp [hu]
    · have ht : t ∉ ts := fun ht => hu (h ht)
      simp [hu, ht]
  rw [unauthorized, unauthorized, filter_foldl_addOnce, hsame]
  rfl

/-- The report on tables comes last, and what stands before it does not depend on the list. -/
theorem errors_tables (confirm : Bool) : ∃ es, ∀ ts : List String, ts ≠ [] →
    ({ v with allowedTables := ts }.validate sql confirm).errors =
      es ++ tableReport ({ v with allowedTables := ts }.unauthorized (trim sql)) := by
  by_cases h : trim sql = []
  · refine ⟨["Empty query"], fun ts _ => ?_⟩
    rw [validate_blank h, h]
    rfl
  · refine ⟨dangerErrors (trim sql) ++ stackErrors (trim sql) ++ confirmationErrors (classify (trim sql)).1
      ((classify (trim sql)).2 && !confirm && !v.allowDestructive), fun ts hts => ?_⟩
    rw [validate_visible h, ← tableErrors_eq_tableReport hts]

theorem accepted_more {ts us : List String} (hts : ts ≠ []) (h : ts ⊆ us) {confirm : Bool}
    (hok : ({ v with allowedTables := ts }.validate sql confirm).accepted = true) :
    ({ v with allowedTables := us }.validate sql confirm).accepted = true := by
  have hus : us ≠ [] := by
    rintro rfl
    exact hts (List.subset_nil.mp h)
  obtain ⟨es, hes⟩ := errors_tables v sql confirm
  rw [accepted_iff, hes us hus, unauthorized_more v h]
  rw [accepted_iff, hes ts hts, List.append_eq_nil_iff] at hok
  have hnone : { v with allowedTables := ts }.unauthorized (trim sql) = [] := by
    cases hun : { v with allowedTables := ts }.unauthorized (trim sql) with
    | nil => rfl
    | cons t rest =>
      rw [hun] at hok
      cases hok.2
  rw [hnone, hok.1]
  rfl

/-! ### The bound on complexity -/

theorem validate_bound (confirm : Bool) : ∃ ws, ∀ n,
    { v with maxComplexity := n }.validate sql confirm =
      { v.validate sql confirm with
        warnings := ws ++ { v with maxComplexity := n }.complexityWarnings (v.validate sql confirm).complexity } := by
  by_cases h : trim sql = []
  · refine ⟨[], fun n => ?_⟩
    rw [validate_blank h, validate_blank h]
    rfl
  · let destructive := (classify (trim sql)).2
    let requires := destructive && !confirm && !v.allowDestructive
    refine ⟨if destructive && !requires then ["Destructive operation: " ++ (classify (trim sql)).1] else [], fun n => ?_⟩
    rw [validate_visible h, validate_visible h]
    rfl

/-! ### Verdicts under any two settings -/

/-- The tables of the statement that the list does not allow, each told of once. -/
def reported (v : Validator) (ts : List String) (sql : List Char) : List String :=
  { v with allowedTables := ts }.unauthorized (trim sql)

/-- Leave from the caller and from the settings come to the same, and change no more than the objection that asks
for it. A longer list of tables refuses nothing that a shorter one accepts, and reports those of its tables that it
does not allow itself. The bound on complexity decides about the last warning alone. -/
theorem validate_settings :
    ((∀ confirm, { v with allowDestructive := true }.validate sql confirm = v.validate sql true) ∧
      v.validate sql true = ({ v with allowDestructive := false }.validate sql false).granted) ∧
    (∀ confirm, ∃ es, ∀ ts : List String, ts ≠ [] →
      ({ v with allowedTables := ts }.validate sql confirm).errors = es ++ tableReport (reported v ts sql) ∧
      ∀ us : List String, ts ⊆ us →
        (({ v with allowedTables := ts }.validate sql confirm).accepted = true →
          ({ v with allowedTables := us }.validate sql confirm).accepted = true) ∧
        (reported v us sql).Nodup ∧ reported v us sql = (reported v ts sql).filter (!us.contains ·)) ∧
    ∀ confirm, ∃ ws, ∀ n, { v with maxComplexity := n }.validate sql confirm =
      { v.validate sql confirm with
        warnings := ws ++ { v with maxComplexity := n }.complexityWarnings (v.validate sql confirm).complexity } := by
  refine ⟨⟨validate_allowed v sql, validate_granted v sql⟩, fun confirm => ?_, validate_bound v sql⟩
  obtain ⟨es, hes⟩ := errors_tables v sql confirm
  refine ⟨es, fun ts hts => ⟨hes ts hts, fun us hsub => ⟨accepted_more v sql hts hsub, ?_, ?_⟩⟩⟩
  · exact addsOnce_addOnce.nodup_of_id List.nodup_nil _
  · exact unauthorized_more v hsub (trim sql)

/-- Two tables beyond the shorter list, one of which is in the longer one, and none. -/
theorem validate_settings_orders :
    let v := Validator.new false 5 []
    let sql := "DELETE FROM users USING users JOIN orders JOIN audit JOIN orders".toList
    let allowed := "SELECT * FROM Users".toList
    let ts := ["users"]
    let us := ["audit", "users"]
    ts ≠ [] ∧ ts ⊆ us ∧ reported v ts sql = ["orders", "audit"] ∧ reported v us sql = ["orders"] ∧
      v.validate sql true = ({ v with allowDestructive := false }.validate sql false).granted ∧
      reported v us sql = (reported v ts sql).filter (!us.contains ·) ∧
      ({ v with allowedTables := ts }.validate allowed false).accepted = true ∧
      ({ v with allowedTables := us }.validate allowed false).accepted = true := by
  intro v sql allowed ts us
  obtain ⟨⟨-, hgranted⟩, htables, -⟩ := validate_settings v sql
  obtain ⟨-, htables', -⟩ := validate_settings v allowed
  obtain ⟨es, hes⟩ := htables false
  obtain ⟨es', hes'⟩ := htables' false
  have hts : ts ≠ [] := by decide
  have hsub : ts ⊆ us := by decide
  have haccepted : ({ v with allowedTables := ts }.validate allowed false).accepted = true := by decide +kernel
  exact ⟨hts, hsub, by decide +kernel, by decide +kernel, hgranted, ((hes ts hts).2 us hsub).2.2, haccepted,
    ((hes' ts hts).2 us hsub).1 haccepted⟩

end Validation

end Parlance
