import Parlance.Proofs.Text.Words
import Parlance.Proofs.Validation.Masking

/-! Statements stacked behind one another. Parts that are empty or blank do not count as statements, so a
text is refused for its separators only if one of them has something on either side. -/

namespace Parlance

open Text (isBlank trim)

namespace Text

theorem trim_eq_nil_iff {cs : List Char} : trim cs = [] ↔ ∀ c ∈ cs, isBlank c = true := by
  constructor
  · intro h
    obtain ⟨bs, es, hcs, hbs, hes⟩ := trim_append cs
    rw [h, List.append_nil] at hcs
    rw [hcs]
    exact List.forall_mem_append.mpr ⟨hbs, hes⟩
  · intro h
    have hstart : trimStart cs = [] := by
      rw [trimStart, ← List.append_nil cs, List.dropWhile_append_of_pos h, List.dropWhile_nil]
    rw [trim, hstart]
    rfl

end Text

namespace Validation

def stackedMessage : String := "Multiple SQL statements not allowed"

/-- More stands in the text than blanks and separators. -/
def Occupied (cs : List Char) : Prop := ∃ c ∈ cs, isBlank c = false ∧ c ≠ ';'

/-- A separator of the text has something on either side. -/
def Stacked (cs : List Char) : Prop := ∃ u v, cs = u ++ ';' :: v ∧ Occupied u ∧ Occupied v

instance (cs : List Char) : Decidable (Occupied cs) :=
  List.decidableBEx (fun c => isBlank c = false ∧ c ≠ ';') cs

theorem not_occupied_of_blank {cs : List Char} (h : ∀ c ∈ cs, isBlank c = true) : ¬ Occupied cs := by
  rintro ⟨c, hc, hblank, -⟩
  rw [h c hc] at hblank
  cases hblank

theorem occupied_append {u v : List Char} : Occupied (u ++ v) ↔ Occupied u ∨ Occupied v := by
  simp only [Occupied, List.mem_append, or_and_right, exists_or]

theorem occupied_cons_separator {v : List Char} : Occupied (';' :: v) ↔ Occupied v := by
  simp [Occupied]

theorem Stacked.behind {v : List Char} (h : Stacked v) (u : List Char) : Stacked (u ++ v) := by
  obtain ⟨a, b, rfl, ha, hb⟩ := h
  exact ⟨u ++ a, b, by simp, occupied_append.mpr (.inr ha), hb⟩

/-! ### Counting from one separator to the next -/

theorem separated_induction {motive : List Char → Prop} (single : ∀ cs, (∀ c ∈ cs, c ≠ ';') → motive cs)
    (separator : ∀ u v, (∀ c ∈ u, c ≠ ';') → motive v → motive (u ++ ';' :: v)) (cs : List Char) : motive cs := by
  induction hn : cs.length using Nat.strongRecOn generalizing cs with
  | _ n ih =>
    by_cases hmem : ';' ∈ cs
    · obtain ⟨u, v, rfl, hu⟩ := List.eq_append_cons_of_mem hmem
      refine separator u v (fun c hc heq => hu (heq ▸ hc)) (ih v.length ?_ v rfl)
      rw [← hn, List.length_append, List.length_cons]
      omega
    · exact single cs fun c hc heq => hmem (heq ▸ hc)

theorem statementCount_append (u v : List Char) :
    statementCount (u ++ ';' :: v) = statementCount u + statementCount v := by
  rw [statementCount, Text.pieces_append (by decide), List.filter_append, List.length_append]
  rfl

theorem statementCount_single {cs : List Char} (h : ∀ c ∈ cs, c ≠ ';') :
    statementCount cs = if Occupied cs then 1 else 0 := by
  have hone : Text.pieces (· = ';') cs = [cs] := Text.pieces_of_forall fun c hc => decide_eq_false (h c hc)
  rw [statementCount, hone]
  split
  · next hocc =>
    have hne : trim cs ≠ [] := fun hnil => not_occupied_of_blank (Text.trim_eq_nil_iff.mp hnil) hocc
    simp [hne]
  · next hfree =>
    have hblank : ∀ c ∈ cs, isBlank c = true := by
      intro c hc
      cases hvisible : isBlank c with
      | true => rfl
      | false => exact absurd ⟨c, hc, hvisible, h c hc⟩ hfree
    simp [Text.trim_eq_nil_iff.mpr hblank]

theorem statementCount_pos_iff (cs : List Char) : 0 < statementCount cs ↔ Occupied cs := by
  induction cs using separated_induction with
  | single cs h =>
    rw [statementCount_single h]
    split <;> simp_all
  | separator u v h ih =>
    have hleft : 0 < statementCount u ↔ Occupied u := by
      rw [statementCount_single h]
      split <;> simp_all
    rw [statementCount_append, occupied_append, occupied_cons_separator, ← hleft, ← ih]
    omega

theorem one_lt_statementCount_iff (cs : List Char) : 1 < statementCount cs ↔ Stacked cs := by
  constructor
  · intro hmany
    induction cs using separated_induction with
    | single cs h =>
      rw [statementCount_single h] at hmany
      split at hmany <;> omega
    | separator u v h ih =>
      rw [statementCount_append] at hmany
      by_cases hu : Occupied u
      · -- The first part counts once, so that one of the others counts too.
        have hone : statementCount u = 1 := by rw [statementCount_single h, if_pos hu]
        exact ⟨u, v, rfl, hu, (statementCount_pos_iff v).mp (by omega)⟩
      · have hnone : statementCount u = 0 := by rw [statementCount_single h, if_neg hu]
        have hrest : Stacked v := ih (by omega)
        have hsplit : u ++ ';' :: v = (u ++ [';']) ++ v := by simp
        rw [hsplit]
        exact hrest.behind _
  · rintro ⟨u, v, rfl, hu, hv⟩
    have hleft := (statementCount_pos_iff u).mpr hu
    have hright := (statementCount_pos_iff v).mpr hv
    rw [statementCount_append]
    omega

/-! ### The verdict -/

theorem statementCount_single_between {bs cs es : List Char} (hbs : ∀ c ∈ bs, isBlank c = true)
    (hcs : ∀ c ∈ cs, c ≠ ';') (hes : ∀ c ∈ es, isBlank c = true) :
    statementCount (bs ++ cs ++ es) = statementCount cs := by
  have hne {c : Char} (hc : isBlank c = true) : c ≠ ';' := Text.ne_of_holds hc (by decide)
  have hsingle : ∀ c ∈ bs ++ cs ++ es, c ≠ ';' :=
    List.forall_mem_append.mpr
      ⟨List.forall_mem_append.mpr ⟨fun c hc => hne (hbs c hc), hcs⟩, fun c hc => hne (hes c hc)⟩
  rw [statementCount_single hsingle, statementCount_single hcs]
  simp only [occupied_append, not_occupied_of_blank hbs, not_occupied_of_blank hes, false_or, or_false]

theorem statementCount_between {bs cs es : List Char} (hbs : ∀ c ∈ bs, isBlank c = true)
    (hes : ∀ c ∈ es, isBlank c = true) : statementCount (bs ++ cs ++ es) = statementCount cs := by
  induction cs using separated_induction generalizing bs with
  | single cs h => exact statementCount_single_between hbs h hes
  | separator u v h ih =>
    have hsplit : bs ++ (u ++ ';' :: v) ++ es = (bs ++ u) ++ ';' :: ([] ++ v ++ es) := by simp
    have hnone : ∀ c ∈ ([] : List Char), isBlank c = true := by simp
    have hfirst := statementCount_single_between hbs h hnone
    rw [List.append_nil] at hfirst
    rw [hsplit, statementCount_append, statementCount_append, hfirst, ih hnone]

theorem statementCount_trim (cs : List Char) : statementCount (trim cs) = statementCount cs := by
  obtain ⟨bs, es, hcs, hbs, hes⟩ := Text.trim_append cs
  have h : statementCount (bs ++ trim cs ++ es) = statementCount (trim cs) := statementCount_between hbs hes
  rwa [← hcs, eq_comm] at h

theorem mem_stackErrors_iff (cs : List Char) : stackedMessage ∈ Validator.stackErrors cs ↔ Stacked cs := by
  rw [← one_lt_statementCount_iff, Validator.stackErrors]
  split <;> simp_all [stackedMessage]

/-! An objection is told from the others by its first letter. -/

theorem head?_append {a : String} {c : Char} (h : a.toList.head? = some c) (s : String) :
    (a ++ s).toList.head? = some c := by
  rw [String.toList_append, List.head?_append, h, Option.some_or]

theorem head?_dangerErrors {cs : List Char} : ∀ e ∈ Validator.dangerErrors cs, e.toList.head? = some 'P' := by
  intro e he
  obtain ⟨d, -, rfl⟩ := List.mem_map.mp he
  exact head?_append (by decide) d.2

theorem head?_stackErrors {cs : List Char} : ∀ e ∈ Validator.stackErrors cs, e.toList.head? = some 'M' := by
  intro e he
  rw [Validator.stackErrors] at he
  split at he
  · rw [List.mem_singleton.mp he]
    decide
  · cases he

theorem head?_confirmationErrors {operation : String} {requires : Bool} :
    ∀ e ∈ Validator.confirmationErrors operation requires, e.toList.head? = some 'D' := by
  intro e he
  rw [Validator.confirmationErrors] at he
  split at he
  · rw [List.mem_singleton.mp he]
    exact head?_append (head?_append (by decide) operation) _
  · cases he

theorem head?_tableErrors {v : Validator} {cs : List Char} : ∀ e ∈ v.tableErrors cs, e.toList.head? = some 'U' := by
  intro e he
  rw [Validator.tableErrors] at he
  split at he
  · cases he
  · split at he
    · cases he
    · rw [List.mem_singleton.mp he]
      exact head?_append (by decide) _

theorem not_mem_of_head? {es : List String} {m : String} {c d : Char} (h : ∀ e ∈ es, e.toList.head? = some c)
    (hm : m.toList.head? = some d) (hne : c ≠ d) : m ∉ es := by
  intro hmem
  have heq := (h m hmem).symm.trans hm
  exact hne (Option.some.inj heq)

theorem head?_stackedMessage : stackedMessage.toList.head? = some 'M' := by decide

theorem not_mem_dangerErrors (cs : List Char) : stackedMessage ∉ Validator.dangerErrors cs :=
  not_mem_of_head? head?_dangerErrors head?_stackedMessage (by decide)

theorem not_mem_confirmationErrors (operation : String) (requires : Bool) :
    stackedMessage ∉ Validator.confirmationErrors operation requires :=
  not_mem_of_head? head?_confirmationErrors head?_stackedMessage (by decide)

theorem not_mem_tableErrors (v : Validator) (cs : List Char) : stackedMessage ∉ v.tableErrors cs :=
  not_mem_of_head? head?_tableErrors head?_stackedMessage (by decide)

/-- Whatever the settings, a text is refused for its separators exactly if it is stacked. -/
theorem stacked_iff_refused (v : Validator) (sql : List Char) (confirm : Bool) :
    Stacked sql ↔ (v.validate sql confirm).accepted = false ∧
      stackedMessage ∈ (v.validate sql confirm).errors := by
  have hrefused : (v.validate sql confirm).accepted = false ↔ (v.validate sql confirm).errors ≠ [] := by
    rw [ne_eq, ← v.accepted_iff, Bool.not_eq_true]
  have hmem : stackedMessage ∈ (v.validate sql confirm).errors ↔ Stacked sql := by
    rw [← one_lt_statementCount_iff, ← statementCount_trim, one_lt_statementCount_iff]
    simp only [Validator.validate]
    split
    · next hempty =>
      -- Nothing is left to be stacked.
      rw [List.isEmpty_iff.mp hempty]
      constructor
      · intro h
        exact absurd h (by decide)
      · rintro ⟨u, v, h, -⟩
        cases u <;> cases h
    · simp only [List.mem_append, not_mem_dangerErrors, not_mem_confirmationErrors, not_mem_tableErrors,
        mem_stackErrors_iff, false_or, or_false]
  rw [hrefused, hmem]
  exact ⟨fun h => ⟨List.ne_nil_of_mem (hmem.mpr h), h⟩, And.right⟩

/-- Nothing has to be refused for a separator that stands first. -/
theorem leading_separator_accepted : ¬ ∀ (v : Validator) (u w : List Char) (confirm : Bool), Occupied w →
    (v.validate (u ++ ';' :: w) confirm).accepted = false ∧
      stackedMessage ∈ (v.validate (u ++ ';' :: w) confirm).errors := by
  intro h
  obtain ⟨hrefused, -⟩ := h (Validator.new false 100 []) [] "SELECT 1".toList false (by decide)
  have haccepted : ((Validator.new false 100 []).validate ";SELECT 1".toList false).accepted = true := by decide
  exact absurd (haccepted.symm.trans hrefused) (by decide)

end Validation
end Parlance
