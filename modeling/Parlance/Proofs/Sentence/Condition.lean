import Parlance.Proofs.Interpretation.Stages
import Parlance.Proofs.Sentence.Value

/-! Conditions of the form "column operator value". Each operator sign is read by its own form, after
all forms that are tried before it have failed, and a chain of conditions is read to its end. -/

namespace Parlance.Sentence

open Pattern Text
open Interpretation
open Grammar (ConditionForm conditionForms columnName columnGroup valueGroup operatorForm nullForm spaced symbol value)

/-! ### Columns -/

namespace FreeName

variable {n : String} {u x : List Char} (h : FreeName n)
include h

theorem prefers_columnName (hx : Spaced x) :
    Prefers columnName u n.toList x [(columnGroup, .behind u n.toList)] := by
  have hlead : Prefers (lead ["the", "a", "an", "their", "its"]) u [] (n.toList ++ x) [] :=
    h.prefers_lead (by decide) (by decide) hx
  have hname : Prefers (group columnGroup name) (u ++ []) n.toList x [(columnGroup, .behind u n.toList)] := by
    rw [List.append_nil]
    exact .group (h.prefers_name hx)
  have hboth := Prefers.both hlead hname
  rwa [List.nil_append, List.append_nil] at hboth

/-- What begins with no character of names fails behind a column if it fails behind the whole name. -/
theorem fails_columnName {q : Pattern} (hq : Avoids Pattern.isNameChar q) (hx : Spaced x)
    (hf : Fails q (u ++ n.toList) x) : Fails (both columnName q) u (n.toList ++ x) := by
  refine fails_behind_name (fun w y hy hm => ?_) hq h.isNameChar (hx.forall_head (by decide)) hf
  cases hm with
  | both hlead hname =>
    cases hlead with
    | left hlead =>
      rw [List.append_assoc] at hy
      exact absurd hlead (h.fails_lead (by decide) (by decide) hx hy)
    | right hlead =>
      cases hlead
      cases hname with
      | group hname => exact (spells_name hname.spells).isNameChar

end FreeName

/-! ### Forms -/

/-- A form finds its sign. -/
theorem prefers_operatorForm {ops : List Pattern} {c : String} {sign v x : List Char} {l : Literal}
    (hc : FreeName c) (hv : Stands v l) (hx : Spaced x) (hne : sign ≠ [])
    (hsign : ∀ d ∈ sign.head?, isBlank d = false)
    (hops : Prefers (oneOf ops) (c.toList ++ [' ']) sign (' ' :: (v ++ x)) []) :
    Prefers (operatorForm ops) [] (c.toList ++ ' ' :: (sign ++ ' ' :: v)) x
      [(valueGroup, .behind (c.toList ++ [' '] ++ sign ++ [' ']) v), (columnGroup, .behind [] c.toList)] := by
  have hvisible : ∀ d ∈ (v ++ x).head?, isBlank d = false := by
    obtain ⟨d, ds, rfl⟩ := List.exists_cons_of_ne_nil hv.nonempty
    exact hv.visible
  have hshown : ∀ d ∈ (sign ++ ' ' :: v ++ x).head?, isBlank d = false := by
    obtain ⟨d, ds, rfl⟩ := List.exists_cons_of_ne_nil hne
    exact hsign
  have hvalue : Prefers (seq [value]) (c.toList ++ [' '] ++ sign ++ [' ']) v x
      [(valueGroup, .behind (c.toList ++ [' '] ++ sign ++ [' ']) v)] :=
    .seq_last (.group (hv.token hx))
  have hgap : Prefers (seq [maybeGap, value]) (c.toList ++ [' '] ++ sign) (' ' :: v) x _ :=
    .seq_cons (v := [' ']) (.maybeGap_space hvisible) hvalue
  have hop : Prefers (seq [oneOf ops, maybeGap, value]) (c.toList ++ [' ']) (sign ++ ' ' :: v) x _ :=
    .seq_cons hops hgap
  have hbefore : Prefers (seq [maybeGap, oneOf ops, maybeGap, value]) c.toList (' ' :: (sign ++ ' ' :: v)) x _ :=
    .seq_cons (v := [' ']) (.maybeGap_space hshown) hop
  have hcolumn : Prefers (seq [columnName, maybeGap, oneOf ops, maybeGap, value]) []
      (c.toList ++ ' ' :: (sign ++ ' ' :: v)) x _ :=
    .seq_cons (hc.prefers_columnName (.cons _)) hbefore
  exact .seq_nil .start hcolumn

theorem eq_of_spells_symbol {cs w : List Char} (h : (seq (cs.map char)).Spells w) : w = cs := by
  induction cs generalizing w with
  | nil =>
    cases h
    rfl
  | cons c cs ih =>
    obtain ⟨u, v, rfl, hu, hv⟩ := spells_seq_cons h
    cases hu with
    | one hc => rw [ih hv, of_decide_eq_true hc, List.singleton_append]

theorem fails_symbol {s : String} {u v : List Char} (h : ¬s.toList <+: v) : Fails (symbol s) u v := by
  refine fails_of_matches fun w x hv hm => ?_
  rw [eq_of_spells_symbol hm.spells] at hv
  exact h ⟨x, hv.symm⟩

theorem Comparison.sql_eq_cons (op : Comparison) :
    ∃ d ds, op.sql.toList = d :: ds ∧ isWord d = false ∧ isBlank d = false := by
  cases op <;> exact ⟨_, _, rfl, by decide, by decide⟩

/-- The symbol cannot be read where the sign stands, nor at the space before it. -/
structure Misses (sign s : String) : Prop where
  visible : ∀ c ∈ s.toList.head?, Pattern.isNameChar c = false ∧ c ≠ ' '
  short : s.toList.length ≤ sign.toList.length + 1
  different : ¬s.toList <+: sign.toList ++ [' ']

instance (sign s : String) : Decidable (Misses sign s) :=
  decidable_of_iff (s.toList.head?.all (fun c => !Pattern.isNameChar c && c ≠ ' ') ∧
      s.toList.length ≤ sign.toList.length + 1 ∧ ¬s.toList <+: sign.toList ++ [' '])
    ⟨fun ⟨h₁, h₂, h₃⟩ => ⟨by simpa [Option.all_eq_true] using h₁, h₂, h₃⟩,
      fun ⟨h₁, h₂, h₃⟩ => ⟨by simpa [Option.all_eq_true] using h₁, h₂, h₃⟩⟩

namespace Misses

variable {sign s : String} {u v : List Char} (h : Misses sign s)
include h

theorem exists_cons : ∃ c cs, s.toList = c :: cs ∧ Pattern.isNameChar c = false ∧ c ≠ ' ' := by
  cases hs : s.toList with
  | nil => exact absurd (by rw [hs]; exact List.nil_prefix) h.different
  | cons c cs => exact ⟨c, cs, rfl, h.visible c (by rw [hs]; rfl)⟩

theorem fails_space : Fails (symbol s) u (' ' :: v) := by
  obtain ⟨c, cs, hs, -, hc⟩ := h.exists_cons
  refine fails_symbol ?_
  rw [hs]
  rintro ⟨x, hx⟩
  exact hc (List.cons.inj hx).1

theorem fails_sign : Fails (symbol s) u (sign.toList ++ ' ' :: v) := by
  refine fails_symbol fun hprefix => h.different ?_
  have hlonger : sign.toList ++ [' '] <+: sign.toList ++ ' ' :: v := ⟨v, by simp⟩
  exact List.prefix_of_prefix_length_le hprefix hlonger (by simpa using h.short)

theorem avoids : Avoids Pattern.isNameChar (symbol s) := by
  intro w hw
  obtain ⟨c, cs, hs, hc, -⟩ := h.exists_cons
  exact ⟨c, cs, (eq_of_spells_symbol hw).trans hs, hc⟩

end Misses

/-- The form finds nothing behind a column and in front of the sign. -/
def Skips (sign : List Char) (p : Pattern) : Prop :=
  ∀ c v, FreeName c → p.find? (c.toList ++ ' ' :: (sign ++ ' ' :: v)) = none

/-- The form finds nothing in front of a sign, unless it is one of its own or begins with one. -/
def SkipsAllBut (ss : List String) (p : Pattern) : Prop :=
  ∀ op : Comparison, (∀ s ∈ ss, Misses op.sql s) → Skips op.sql.toList p

/-- A form fails if its operators fail at the sign and at the space before it. -/
theorem fails_operatorForm {ops : List Pattern} {c : String} {v : List Char} (hc : FreeName c)
    (hops : ∀ p ∈ ops, Avoids Pattern.isNameChar p) (hv : ∀ d ∈ v.head?, isBlank d = false)
    (hspace : ∀ p ∈ ops, Fails p c.toList (' ' :: v)) (hsign : ∀ p ∈ ops, Fails p (c.toList ++ [' ']) v) :
    Fails (operatorForm ops) [] (c.toList ++ ' ' :: v) := by
  have hbehind : Avoids Pattern.isNameChar (seq [maybeGap, oneOf ops, maybeGap, value]) :=
    .many_both (fun _ => isNameChar_of_isBlank) (Avoids.oneOf hops).both
  have hfails : Fails (seq [maybeGap, oneOf ops, maybeGap, value]) c.toList (' ' :: v) :=
    fails_maybeGap hv (Fails.oneOf hspace).both (Fails.oneOf hsign).both
  exact fails_behind_start (hc.fails_columnName hbehind (.cons v) hfails)

theorem skips_operatorForm {ws : List String} (ss : List String)
    (hws : ∀ k ∈ Leads.firstWords ws, k.toList.head?.any Char.isAlpha = true) :
    SkipsAllBut ss (operatorForm (ss.map symbol ++ [spaced ws])) := by
  intro op hss c v hc
  obtain ⟨d, ds, hd, hword, hblank⟩ := Comparison.sql_eq_cons op
  have hops {p : Pattern} (hp : p ∈ ss.map symbol ++ [spaced ws]) : (∃ s ∈ ss, p = symbol s) ∨ p = spaced ws := by
    simpa [eq_comm] using hp
  refine find?_start_eq_none (fails_operatorForm hc (fun p hp => ?_) ?_ (fun p hp => ?_) fun p hp => ?_)
  · rcases hops hp with ⟨s, hs, rfl⟩ | rfl
    · exact (hss s hs).avoids
    · exact (Avoids.one fun _ => isNameChar_of_isBlank).both
  · rw [hd]
    intro e he
    cases he
    exact hblank
  · rcases hops hp with ⟨s, hs, rfl⟩ | rfl
    · exact (hss s hs).fails_space
    · have hphrase : Fails (phrases ws) (c.toList ++ [' ']) (op.sql.toList ++ ' ' :: v) := by
        rw [hd]
        exact (Leads.phrases ws).fails hws hword
      exact fails_blank hphrase.both
  · rcases hops hp with ⟨s, hs, rfl⟩ | rfl
    · exact (hss s hs).fails_sign
    · rw [hd]
      exact (fails_one hblank).both

theorem skips_nullForm {ws : List String} (hws : ∀ k ∈ Leads.firstWords ws, k.toList.head?.any Char.isAlpha = true) :
    SkipsAllBut [] (nullForm ws) := by
  intro op _ c v hc
  obtain ⟨d, ds, hd, hword, hblank⟩ := Comparison.sql_eq_cons op
  have hbehind : Avoids Pattern.isNameChar (seq [gap, phrases ws, edge]) :=
    (Avoids.one fun _ => isNameChar_of_isBlank).both.both
  have hphrase : Fails (phrases ws) (c.toList ++ [' ']) (op.sql.toList ++ ' ' :: v) := by
    rw [hd]
    exact (Leads.phrases ws).fails hws hword
  have hshown : ∀ e ∈ (op.sql.toList ++ ' ' :: v).head?, isBlank e = false := by
    rw [hd]
    intro e he
    cases he
    exact hblank
  exact find?_start_eq_none (fails_behind_start (hc.fails_columnName hbehind (.cons _)
    (fails_gap hshown hphrase.both)))

/-- The signs of the forms that are tried before that of equality, in their order. -/
def formSigns : List (List String) := [[], [], ["!=", "<>"], [">="], ["<="], [">"], ["<"], [], [], []]

theorem skips_form : ∀ e ∈ conditionForms.zip formSigns, SkipsAllBut e.2 e.1.2 := by
  simp only [conditionForms, formSigns, List.zip_cons_cons, List.zip_nil_right, List.forall_mem_cons]
  exact ⟨skips_nullForm (by decide +kernel), skips_nullForm (by decide +kernel),
    skips_operatorForm ["!=", "<>"] (by decide +kernel), skips_operatorForm [">="] (by decide +kernel),
    skips_operatorForm ["<="] (by decide +kernel), skips_operatorForm [">"] (by decide +kernel),
    skips_operatorForm ["<"] (by decide +kernel), skips_operatorForm [] (by decide +kernel),
    skips_operatorForm [] (by decide +kernel), skips_operatorForm [] (by decide +kernel), List.forall_mem_nil _⟩

/-- Every sign is found by its own form, and the forms before that one find nothing. -/
theorem conditionForms_split (op : Comparison) : ∃ before ops behind,
    conditionForms = before ++ (.compare op, operatorForm ops) :: behind ∧
    (∀ f ∈ before, Skips op.sql.toList f.2) ∧ ∀ u v, Prefers (oneOf ops) u op.sql.toList (' ' :: v) [] := by
  have hbefore (n : Nat) (h : ∀ e ∈ (conditionForms.zip formSigns).take n, ∀ s ∈ e.2, Misses op.sql s) :
      ∀ f ∈ ((conditionForms.zip formSigns).take n).map (·.1), Skips op.sql.toList f.2 := by
    intro f hf
    obtain ⟨e, he, rfl⟩ := List.mem_map.mp hf
    exact skips_form e (List.mem_of_mem_take he) op (h e he)
  have hsign {ops : List Pattern} (u v : List Char) :
      Prefers (oneOf (symbol op.sql :: ops)) u op.sql.toList (' ' :: v) [] := .oneOf_head (.symbol _)
  cases op with
  | notEqual => exact ⟨_, _, conditionForms.drop 3, rfl, hbefore 2 (by decide), fun _ _ => hsign _ _⟩
  | greaterEqual => exact ⟨_, _, conditionForms.drop 4, rfl, hbefore 3 (by decide), fun _ _ => hsign _ _⟩
  | lessEqual => exact ⟨_, _, conditionForms.drop 5, rfl, hbefore 4 (by decide), fun _ _ => hsign _ _⟩
  | greater => exact ⟨_, _, conditionForms.drop 6, rfl, hbefore 5 (by decide), fun _ _ => hsign _ _⟩
  | less => exact ⟨_, _, conditionForms.drop 7, rfl, hbefore 6 (by decide), fun _ _ => hsign _ _⟩
  | equal =>
    -- two signs are tried for equality, the doubled one first
    exact ⟨_, _, conditionForms.drop 11, rfl, hbefore 10 (by decide),
      fun _ _ => .oneOf_tail (fun _ => rfl) (.oneOf_head (.symbol _))⟩

/-! ### A condition and a chain of them -/

theorem firstCondition_append {s : Subject} {cs : List Char} {before forms : List (ConditionForm × Pattern)}
    (h : ∀ f ∈ before, f.2.find? cs = none) :
    firstCondition s cs (before ++ forms) = firstCondition s cs forms := by
  induction before with
  | nil => rfl
  | cons f before ih =>
    obtain ⟨hf, hbefore⟩ := List.forall_mem_cons.mp h
    obtain ⟨form, p⟩ := f
    rw [List.cons_append, firstCondition, hf]
    exact ih hbefore

theorem predicateOf_compare {s : Subject} {c v : List Char} {column : String} {op : Comparison} {l : Literal}
    (hc : s.resolve c = .ok column) (hv : Stands v l) :
    predicateOf s (.compare op) c v = .ok (some (.compare column op l)) := by
  cases op <;> simp only [predicateOf, equality, hc, hv.not_null, hv.literal, ok_bind, Bool.false_eq_true, if_false]

variable {schema : Schema} {t : Table}

/-- A condition is read as it stands, whatever the sentence goes on with. -/
theorem condition?_eq (hs : FreeSchema schema) (ht : t ∈ schema.tables) {c : String}
    (hc : c ∈ t.columns.map (·.name)) (op : Comparison) {v x : List Char} {l : Literal} (hv : Stands v l)
    (hx : Spaced x) :
    condition? (subjectOf schema t) (c.toList ++ ' ' :: (op.sql.toList ++ ' ' :: v) ++ x) =
      .ok (some (.compare c op l, size (c.toList ++ ' ' :: (op.sql.toList ++ ' ' :: v)))) := by
  have hfree := hs.free_of_mem ht hc
  obtain ⟨before, ops, behind, hforms, hskip, hops⟩ := conditionForms_split op
  obtain ⟨d, ds, hd, -, hblank⟩ := Comparison.sql_eq_cons op
  have hbefore : ∀ f ∈ before, f.2.find? (c.toList ++ ' ' :: (op.sql.toList ++ ' ' :: v) ++ x) = none := by
    intro f hf
    have h := hskip f hf c (v ++ x) hfree
    simpa using h
  have hprefers := prefers_operatorForm hfree hv hx (by simp [hd]) (by simp [hd, hblank]) (hops _ _)
  have hcolumn : (List.lookup columnGroup
      [(valueGroup, Capture.behind (c.toList ++ [' '] ++ op.sql.toList ++ [' ']) v),
        (columnGroup, .behind [] c.toList)]) = some (.behind [] c.toList) := rfl
  have hvalue : (List.lookup valueGroup
      [(valueGroup, Capture.behind (c.toList ++ [' '] ++ op.sql.toList ++ [' ']) v),
        (columnGroup, .behind [] c.toList)]) = some (.behind (c.toList ++ [' '] ++ op.sql.toList ++ [' ']) v) := rfl
  rw [condition?, hforms, firstCondition_append hbefore, firstCondition, hprefers.find?]
  simp only [Hit.text?_behind, hcolumn, hvalue, Option.map_some, Capture.text_behind, Option.getD_some,
    hfree.not_isFiller, Bool.false_eq_true, if_false, hv.unmarked,
    predicateOf_compare (hs.resolve_eq ht hc) hv, ok_bind, Hit.span_behind, List.nil_append]

end Parlance.Sentence
