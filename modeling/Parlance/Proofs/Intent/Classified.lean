import Parlance.Intent
import Parlance.Proofs.Number.Numeral

/-! What kind of value a text stands for. Quotes count before numerals, numerals before truth values,
and whatever is none of these is text as it stands. -/

namespace Parlance.Literal

open Text (trim lower isBlank isAsciiDigit)
open Number (Unsigned Numeral)

/-! ### Quotes -/

/-- A text of two characters at least that begins and ends with the quote `q`, and what stands between. -/
structure Quotes (q : Char) (inner cs : List Char) : Prop where
  two : 2 ≤ cs.length
  first : cs.head? = some q
  last : cs.getLast? = some q
  between : inner = cs.tail.dropLast

theorem quotes_iff {q : Char} {inner cs : List Char} : Quotes q inner cs ↔ cs = q :: (inner ++ [q]) := by
  constructor
  · intro h
    obtain ⟨htwo, hfirst, hlast, hbetween⟩ := h
    cases cs with
    | nil => cases hfirst
    | cons c cs =>
      cases hfirst
      have hne : cs ≠ [] := by
        rintro rfl
        simp at htwo
      rw [List.getLast?_cons_of_ne_nil hne] at hlast
      obtain ⟨init, rfl⟩ := List.getLast?_eq_some_iff.mp hlast
      rw [hbetween, List.tail_cons, List.dropLast_concat]
  · rintro rfl
    refine ⟨by simp, rfl, ?_, ?_⟩
    · rw [← List.cons_append, List.getLast?_concat]
    · rw [List.tail_cons, List.dropLast_concat]

theorem unquoted?_eq_some_iff {q : Char} {cs inner : List Char} :
    unquoted? q cs = some inner ↔ Quotes q inner cs := by
  simp only [unquoted?, Option.bind_eq_some_iff, Text.withoutStart?_eq_some_iff, Text.withoutEnd?_eq_some_iff,
    quotes_iff]
  constructor
  · rintro ⟨rest, rfl, rfl⟩
    rfl
  · intro h
    exact ⟨inner ++ [q], h, rfl⟩

/-! ### Numerals -/

/-- Without letters and without plus signs, what is read as a number is a plain numeral. -/
theorem isPlainNumber_iff {cs : List Char} : isPlainNumber cs = true ↔ Numeral cs := by
  simp only [isPlainNumber, Bool.and_eq_true, List.all_eq_true, Bool.or_eq_true, decide_eq_true_eq]
  constructor
  · rintro ⟨hread, hall⟩
    have hl : ∀ c ∈ cs, c ≠ 'e' ∧ c ≠ 'E' ∧ c ≠ '+' := by
      intro c hc
      rcases hall c hc with (hd | rfl) | rfl
      · exact ⟨Text.ne_of_holds hd (by decide), Text.ne_of_holds hd (by decide), Text.ne_of_holds hd (by decide)⟩
      · decide
      · decide
    have hbody : Unsigned (Number.splitSign cs).2 := by
      refine (Number.isSome_readDecimal?_iff fun c hc => ?_).mp hread
      obtain ⟨he, hE, -⟩ := hl c (Number.mem_of_mem_splitSign hc)
      exact ⟨he, hE⟩
    rcases Number.splitSign_cases cs with ⟨c, body, rfl, hc, hs⟩ | hs
    · rw [hs] at hbody
      rcases hc with rfl | rfl
      · exact .negative hbody
      · exact absurd rfl (hl '+' List.mem_cons_self).2.2
    · rw [hs] at hbody
      exact .plain hbody
  · intro h
    have hletter := h.lacks (p := fun c => c = 'e' || c = 'E') (by decide) (by decide) (by decide)
    refine ⟨(Number.isSome_readDecimal?_iff fun c hc => ?_).mpr h.unsigned, fun c hc => or_assoc.mpr (h.chars c hc)⟩
    simpa using hletter c (Number.mem_of_mem_splitSign hc)

/-! ### Values -/

def Unquoted (cs : List Char) : Prop := ∀ inner, ¬ Quotes '\'' inner cs ∧ ¬ Quotes '"' inner cs

def truthWord (b : Bool) : List Char := if b then "true".toList else "false".toList

/-- The value that a trimmed text stands for, the first kind that fits. -/
inductive Classified (cs : List Char) : Literal → Prop
  | single {inner : List Char} (h : Quotes '\'' inner cs) : Classified cs (.text (String.ofList inner))
  | double {inner : List Char} (hs : ∀ i, ¬ Quotes '\'' i cs) (h : Quotes '"' inner cs) :
      Classified cs (.text (String.ofList inner))
  | number (hq : Unquoted cs) (h : Numeral cs) : Classified cs (.number (String.ofList cs))
  | boolean {b : Bool} (hq : Unquoted cs) (hn : ¬ Numeral cs) (h : lower cs = truthWord b) :
      Classified cs (.boolean b)
  | text (hq : Unquoted cs) (hn : ¬ Numeral cs) (hb : ∀ b, lower cs ≠ truthWord b) :
      Classified cs (.text (String.ofList cs))

theorem unquoted?_eq_none_iff {q : Char} {cs : List Char} :
    unquoted? q cs = none ↔ ∀ inner, ¬ Quotes q inner cs := by
  simp only [Option.eq_none_iff_forall_ne_some, ne_eq, unquoted?_eq_some_iff]

theorem classified_ofText (raw : List Char) : Classified (trim raw) (ofText raw) := by
  simp only [ofText]
  generalize trim raw = cs
  cases hs : unquoted? '\'' cs with
  | some inner => exact .single (unquoted?_eq_some_iff.mp hs)
  | none =>
    have hsingle := unquoted?_eq_none_iff.mp hs
    cases hd : unquoted? '"' cs with
    | some inner => exact .double hsingle (unquoted?_eq_some_iff.mp hd)
    | none =>
      have hq : Unquoted cs := fun inner => ⟨hsingle inner, unquoted?_eq_none_iff.mp hd inner⟩
      simp only [Option.or_none]
      by_cases hn : isPlainNumber cs = true
      · rw [if_pos hn]
        exact .number hq (isPlainNumber_iff.mp hn)
      · rw [if_neg hn]
        have hn := mt isPlainNumber_iff.mpr hn
        by_cases ht : lower cs = "true".toList
        · rw [if_pos ht]
          exact .boolean hq hn ht
        · by_cases hf : lower cs = "false".toList
          · rw [if_neg ht, if_pos hf]
            exact .boolean hq hn hf
          · rw [if_neg ht, if_neg hf]
            refine .text hq hn fun b => ?_
            cases b with
            | true => exact ht
            | false => exact hf

theorem Unquoted.unquoted? {cs : List Char} (h : Unquoted cs) :
    unquoted? '\'' cs = none ∧ unquoted? '"' cs = none :=
  ⟨unquoted?_eq_none_iff.mpr fun inner => (h inner).1, unquoted?_eq_none_iff.mpr fun inner => (h inner).2⟩

theorem ofText_of_classified {raw : List Char} {l : Literal} (h : Classified (trim raw) l) : ofText raw = l := by
  simp only [ofText]
  generalize trim raw = cs at h
  cases h with
  | single h =>
    rw [unquoted?_eq_some_iff.mpr h]
    rfl
  | double hs h =>
    rw [unquoted?_eq_none_iff.mpr hs, unquoted?_eq_some_iff.mpr h]
    rfl
  | number hq h =>
    rw [hq.unquoted?.1, hq.unquoted?.2]
    exact if_pos (isPlainNumber_iff.mpr h)
  | @boolean b hq hn h =>
    rw [hq.unquoted?.1, hq.unquoted?.2, h]
    refine (if_neg (mt isPlainNumber_iff.mp hn)).trans ?_
    cases b <;> rfl
  | text hq hn hb =>
    rw [hq.unquoted?.1, hq.unquoted?.2]
    refine (if_neg (mt isPlainNumber_iff.mp hn)).trans ?_
    exact (if_neg (hb true)).trans (if_neg (hb false))

theorem ofText_eq_iff {raw : List Char} {l : Literal} : ofText raw = l ↔ Classified (trim raw) l := by
  constructor
  · rintro rfl
    exact classified_ofText raw
  · exact ofText_of_classified

/-! ### Values that need no trimming -/

theorem ofText_numeral {cs : List Char} (h : Numeral cs) : ofText cs = .number (String.ofList cs) := by
  have hblank := h.lacks (p := isBlank) (by decide) (by decide) (by decide)
  have htrim : trim cs = cs :=
    Text.trim_eq_self (fun c hc => hblank c (List.mem_of_mem_head? hc)) fun c hc => hblank c (List.mem_of_getLast? hc)
  have hquote := h.lacks (p := fun c => c = '\'' || c = '"') (by decide) (by decide) (by decide)
  have hq : Unquoted cs := by
    refine fun inner => ⟨fun hs => ?_, fun hd => ?_⟩
    · exact absurd (hquote '\'' (List.mem_of_mem_head? hs.first)) (by decide)
    · exact absurd (hquote '"' (List.mem_of_mem_head? hd.first)) (by decide)
  apply ofText_of_classified
  rw [htrim]
  exact .number hq h

theorem ofText_single (inner : List Char) : ofText ('\'' :: (inner ++ ['\''])) = .text (String.ofList inner) := by
  have htrim : trim ('\'' :: (inner ++ ['\''])) = '\'' :: (inner ++ ['\'']) := by
    refine Text.trim_eq_self (fun c hc => ?_) (fun c hc => ?_)
    · cases hc
      decide
    · rw [← List.cons_append, List.getLast?_concat] at hc
      cases hc
      decide
  apply ofText_of_classified
  rw [htrim]
  exact .single (quotes_iff.mpr rfl)

end Parlance.Literal
