import Parlance.Proofs.Intent.Classified
import Parlance.Proofs.Sentence.Segment

/-! Values as they stand in conditions and assignments: runs of digits, and text between single quotes.
Each is read in one piece wherever a space or the end of the text follows it. -/

namespace Parlance.Sentence

open Pattern Text
open Interpretation
open Grammar (valueToken isBare notQuote)

/-- The text is read in one piece, as the literal. -/
structure Stands (v : List Char) (l : Literal) : Prop where
  nonempty : v ≠ []
  visible : ∀ c ∈ v.head?, isBlank c = false
  token : ∀ {u x : List Char}, Spaced x → Prefers valueToken u v x []
  unmarked : dropEndWhile isClosingMark v = v
  not_null : isNullWord v = false
  literal : Literal.ofText v = l

/-! ### Numerals -/

/-- A nonempty string of decimal digits. -/
structure Numeral where
  digits : List Char
  nonempty : digits ≠ []
  forall_digit : ∀ c ∈ digits, isAsciiDigit c = true

namespace Numeral

variable (n : Numeral)

def literal : Literal := .number (String.ofList n.digits)

theorem exists_cons : ∃ c cs, n.digits = c :: cs ∧ isAsciiDigit c = true := by
  obtain ⟨c, cs, hd⟩ := List.exists_cons_of_ne_nil n.nonempty
  exact ⟨c, cs, hd, n.forall_digit c (by rw [hd]; exact List.mem_cons_self)⟩

theorem forall_class {p : Char → Bool} (h : ∀ k < 128, isAsciiDigit (Char.ofNat k) = true → p (Char.ofNat k) = false) :
    ∀ c ∈ n.digits, p c = false := by
  intro c hc
  have hd := n.forall_digit c hc
  exact forall_ascii (P := fun c => isAsciiDigit c = true → p c = false) h (ascii_of_isAsciiDigit hd) hd

theorem forall_head {p : Char → Bool} (h : ∀ k < 128, isAsciiDigit (Char.ofNat k) = true → p (Char.ofNat k) = false) :
    ∀ c ∈ n.digits.head?, p c = false :=
  fun c hc => n.forall_class h c (List.mem_of_mem_head? hc)

theorem forall_head_append {p : Char → Bool}
    (h : ∀ k < 128, isAsciiDigit (Char.ofNat k) = true → p (Char.ofNat k) = false) {x : List Char} :
    ∀ c ∈ (n.digits ++ x).head?, p c = false := by
  obtain ⟨c, cs, hd, -⟩ := n.exists_cons
  have hhead := n.forall_head h
  rw [hd] at hhead ⊢
  exact hhead

theorem visible (x : List Char) : ∀ c ∈ (n.digits ++ x).head?, isBlank c = false :=
  n.forall_head_append (by decide)

theorem isWord : ∀ c ∈ n.digits, Text.isWord c = true := by
  intro c hc
  have h := n.forall_class (p := fun c => !Text.isWord c) (by decide) c hc
  simpa using h

theorem ofText_digits : Literal.ofText n.digits = n.literal :=
  Literal.ofText_numeral (.plain (.whole n.nonempty n.forall_digit))

theorem stands : Stands n.digits n.literal where
  nonempty := n.nonempty
  visible := n.forall_head (by decide)
  token {u x} hx := by
    obtain ⟨c, cs, hd, hc⟩ := n.exists_cons
    have hquote {q : Char} (hq : isAsciiDigit q = false) :
        Fails (seq [char q, many (notQuote q), char q]) u (n.digits ++ x) := by
      refine fails_of_begins rfl fun d hd' => ?_
      rw [hd] at hd'
      cases hd'
      have hne : c ≠ q := ne_of_holds hc hq
      simp [seq, char, begins, nullable, hne]
    have hbare : ∀ c ∈ n.digits, isBare c = true := by
      intro c hc
      have h := n.forall_class (p := fun c => !isBare c) (by decide) c hc
      simpa using h
    exact .oneOf_tail (hquote (by decide)) (.oneOf_tail (hquote (by decide))
      (.oneOf_head (.some1 n.nonempty hbare (hx.forall_head (by decide)))))
  unmarked := dropEndWhile_eq_self fun c hc => n.forall_class (by decide) c (List.mem_of_getLast? hc)
  not_null := by
    obtain ⟨c, cs, hd, hc⟩ := n.exists_cons
    have hne : c.toLower ≠ 'n' := by
      have h := n.forall_head (p := fun c => c.toLower = 'n') (by decide) c (by rw [hd]; rfl)
      simpa using h
    rw [hd]
    simp [isNullWord, sameWord, asciiLower, hne]
  literal := n.ofText_digits

end Numeral

/-! ### Quoted text -/

def quoted (s : List Char) : List Char := '\'' :: (s ++ ['\''])

theorem stands_quoted {s : List Char} (hs : '\'' ∉ s) : Stands (quoted s) (.text (String.ofList s)) where
  nonempty := List.cons_ne_nil _ _
  visible := by
    intro c hc
    cases hc
    decide
  token {u x} _ := by
    have hnone : ∀ c ∈ s, notQuote '\'' c = true := by
      intro c hc
      refine decide_eq_true ?_
      rintro rfl
      exact hs hc
    have h : Prefers (seq [char '\'', many (notQuote '\''), char '\'']) u ('\'' :: (s ++ ['\''])) x [] :=
      .seq_cons (v := ['\'']) (.char _) (.seq_cons (w := ['\'']) (.many hnone (by simp [notQuote])) (.seq_last (.char _)))
    exact .oneOf_head h
  unmarked := by
    refine dropEndWhile_eq_self fun c hc => ?_
    rw [quoted, ← List.cons_append, List.getLast?_concat] at hc
    cases hc
    decide
  not_null := by simp [isNullWord, sameWord, asciiLower, quoted]
  literal := Literal.ofText_single s

end Parlance.Sentence
