import Parlance.Proofs.Text.Ascii

/-! Endings of a word in lower case. Only a character of one byte has an ASCII letter at the end of its lower case,
the kelvin sign apart; so where the lower case of a word ends in such letters, the word ends in as many bytes. -/

namespace Parlance.Text

/-- A letter of one byte that is the lower case of letters of one byte only. -/
def isPlain (c : Char) : Bool := c.isLower && c ≠ 'k'

variable {c d : Char} {before cs t : List Char}

theorem isPlain_of_ascii (hd : isPlain d = true) : d.toNat < 128 := by
  simp only [isPlain, Bool.and_eq_true] at hd
  exact ascii_of_isLower hd.1

theorem utf8Size_of_ascii (hc : c.toNat < 128) : c.utf8Size = 1 :=
  forall_ascii (P := fun c => c.utf8Size = 1) (by decide) hc

/-- Rows move to characters that are not ASCII; one row moves the kelvin sign to its letter. -/
theorem lowerRows_apply : ∀ r ∈ lowerRows, 128 ≤ (r.first : Int) + r.shift ∨
    (r.first = r.last ∧ (r.first : Int) + r.shift = 107) := by
  decide +kernel

theorem not_isPlain_ofNat {n : Nat} (h : 128 ≤ n ∨ n = 107) : isPlain (Char.ofNat n) = false := by
  rcases h with h | rfl
  · by_cases hv : n.isValidChar
    · have hn : (Char.ofNat n).toNat = n := by
        rw [Char.ofNat, dif_pos hv]
        rfl
      rw [Bool.eq_false_iff]
      intro hp
      have hlt := isPlain_of_ascii hp
      omega
    · have hzero : Char.ofNat n = Char.ofNat 0 := by
        rw [Char.ofNat, dif_neg hv]
        rfl
      rw [hzero]
      rfl
  · rfl

theorem not_isPlain_shiftCase (hc : 128 ≤ c.toNat) : isPlain (shiftCase lowerRows c) = false := by
  unfold shiftCase
  split
  · next r hr =>
    have hcovers := List.find?_some hr
    simp only [CaseRow.covers, Bool.and_eq_true, decide_eq_true_eq] at hcovers
    refine not_isPlain_ofNat ?_
    rw [CaseRow.apply]
    rcases lowerRows_apply r (List.mem_of_find?_eq_some hr) with h | ⟨hsame, h⟩
    · left
      omega
    · right
      omega
  · rw [Bool.eq_false_iff]
    intro hp
    have hlt := isPlain_of_ascii hp
    omega

/-- What a character becomes in lower case, final or not. -/
def lowerPiece (before : List Char) (c : Char) (rest : List Char) : List Char :=
  if c = capitalSigma then if nextIsCased before && !nextIsCased rest then ['ς'] else ['σ'] else lowerChar c

theorem lowerAfter_cons (before : List Char) (c : Char) (rest : List Char) :
    lowerAfter before (c :: rest) = lowerPiece before c rest ++ lowerAfter (c :: before) rest := rfl

theorem lowerPiece_spec (before : List Char) (c : Char) (rest : List Char) :
    ∃ u d, lowerPiece before c rest = u ++ [d] ∧ (isPlain d = true → c.toNat < 128 ∧ u = []) := by
  have hnone {u : List Char} {d : Char} (hd : isPlain d = false) : isPlain d = true → c.toNat < 128 ∧ u = [] := by
    rw [hd]
    exact fun h => nomatch h
  unfold lowerPiece
  split
  · split
    · exact ⟨[], 'ς', rfl, hnone (by decide)⟩
    · exact ⟨[], 'σ', rfl, hnone (by decide)⟩
  · unfold lowerChar
    split
    · next hc => exact ⟨[], c.toLower, rfl, fun _ => ⟨hc, rfl⟩⟩
    · next hc =>
      split
      · exact ⟨['i'], Char.ofNat 0x307, rfl, hnone (by decide)⟩
      · exact ⟨[], shiftCase lowerRows c, rfl, hnone (not_isPlain_shiftCase (Nat.le_of_not_lt hc))⟩

/-- Of what becomes of one character, one plain letter at most is at the end. -/
theorem lowerPiece_plain {rest p y : List Char} (h : lowerPiece before c rest = p ++ y) (hne : y ≠ [])
    (hy : ∀ d ∈ y, isPlain d = true) : c.toNat < 128 ∧ y.length = 1 := by
  obtain ⟨u, d, hpiece, hd⟩ := lowerPiece_spec before c rest
  obtain ⟨e, y, rfl⟩ := List.exists_cons_of_ne_nil hne
  have hends := hpiece.symm.trans h
  have hlast := congrArg List.getLast? hends
  rw [List.getLast?_concat, List.getLast?_append, List.getLast?_cons, Option.some_or] at hlast
  obtain ⟨hc, rfl⟩ := hd (hy d (List.mem_of_getLast? (List.getLast?_cons.trans hlast.symm)))
  have hlength := congrArg List.length hends
  simp only [List.nil_append, List.length_append, List.length_cons, List.length_nil] at hlength
  exact ⟨hc, by rw [List.length_cons]; omega⟩

theorem length_le_lowerAfter (before cs : List Char) : cs.length ≤ (lowerAfter before cs).length := by
  induction cs generalizing before with
  | nil => exact Nat.zero_le _
  | cons c cs ih =>
    obtain ⟨u, d, hpiece, -⟩ := lowerPiece_spec before c cs
    have hrest := ih (c :: before)
    rw [lowerAfter_cons, hpiece]
    simp only [List.length_append, List.length_cons, List.length_nil]
    omega

/-- Plain letters at the end of the lower case stand for as many bytes at the end of the text. -/
theorem exists_ending (ht : ∀ d ∈ t, isPlain d = true) (h : t <:+ lowerAfter before cs) :
    ∃ v z, cs = v ++ z ∧ z.length = t.length ∧ size z = t.length := by
  induction cs generalizing before t with
  | nil =>
    have hnil : t = [] := List.suffix_nil.mp h
    subst hnil
    exact ⟨[], [], rfl, rfl, rfl⟩
  | cons c cs ih =>
    rw [lowerAfter_cons] at h
    obtain ⟨p, hp⟩ := h
    rcases List.append_eq_append_iff.mp hp with ⟨y, hy, rfl⟩ | ⟨y, -, hy⟩
    · obtain ⟨hplain, hrest⟩ := List.forall_mem_append.mp ht
      obtain ⟨v, z, rfl, hlength, hsize⟩ := ih hrest List.suffix_rfl
      by_cases hnil : y = []
      · subst hnil
        exact ⟨c :: v, z, rfl, hlength, hsize⟩
      · obtain ⟨hc, hone⟩ := lowerPiece_plain hy hnil hplain
        -- The rest is plain from its first character on, so that each stands for one byte.
        have hall := length_le_lowerAfter (c :: before) (v ++ z)
        rw [List.length_append] at hall
        have hv : v = [] := List.length_eq_zero_iff.mp (by omega)
        subst hv
        refine ⟨[], c :: z, rfl, ?_, ?_⟩
        · rw [List.length_append, List.length_cons, hone, hlength, Nat.add_comm]
        · rw [List.length_append, hone, size, utf8Size_of_ascii hc, hsize]
    · obtain ⟨v, z, rfl, hz⟩ := ih ht ⟨y, hy.symm⟩
      exact ⟨c :: v, z, rfl, hz⟩

end Parlance.Text
