import Parlance.Text.Basic

/-! Classes of characters are looked at where they hold ASCII characters, of which there are 128. A class is
caseless if it has both cases of a letter or neither. -/

namespace Parlance.Text

-- Ahead of any instance that would go through all characters there are.
instance decidableForallMem (p : Char → Prop) [DecidablePred p] (cs : List Char) :
    Decidable (∀ c ∈ cs, p c) := List.decidableBAll p cs

theorem ne_of_holds {p : Char → Bool} {c d : Char} (h : p c = true) (hd : p d = false) : c ≠ d := by
  rintro rfl
  rw [h] at hd
  cases hd

theorem forall_ascii {P : Char → Prop} (h : ∀ n < 128, P (Char.ofNat n)) {c : Char}
    (hc : c.toNat < 128) : P c := by
  have hp := h c.toNat hc
  rwa [Char.ofNat_toNat] at hp

theorem toLower_of_not_ascii {c : Char} (h : 128 ≤ c.toNat) : c.toLower = c := by
  unfold Char.toLower
  split
  · next hc =>
    have hz : c.toNat ≤ 90 := hc.2
    omega
  · rfl

theorem ascii_toLower {c : Char} (hc : c.toNat < 128) : c.toLower.toNat < 128 :=
  forall_ascii (P := fun c => c.toLower.toNat < 128) (by decide) hc

theorem ascii_of_isUpper {c : Char} (h : c.isUpper = true) : c.toNat < 128 := by
  have hz : c.toNat ≤ 90 := (of_decide_eq_true h).2
  omega

theorem ascii_of_isLower {c : Char} (h : c.isLower = true) : c.toNat < 128 := by
  have hz : c.toNat ≤ 122 := of_decide_eq_true ((Bool.and_eq_true ..).mp h).2
  omega

theorem ascii_of_isAlpha {c : Char} (h : c.isAlpha = true) : c.toNat < 128 := by
  rcases (Bool.or_eq_true ..).mp h with h | h
  · exact ascii_of_isUpper h
  · exact ascii_of_isLower h

theorem ascii_of_isAsciiDigit {c : Char} (h : isAsciiDigit c = true) : c.toNat < 128 := by
  have hz : c.toNat ≤ 57 := of_decide_eq_true ((Bool.and_eq_true ..).mp h).2
  omega

theorem blank_disjoint_word : ∀ p ∈ blankRanges, ∀ q ∈ wordRanges, p.2 < q.1 ∨ q.2 < p.1 := by
  decide +kernel

theorem isWord_of_isBlank {c : Char} (h : isBlank c = true) : isWord c = false := by
  rw [Bool.eq_false_iff]
  intro hw
  by_cases hc : c.toNat < 128
  · exact forall_ascii (P := fun c => isBlank c = true → isWord c = true → False)
      (by decide) hc h hw
  · rw [isWord, if_neg hc] at hw
    obtain ⟨p, hp, hpl, hpr⟩ := Ranges.holds_iff.mp h
    obtain ⟨q, hq, hql, hqr⟩ := Ranges.holds_iff.mp hw
    rcases blank_disjoint_word p hp q hq with hd | hd <;> omega

def Caseless (p : Char → Bool) : Prop := ∀ c, p c.toLower = p c

/-- Only ASCII letters have to be looked at. -/
theorem caseless_of_ascii {p : Char → Bool} (h : ∀ n < 128, p (Char.ofNat n).toLower = p (Char.ofNat n)) :
    Caseless p := by
  intro c
  by_cases hc : c.toNat < 128
  · exact forall_ascii (P := fun c => p c.toLower = p c) h hc
  · rw [toLower_of_not_ascii (by omega)]

end Parlance.Text
