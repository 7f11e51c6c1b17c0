import Parlance.Proofs.Text.Ascii

/-! What is left of a text when the case of its ASCII letters does not count. Cutting and searching a text by
caseless classes gives the same from the text in lower case, in lower case; full lower case does not see
the difference. -/

namespace Parlance.Text

variable {p : Char → Bool}

/-! ### Characters -/

@[simp] theorem utf8Size_toLower (c : Char) : c.toLower.utf8Size = c.utf8Size := by
  by_cases hc : c.toNat < 128
  · exact forall_ascii (P := fun c => c.toLower.utf8Size = c.utf8Size) (by decide) hc
  · rw [toLower_of_not_ascii (by omega)]

@[simp] theorem toLower_toLower (c : Char) : c.toLower.toLower = c.toLower := by
  by_cases hc : c.toNat < 128
  · exact forall_ascii (P := fun c => c.toLower.toLower = c.toLower) (by decide) hc
  · have h := toLower_of_not_ascii (c := c) (by omega)
    rw [h, h]

theorem isAlpha_toLower (c : Char) : c.toLower.isAlpha = c.isAlpha :=
  caseless_of_ascii (p := Char.isAlpha) (by decide) c

theorem toLower_of_not_isAlpha {c : Char} (h : c.isAlpha = false) : c.toLower = c := by
  by_cases hc : c.toNat < 128
  · exact forall_ascii (P := fun c => c.isAlpha = false → c.toLower = c) (by decide) hc h
  · exact toLower_of_not_ascii (by omega)

theorem toLower_eq_iff {c : Char} (hc : c.isAlpha = false) (d : Char) : d.toLower = c ↔ d = c := by
  constructor
  · rintro rfl
    rw [isAlpha_toLower] at hc
    exact (toLower_of_not_isAlpha hc).symm
  · rintro rfl
    exact toLower_of_not_isAlpha hc

theorem caseless_of_isAlpha {b : Bool} (h : ∀ c, c.isAlpha = true → p c = b) : Caseless p := by
  intro c
  cases hc : c.isAlpha with
  | true => rw [h c hc, h c.toLower (isAlpha_toLower c ▸ hc)]
  | false => rw [toLower_of_not_isAlpha hc]

theorem toNat_of_isAlpha {c : Char} (h : c.isAlpha = true) :
    65 ≤ c.toNat ∧ c.toNat ≤ 90 ∨ 97 ≤ c.toNat ∧ c.toNat ≤ 122 :=
  forall_ascii (P := fun c => c.isAlpha = true → 65 ≤ c.toNat ∧ c.toNat ≤ 90 ∨ 97 ≤ c.toNat ∧ c.toNat ≤ 122)
    (by decide) (ascii_of_isAlpha h) h

/-- Ranges without ASCII letters. -/
def Ranges.Clear (r : Ranges) : Prop := ∀ q ∈ r, q.2 < 65 ∨ 90 < q.1 ∧ q.2 < 97 ∨ 122 < q.1

theorem Ranges.Clear.not_holds {r : Ranges} (hr : r.Clear) {c : Char} (hc : c.isAlpha = true) :
    r.holds c.toNat = false := by
  rw [Bool.eq_false_iff]
  intro h
  obtain ⟨q, hq, hlow, hhigh⟩ := holds_iff.mp h
  have hclear := hr q hq
  have hletter := toNat_of_isAlpha hc
  omega

theorem caseless_isBlank : Caseless isBlank := caseless_of_ascii (by decide)
theorem caseless_isWord : Caseless isWord := caseless_of_ascii (by decide)
theorem caseless_isAsciiDigit : Caseless isAsciiDigit := caseless_of_ascii (by decide)

theorem clear_digitRanges : digitRanges.Clear := by
  simp only [Ranges.Clear]
  decide +kernel

theorem clear_caseIgnorableRanges : caseIgnorableRanges.Clear := by
  simp only [Ranges.Clear]
  decide +kernel

theorem isDigit_of_isAlpha {c : Char} (hc : c.isAlpha = true) : isDigit c = false := by
  rw [isDigit, clear_digitRanges.not_holds hc, Bool.or_false]
  exact forall_ascii (P := fun c => c.isAlpha = true → isAsciiDigit c = false) (by decide)
    (ascii_of_isAlpha hc) hc

theorem caseless_isDigit : Caseless isDigit := caseless_of_isAlpha fun _ => isDigit_of_isAlpha

theorem toLower_of_isDigit {c : Char} (h : isDigit c = true) : c.toLower = c := by
  apply toLower_of_not_isAlpha
  rw [Bool.eq_false_iff]
  intro hc
  rw [isDigit_of_isAlpha hc] at h
  cases h

theorem caseless_isCaseIgnorable : Caseless isCaseIgnorable :=
  caseless_of_isAlpha fun _ hc => clear_caseIgnorableRanges.not_holds hc

theorem caseless_isCased : Caseless isCased := by
  refine caseless_of_isAlpha (b := true) fun c hc => Ranges.holds_iff.mpr ?_
  rcases toNat_of_isAlpha hc with h | h
  · exact ⟨(0x41, 0x5a), by decide, h⟩
  · exact ⟨(0x61, 0x7a), by decide, h⟩

/-! ### Texts -/

@[simp] theorem asciiLower_nil : asciiLower [] = [] := rfl

@[simp] theorem asciiLower_cons (c : Char) (cs : List Char) :
    asciiLower (c :: cs) = c.toLower :: asciiLower cs := rfl

@[simp] theorem asciiLower_append (u v : List Char) : asciiLower (u ++ v) = asciiLower u ++ asciiLower v :=
  List.map_append

@[simp] theorem asciiLower_asciiLower (cs : List Char) : asciiLower (asciiLower cs) = asciiLower cs := by
  simp [asciiLower, Function.comp_def]

@[simp] theorem length_asciiLower (cs : List Char) : (asciiLower cs).length = cs.length :=
  List.length_map _

@[simp] theorem isEmpty_asciiLower (cs : List Char) : (asciiLower cs).isEmpty = cs.isEmpty :=
  List.isEmpty_map

theorem reverse_asciiLower (cs : List Char) : (asciiLower cs).reverse = asciiLower cs.reverse :=
  List.map_reverse.symm

@[simp] theorem size_asciiLower (cs : List Char) : size (asciiLower cs) = size cs := by
  induction cs with
  | nil => rfl
  | cons c cs ih => simp [size, ih]

@[simp] theorem takeTo_asciiLower (n : Nat) (cs : List Char) :
    takeTo n (asciiLower cs) = asciiLower (takeTo n cs) := by
  induction cs generalizing n with
  | nil => cases n <;> rfl
  | cons c cs ih => cases n <;> simp [takeTo, ih]

@[simp] theorem dropTo_asciiLower (n : Nat) (cs : List Char) :
    dropTo n (asciiLower cs) = asciiLower (dropTo n cs) := by
  induction cs generalizing n with
  | nil => cases n <;> rfl
  | cons c cs ih => cases n <;> simp [dropTo, ih]

@[simp] theorem blankOut_asciiLower (s : Span) (cs : List Char) :
    blankOut s (asciiLower cs) = asciiLower (blankOut s cs) := by
  have hspace : (' ' : Char).toLower = ' ' := by decide
  simp only [blankOut, takeTo_asciiLower, dropTo_asciiLower, asciiLower_append]
  simp [asciiLower, hspace]

theorem all_asciiLower (hp : Caseless p) (cs : List Char) : (asciiLower cs).all p = cs.all p := by
  simp only [asciiLower, List.all_map, Function.comp_def, hp _]

theorem dropWhile_asciiLower (hp : Caseless p) (cs : List Char) :
    (asciiLower cs).dropWhile p = asciiLower (cs.dropWhile p) := by
  simp only [asciiLower, List.dropWhile_map, Function.comp_def, hp _]

theorem dropEndWhile_asciiLower (hp : Caseless p) (cs : List Char) :
    dropEndWhile p (asciiLower cs) = asciiLower (dropEndWhile p cs) := by
  rw [dropEndWhile, dropEndWhile, reverse_asciiLower, dropWhile_asciiLower hp, reverse_asciiLower]

@[simp] theorem trim_asciiLower (cs : List Char) : trim (asciiLower cs) = asciiLower (trim cs) := by
  rw [trim, trim, trimStart, trimStart, trimEnd, trimEnd, dropWhile_asciiLower caseless_isBlank,
    dropEndWhile_asciiLower caseless_isBlank]

@[simp] theorem squeeze_asciiLower (cs : List Char) : squeeze (asciiLower cs) = asciiLower (squeeze cs) := by
  have hspace : (' ' : Char).toLower = ' ' := by decide
  induction cs with
  | nil => rfl
  | cons c cs ih =>
    rw [asciiLower_cons]
    cases cs with
    | nil =>
      simp only [asciiLower_nil, squeeze, caseless_isBlank c]
      split <;> simp [hspace]
    | cons d ds =>
      rw [asciiLower_cons] at ih ⊢
      rw [squeeze, squeeze, caseless_isBlank c, caseless_isBlank d, ih]
      split
      · split <;> simp [hspace]
      · simp

theorem pieces_asciiLower {sep : Char → Bool} (hsep : Caseless sep) (cs : List Char) :
    pieces sep (asciiLower cs) = (pieces sep cs).map asciiLower := by
  induction cs with
  | nil => rfl
  | cons c cs ih =>
    rw [asciiLower_cons, pieces, pieces, ih]
    cases pieces sep cs with
    | nil => rfl
    | cons q qs =>
      simp only [List.map_cons, hsep c]
      split <;> simp

@[simp] theorem words_asciiLower (cs : List Char) : words (asciiLower cs) = (words cs).map asciiLower := by
  simp only [words, pieces_asciiLower caseless_isBlank, List.filter_map, Function.comp_def,
    isEmpty_asciiLower]

theorem asciiLower_eq_self (hp : ∀ c, p c = true → c.toLower = c) {cs : List Char}
    (h : ∀ c ∈ cs, p c = true) : asciiLower cs = cs := by
  rw [asciiLower, List.map_congr_left fun c hc => hp c (h c hc), List.map_id']

theorem sameWord_iff {a b : List Char} : sameWord a b = true ↔ asciiLower a = asciiLower b := by
  rw [sameWord, beq_iff_eq]

@[simp] theorem sameWord_asciiLower_left (a b : List Char) : sameWord (asciiLower a) b = sameWord a b := by
  simp [sameWord]

@[simp] theorem sameWord_asciiLower_right (a b : List Char) : sameWord a (asciiLower b) = sameWord a b := by
  simp [sameWord]

/-- A word without letters is found where it was. -/
theorem isPrefixOf_asciiLower {w : List Char} (hw : ∀ c ∈ w, c.isAlpha = false) (cs : List Char) :
    w.isPrefixOf (asciiLower cs) = w.isPrefixOf cs := by
  induction w generalizing cs with
  | nil => simp
  | cons d w ih =>
    obtain ⟨hd, hw⟩ := List.forall_mem_cons.mp hw
    cases cs with
    | nil => rfl
    | cons c cs =>
      have hsame : (d == c.toLower) = (d == c) := by
        rw [Bool.eq_iff_iff, beq_iff_eq, beq_iff_eq, eq_comm, toLower_eq_iff hd, eq_comm]
      rw [asciiLower_cons, List.isPrefixOf, List.isPrefixOf, hsame, ih hw]

theorem withoutStart?_asciiLower {w : List Char} (hw : ∀ c ∈ w, c.isAlpha = false) (cs : List Char) :
    withoutStart? w (asciiLower cs) = (withoutStart? w cs).map asciiLower := by
  rw [withoutStart?, withoutStart?, isPrefixOf_asciiLower hw]
  split
  · simp only [asciiLower, Option.map_some, List.map_drop]
  · rfl

theorem withoutEnd?_asciiLower {w : List Char} (hw : ∀ c ∈ w, c.isAlpha = false) (cs : List Char) :
    withoutEnd? w (asciiLower cs) = (withoutEnd? w cs).map asciiLower := by
  have hsuffix : w.isSuffixOf (asciiLower cs) = w.isSuffixOf cs := by
    rw [List.isSuffixOf, List.isSuffixOf, reverse_asciiLower]
    exact isPrefixOf_asciiLower (by simpa using hw) cs.reverse
  rw [withoutEnd?, withoutEnd?, hsuffix, length_asciiLower]
  split
  · simp only [asciiLower, Option.map_some, List.map_take]
  · rfl

/-! ### Full lower case -/

theorem toLower_eq_capitalSigma (c : Char) : c.toLower = capitalSigma ↔ c = capitalSigma :=
  toLower_eq_iff (by decide) c

@[simp] theorem lowerChar_toLower (c : Char) : lowerChar c.toLower = lowerChar c := by
  by_cases hc : c.toNat < 128
  · simp [lowerChar, hc, ascii_toLower hc]
  · rw [toLower_of_not_ascii (by omega)]

@[simp] theorem nextIsCased_asciiLower (cs : List Char) : nextIsCased (asciiLower cs) = nextIsCased cs := by
  rw [nextIsCased, nextIsCased, dropWhile_asciiLower caseless_isCaseIgnorable, asciiLower, List.head?_map,
    Option.any_map]
  congr 1
  exact funext caseless_isCased

theorem lowerAfter_asciiLower (before cs : List Char) :
    lowerAfter (asciiLower before) (asciiLower cs) = lowerAfter before cs := by
  induction cs generalizing before with
  | nil => rfl
  | cons c cs ih =>
    have hrest := ih (c :: before)
    rw [asciiLower_cons] at hrest
    simp only [asciiLower_cons, lowerAfter, toLower_eq_capitalSigma, nextIsCased_asciiLower,
      lowerChar_toLower, hrest]

@[simp] theorem lower_asciiLower (cs : List Char) : lower (asciiLower cs) = lower cs :=
  lowerAfter_asciiLower [] cs

/-! ### Strings -/

/-- A string with its ASCII letters in lower case. -/
def lowered (s : String) : String := String.ofList (asciiLower s.toList)

@[simp] theorem toList_lowered (s : String) : (lowered s).toList = asciiLower s.toList :=
  String.toList_ofList

@[simp] theorem lowered_ofList (cs : List Char) : lowered (String.ofList cs) = String.ofList (asciiLower cs) := by
  rw [lowered, String.toList_ofList]

theorem lowered_eq_iff {a b : String} : lowered a = lowered b ↔ sameWord a.toList b.toList = true := by
  rw [lowered, lowered, String.ofList_inj, sameWord_iff]

end Parlance.Text
