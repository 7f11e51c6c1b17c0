import Parlance.Proofs.Pattern.Name
import Parlance.Proofs.Text.Ending

/-! Plurals and singulars of words in lower case. The two tables of suffixes undo each other except on a few
endings: which ones is read off the letters that the suffixes share. -/

namespace Parlance

namespace Text

/-- ASCII characters, no capitals among them. -/
def IsLowerAscii (w : List Char) : Prop := ∀ c ∈ w, c.toNat < 128 ∧ c.toLower = c

instance (w : List Char) : Decidable (IsLowerAscii w) := inferInstanceAs (Decidable (∀ c ∈ w, _))

namespace IsLowerAscii

variable {v w : List Char}

theorem asciiLower_eq (h : IsLowerAscii w) : asciiLower w = w := by
  rw [asciiLower, List.map_congr_left fun c hc => (h c hc).2, List.map_id']

theorem lower_eq (h : IsLowerAscii w) : lower w = w := by
  rw [lower_ascii fun c hc => (h c hc).1, h.asciiLower_eq]

theorem size_eq (h : IsLowerAscii w) : size w = w.length := by
  induction w with
  | nil => rfl
  | cons c w ih =>
    obtain ⟨hc, hw⟩ := List.forall_mem_cons.mp h
    rw [size, utf8Size_of_ascii hc.1, ih hw, List.length_cons, Nat.add_comm]

theorem append (hv : IsLowerAscii v) (hw : IsLowerAscii w) : IsLowerAscii (v ++ w) :=
  List.forall_mem_append.mpr ⟨hv, hw⟩

theorem left (h : IsLowerAscii (v ++ w)) : IsLowerAscii v := (List.forall_mem_append.mp h).1

theorem take (h : IsLowerAscii w) (n : Nat) : IsLowerAscii (w.take n) := fun c hc => h c (List.mem_of_mem_take hc)

theorem pluralize (h : IsLowerAscii w) : IsLowerAscii (Inflection.pluralize w) := by
  simp only [Inflection.pluralize, Inflection.dropLast]
  split
  · exact (h.take _).append (by decide)
  · split
    · exact h.append (by decide)
    · exact h.append (by decide)

theorem singularize (h : IsLowerAscii w) : IsLowerAscii (Inflection.singularize w) := by
  simp only [Inflection.singularize, Inflection.dropLast]
  split
  · exact (h.take _).append (by decide)
  · split
    · exact h.take _
    · split
      · exact h.take _
      · exact h

end IsLowerAscii

end Text

namespace Inflection

open Text (IsLowerAscii)

variable {v w r : List Char} {s t : String} {ss ts : List String}

/-! ### Endings -/

theorem endsIn_iff : endsIn s w = true ↔ ∃ v, w = v ++ s.toList := by
  rw [endsIn, List.isSuffixOf_iff_suffix]
  constructor
  · rintro ⟨v, rfl⟩
    exact ⟨v, rfl⟩
  · rintro ⟨v, rfl⟩
    exact ⟨v, rfl⟩

theorem endsInAny_iff : endsInAny ss w = true ↔ ∃ s ∈ ss, ∃ v, w = v ++ s.toList := by
  simp only [endsInAny, List.any_eq_true, endsIn_iff]

/-- Behind `w` the letters `r` complete an ending of `w`. -/
theorem endsIn_append (h : s.toList = t.toList ++ r) (w : List Char) : endsIn s (w ++ r) = endsIn t w := by
  rw [Bool.eq_iff_iff, endsIn_iff, endsIn_iff]
  constructor
  · rintro ⟨v, hv⟩
    rw [h, ← List.append_assoc] at hv
    exact ⟨v, List.append_cancel_right hv⟩
  · rintro ⟨v, rfl⟩
    exact ⟨v, by rw [h, List.append_assoc]⟩

theorem endsInAny_append (h : ss.map String.toList = ts.map (·.toList ++ r)) (w : List Char) :
    endsInAny ss (w ++ r) = endsInAny ts w := by
  induction ss generalizing ts with
  | nil =>
    cases ts with
    | nil => rfl
    | cons t ts => cases h
  | cons s ss ih =>
    cases ts with
    | nil => cases h
    | cons t ts =>
      obtain ⟨hs, hss⟩ := List.cons.inj h
      have hrest := ih hss
      simp only [endsInAny, List.any_cons] at hrest ⊢
      rw [endsIn_append hs, hrest]

/-- Of two endings of a word one ends in the other. -/
theorem endsIn_eq_false (h : ¬s.toList <:+ r ∧ ¬r <:+ s.toList) (w : List Char) : endsIn s (w ++ r) = false := by
  rw [Bool.eq_false_iff]
  intro hs
  obtain ⟨v, hv⟩ := endsIn_iff.mp hs
  rcases List.suffix_or_suffix_of_suffix ⟨v, hv.symm⟩ (List.suffix_append w r) with hsuffix | hsuffix
  · exact h.1 hsuffix
  · exact h.2 hsuffix

theorem endsInAny_eq_false (h : ∀ s ∈ ss, ¬s.toList <:+ r ∧ ¬r <:+ s.toList) (w : List Char) :
    endsInAny ss (w ++ r) = false := by
  rw [endsInAny, List.any_eq_false]
  intro s hs
  rw [endsIn_eq_false (h s hs) w]
  exact Bool.false_ne_true

theorem endsIn_of_endsInAny (h : ∀ s ∈ ss, t.toList <:+ s.toList) (hw : endsInAny ss w = true) : endsIn t w = true := by
  obtain ⟨s, hs, v, rfl⟩ := endsInAny_iff.mp hw
  exact List.isSuffixOf_iff_suffix.mpr ((h s hs).trans (List.suffix_append v _))

theorem endsIn_append_self (v : List Char) (s : String) : endsIn s (v ++ s.toList) = true := endsIn_iff.mpr ⟨v, rfl⟩

def vowels : List String := ["a", "e", "i", "o", "u"]

theorem vowelBeforeLast_append (v : List Char) (c : Char) : vowelBeforeLast (v ++ [c]) = endsInAny vowels v := by
  have hbefore : vowelBeforeLast (v ++ [c]) = v.getLast?.any isVowel := by simp [vowelBeforeLast]
  rcases List.eq_nil_or_concat v with rfl | ⟨v, d, rfl⟩
  · rfl
  · have hlast {s : String} {e : Char} (hs : s.toList = [e]) : endsIn s (v.concat d) = decide (d = e) := by
      rw [Bool.eq_iff_iff, endsIn_iff, decide_eq_true_eq, hs, List.concat_eq_append]
      constructor
      · rintro ⟨u, hu⟩
        exact (List.cons.inj (List.append_inj_right' hu rfl)).1
      · rintro rfl
        exact ⟨v, rfl⟩
    have hvowels : endsInAny vowels (v.concat d) = isVowel d := by
      simp only [vowels, endsInAny, List.any_cons, List.any_nil, Bool.or_false, isVowel, Bool.or_assoc,
        hlast (show "a".toList = ['a'] from rfl), hlast (show "e".toList = ['e'] from rfl),
        hlast (show "i".toList = ['i'] from rfl), hlast (show "o".toList = ['o'] from rfl),
        hlast (show "u".toList = ['u'] from rfl)]
    rw [hbefore, hvowels, List.concat_eq_append, List.getLast?_concat, Option.any_some]

/-! ### Rules -/

def sibilants : List String := ["s", "x", "z", "ch", "sh"]

theorem dropLast_append (v u : List Char) : dropLast u.length (v ++ u) = v := by
  rw [dropLast, List.length_append, Nat.add_sub_cancel, List.take_left]

theorem pluralize_y (h : IsLowerAscii (v ++ "y".toList)) (hv : endsInAny vowels v = false) :
    pluralize (v ++ "y".toList) = v ++ "ies".toList := by
  have hvowel : vowelBeforeLast (v ++ "y".toList) = false := (vowelBeforeLast_append v 'y').trans hv
  have hrule : (endsIn "y" (v ++ "y".toList) && !vowelBeforeLast (v ++ "y".toList)) = true := by
    rw [endsIn_append_self, hvowel]
    rfl
  rw [pluralize, h.lower_eq, if_pos hrule]
  exact congrArg (· ++ "ies".toList) (dropLast_append v "y".toList)

theorem pluralize_sibilant (h : IsLowerAscii w) (hw : endsInAny sibilants w = true) : pluralize w = w ++ "es".toList := by
  have hy : endsIn "y" w = false := by
    obtain ⟨s, hs, v, rfl⟩ := endsInAny_iff.mp hw
    have hclash : ∀ s ∈ sibilants, ¬"y".toList <:+ s.toList ∧ ¬s.toList <:+ "y".toList := by decide
    exact endsIn_eq_false (hclash s hs) v
  rw [pluralize, h.lower_eq, hy, Bool.false_and, if_neg Bool.false_ne_true]
  exact if_pos hw

theorem pluralize_other (h : IsLowerAscii w) (hy : ∀ v, w = v ++ "y".toList → endsInAny vowels v = true)
    (hw : endsInAny sibilants w = false) : pluralize w = w ++ "s".toList := by
  have hrule : (endsIn "y" w && !vowelBeforeLast w) = false := by
    cases hend : endsIn "y" w with
    | false => rfl
    | true =>
      obtain ⟨v, rfl⟩ := endsIn_iff.mp hend
      have hvowel : vowelBeforeLast (v ++ "y".toList) = true := (vowelBeforeLast_append v 'y').trans (hy v rfl)
      rw [hvowel]
      rfl
  rw [pluralize, h.lower_eq, hrule, if_neg Bool.false_ne_true]
  exact if_neg (by rw [← sibilants, hw]; exact Bool.false_ne_true)

theorem pluralize_vowel_y (h : IsLowerAscii (v ++ "y".toList)) (hv : endsInAny vowels v = true) :
    pluralize (v ++ "y".toList) = v ++ "y".toList ++ "s".toList :=
  pluralize_other h (fun _ heq => List.append_cancel_right heq ▸ hv) (endsInAny_eq_false (by decide) v)

theorem singularize_ies (h : IsLowerAscii (v ++ "ies".toList)) (hv : v ≠ []) :
    singularize (v ++ "ies".toList) = v ++ "y".toList := by
  have hlong : 3 < Text.size (v ++ "ies".toList) := by
    have hpos := List.length_pos_iff.mpr hv
    have hthree : "ies".toList.length = 3 := rfl
    rw [h.size_eq, List.length_append]
    omega
  have hrule : (endsIn "ies" (v ++ "ies".toList) && decide (3 < Text.size (v ++ "ies".toList))) = true := by
    rw [endsIn_append_self, decide_eq_true hlong]
    rfl
  rw [singularize, h.lower_eq, if_pos hrule]
  exact congrArg (· ++ "y".toList) (dropLast_append v "ies".toList)

def sibilantPlurals : List String := ["ses", "xes", "zes", "ches", "shes"]

/-- A plural by "es" loses two letters. -/
theorem singularize_es (h : IsLowerAscii w) (hw : endsInAny sibilantPlurals w = true) : singularize w = dropLast 2 w := by
  have hies : endsIn "ies" w = false := by
    obtain ⟨s, hs, v, rfl⟩ := endsInAny_iff.mp hw
    have hclash : ∀ s ∈ sibilantPlurals, ¬"ies".toList <:+ s.toList ∧ ¬s.toList <:+ "ies".toList := by decide
    exact endsIn_eq_false (hclash s hs) v
  rw [singularize, h.lower_eq, hies, Bool.false_and, if_neg Bool.false_ne_true]
  exact if_pos hw

theorem singularize_sibilant (h : IsLowerAscii (w ++ "es".toList)) (hw : endsInAny sibilants w = true) :
    singularize (w ++ "es".toList) = w := by
  have hes : endsInAny sibilantPlurals (w ++ "es".toList) = true := (endsInAny_append rfl w).trans hw
  rw [singularize_es h hes]
  exact dropLast_append w "es".toList

theorem singularize_s (h : IsLowerAscii (w ++ "s".toList)) (hne : w ≠ []) (hs : endsIn "s" w = false)
    (hie : endsIn "ie" w = true → w = "ie".toList) (hes : endsInAny ["se", "xe", "ze", "che", "she"] w = false) :
    singularize (w ++ "s".toList) = w := by
  have hsize : Text.size (w ++ "s".toList) = w.length + 1 := by
    rw [h.size_eq, List.length_append]
    rfl
  have hies : (endsIn "ies" (w ++ "s".toList) && decide (3 < Text.size (w ++ "s".toList))) = false := by
    rw [endsIn_append (t := "ie") rfl, hsize]
    cases hend : endsIn "ie" w with
    | false => rfl
    | true =>
      rw [hie hend]
      rfl
  have hplural : endsInAny sibilantPlurals (w ++ "s".toList) = false := (endsInAny_append rfl w).trans hes
  have hstrip : (endsIn "s" (w ++ "s".toList) && !endsIn "ss" (w ++ "s".toList) &&
      decide (1 < Text.size (w ++ "s".toList))) = true := by
    have hpos := List.length_pos_iff.mpr hne
    rw [endsIn_append_self, endsIn_append (t := "s") rfl, hs, hsize, decide_eq_true (by omega)]
    rfl
  rw [singularize, h.lower_eq, hies, if_neg Bool.false_ne_true, ← sibilantPlurals, hplural, if_neg Bool.false_ne_true,
    if_pos hstrip]
  exact dropLast_append w "s".toList

/-- A word that does not end in a single letter s has no ending that does. -/
theorem endsInAny_eq_false_of_unstripped (hw : endsIn "s" w = true → endsIn "ss" w = true)
    (hss : ∀ s ∈ ss, "s".toList <:+ s.toList ∧ ¬s.toList <:+ "ss".toList ∧ ¬"ss".toList <:+ s.toList) :
    endsInAny ss w = false := by
  rw [Bool.eq_false_iff]
  intro hends
  obtain ⟨v, rfl⟩ := endsIn_iff.mp (hw (endsIn_of_endsInAny (fun s hs => (hss s hs).1) hends))
  rw [endsInAny_eq_false fun s hs => (hss s hs).2] at hends
  cases hends

theorem singularize_self (h : IsLowerAscii w) (hw : endsIn "s" w = true → endsIn "ss" w = true) : singularize w = w := by
  have hies : endsIn "ies" w = false := by
    have hany : endsInAny ["ies"] w = false := endsInAny_eq_false_of_unstripped hw (by decide)
    simpa only [endsInAny, List.any_cons, List.any_nil, Bool.or_false] using hany
  have hes : endsInAny sibilantPlurals w = false := endsInAny_eq_false_of_unstripped hw (by decide)
  have hstrip : (endsIn "s" w && !endsIn "ss" w) = false := by
    cases hs : endsIn "s" w with
    | false => rfl
    | true =>
      rw [hw hs]
      rfl
  rw [singularize, h.lower_eq, hies, Bool.false_and, if_neg Bool.false_ne_true, ← sibilantPlurals, hes,
    if_neg Bool.false_ne_true, hstrip, Bool.false_and, if_neg Bool.false_ne_true]

/-! ### What is read back -/

/-- Words whose plural is taken for the plural of another word. -/
def PluralMisread (w : List Char) : Prop :=
  w = "y".toList ∨ (endsIn "ie" w = true ∧ w ≠ "ie".toList) ∨ endsInAny ["se", "xe", "ze", "che", "she"] w = true

/-- Words that look like the plural of a word that has another one. -/
def SingularMisread (w : List Char) : Prop :=
  endsInAny ["aies", "eies", "iies", "oies", "uies"] w = true ∨ endsInAny ["xs", "zs", "chs", "shs"] w = true ∨
    (endsIn "ys" w = true ∧ endsInAny ["ays", "eys", "iys", "oys", "uys"] w = false)

instance (w : List Char) : Decidable (PluralMisread w) := inferInstanceAs (Decidable (_ ∨ _))

instance (w : List Char) : Decidable (SingularMisread w) := inferInstanceAs (Decidable (_ ∨ _))

/-- A word with another ending than those is misread only if it is the letter y. -/
theorem pluralMisread_iff_eq_y (hie : ¬"ie".toList <:+ r ∧ ¬r <:+ "ie".toList)
    (hes : ∀ s ∈ ["se", "xe", "ze", "che", "she"], ¬s.toList <:+ r ∧ ¬r <:+ s.toList) (v : List Char) :
    PluralMisread (v ++ r) ↔ v ++ r = "y".toList := by
  rw [PluralMisread, endsIn_eq_false hie, endsInAny_eq_false hes]
  simp only [Bool.false_eq_true, false_and, or_false]

theorem singularize_pluralize_y (h : IsLowerAscii (v ++ "y".toList)) :
    singularize (pluralize (v ++ "y".toList)) = v ++ "y".toList ↔ ¬PluralMisread (v ++ "y".toList) := by
  rw [pluralMisread_iff_eq_y (by decide) (by decide), List.append_left_eq_self]
  by_cases hnil : v = []
  · subst hnil
    decide
  · refine iff_of_true ?_ hnil
    have hlow := h.left
    cases hv : endsInAny vowels v with
    | false => rw [pluralize_y h hv, singularize_ies (hlow.append (by decide)) hnil]
    | true =>
      have hie : endsIn "ie" (v ++ "y".toList) = false := endsIn_eq_false (by decide) v
      rw [pluralize_vowel_y h hv]
      refine singularize_s (h.append (by decide)) ?_ (endsIn_eq_false (by decide) v) ?_ (endsInAny_eq_false (by decide) v)
      · exact List.append_ne_nil_of_left_ne_nil hnil _
      · rw [hie]
        exact fun h => nomatch h

theorem singularize_pluralize_sibilant (h : IsLowerAscii w) (hw : endsInAny sibilants w = true) :
    singularize (pluralize w) = w ↔ ¬PluralMisread w := by
  rw [pluralize_sibilant h hw]
  refine iff_of_true (singularize_sibilant (h.append (by decide)) hw) ?_
  obtain ⟨s, hs, v, rfl⟩ := endsInAny_iff.mp hw
  have hie : ∀ s ∈ sibilants, ¬"ie".toList <:+ s.toList ∧ ¬s.toList <:+ "ie".toList := by decide
  have hes : ∀ s ∈ sibilants, ∀ t ∈ ["se", "xe", "ze", "che", "she"], ¬t.toList <:+ s.toList ∧ ¬s.toList <:+ t.toList := by
    decide
  have hy : ∀ s ∈ sibilants, ¬s.toList <:+ "y".toList := by decide
  rw [pluralMisread_iff_eq_y (hie s hs) (hes s hs)]
  exact fun heq => hy s hs ⟨v, heq⟩

theorem singularize_pluralize_other (h : IsLowerAscii w) (hne : w ≠ []) (hy : endsIn "y" w = false)
    (hw : endsInAny sibilants w = false) : singularize (pluralize w) = w ↔ ¬PluralMisread w := by
  have hplural : pluralize w = w ++ "s".toList := by
    refine pluralize_other h (fun v hv => ?_) hw
    rw [hv, endsIn_append_self] at hy
    cases hy
  have hlow : IsLowerAscii (w ++ "s".toList) := h.append (by decide)
  have hshort (n : Nat) (hn : 1 < n) : dropLast n (w ++ "s".toList) ≠ w := by
    intro heq
    have hlength := congrArg List.length heq
    have hpos := List.length_pos_iff.mpr hne
    have hone : "s".toList.length = 1 := rfl
    rw [dropLast, List.length_take, List.length_append, hone] at hlength
    omega
  rw [hplural]
  cases hie : endsIn "ie" w with
  | true =>
    obtain ⟨v, rfl⟩ := endsIn_iff.mp hie
    by_cases hnil : v = []
    · subst hnil
      decide
    · -- The plural ends like one of a final y.
      have hies : v ++ "ie".toList ++ "s".toList = v ++ "ies".toList := by
        rw [List.append_assoc]
        rfl
      refine iff_of_false ?_ (not_not_intro (.inr (.inl ⟨hie, ?_⟩)))
      · rw [hies, singularize_ies (hies ▸ hlow) hnil]
        exact fun heq => absurd (List.append_cancel_left heq) (by decide)
      · exact fun heq => hnil (List.append_left_eq_self.mp heq)
  | false =>
    cases hes : endsInAny ["se", "xe", "ze", "che", "she"] w with
    | true =>
      have hends : endsInAny sibilantPlurals (w ++ "s".toList) = true := (endsInAny_append rfl w).trans hes
      rw [singularize_es hlow hends]
      exact iff_of_false (hshort 2 (by decide)) (not_not_intro (.inr (.inr hes)))
    | false =>
      have hs : endsIn "s" w = false := (List.any_eq_false.mp hw "s" (by decide) |> Bool.eq_false_iff.mpr)
      refine iff_of_true (singularize_s hlow hne hs (fun h => absurd h (by rw [hie]; exact Bool.false_ne_true)) hes) ?_
      rintro (rfl | ⟨hend, -⟩ | hend)
      · cases hy
      · rw [hie] at hend
        cases hend
      · rw [hes] at hend
        cases hend

theorem singularize_pluralize_iff (h : IsLowerAscii w) (hne : w ≠ []) :
    singularize (pluralize w) = w ↔ ¬PluralMisread w := by
  cases hy : endsIn "y" w with
  | true =>
    obtain ⟨v, rfl⟩ := endsIn_iff.mp hy
    exact singularize_pluralize_y h
  | false =>
    cases hw : endsInAny sibilants w with
    | true => exact singularize_pluralize_sibilant h hw
    | false => exact singularize_pluralize_other h hne hy hw

/-! ### The forms of a plural and of a singular -/

theorem length_lt_pluralize (w : List Char) : w.length < (pluralize w).length := by
  have hies : "ies".toList.length = 3 := rfl
  have hes : "es".toList.length = 2 := rfl
  have hs : "s".toList.length = 1 := rfl
  simp only [pluralize, dropLast]
  split
  · rw [List.length_append, List.length_take]
    omega
  · split <;> rw [List.length_append] <;> omega

theorem length_singularize (h : IsLowerAscii w) : singularize w = w ∨ (singularize w).length < w.length := by
  have hlong {s : String} (hs : endsIn s w = true) : s.toList.length ≤ w.length :=
    (List.isSuffixOf_iff_suffix.mp hs).length_le
  have hy : "y".toList.length = 1 := rfl
  simp only [singularize, h.lower_eq, dropLast]
  split
  · next hies =>
    have hthree : 3 ≤ w.length := hlong ((Bool.and_eq_true ..).mp hies).1
    right
    rw [List.length_append, List.length_take]
    omega
  · split
    · next hes =>
      have htwo : 2 ≤ w.length := hlong (endsIn_of_endsInAny (t := "es") (by decide) hes)
      right
      rw [List.length_take]
      omega
    · split
      · next hs =>
        simp only [Bool.and_eq_true] at hs
        have hone : 1 ≤ w.length := hlong hs.1.1
        right
        rw [List.length_take]
        omega
      · exact .inl rfl

theorem mem_candidates_pluralize_iff (h : IsLowerAscii w) (hne : w ≠ []) :
    w ∈ candidates (pluralize w) ↔ ¬PluralMisread w := by
  rw [← singularize_pluralize_iff h hne, mem_candidates_iff]
  simp only [List.mem_cons, List.not_mem_nil, or_false]
  have hplural := length_lt_pluralize w
  have hplurals := length_lt_pluralize (pluralize w)
  constructor
  · rintro (heq | heq | heq)
    · have hlength := congrArg List.length heq
      omega
    · have hlength := congrArg List.length heq
      omega
    · exact heq.symm
  · intro heq
    exact .inr (.inr heq.symm)

/-- Besides the word itself only the plural of its singular can be the word again. -/
theorem mem_candidates_singularize (h : IsLowerAscii w) :
    w ∈ candidates (singularize w) ↔ singularize w = w ∨ pluralize (singularize w) = w := by
  rw [mem_candidates_iff]
  simp only [List.mem_cons, List.not_mem_nil, or_false]
  constructor
  · rintro (heq | heq | heq)
    · exact .inl heq.symm
    · exact .inr heq.symm
    · refine .inl ((length_singularize h).resolve_right fun hlt => ?_)
      have hlength := congrArg List.length heq
      rcases length_singularize h.singularize with hsame | hshort
      · rw [hsame] at hlength
        omega
      · omega
  · rintro (heq | heq)
    · exact .inl heq.symm
    · exact .inr (.inl heq.symm)

theorem not_singularMisread {r : List Char}
    (hr : ∀ s ∈ ["aies", "eies", "iies", "oies", "uies", "xs", "zs", "chs", "shs", "ys"], ¬s.toList <:+ r ∧ ¬r <:+ s.toList)
    (v : List Char) : ¬SingularMisread (v ++ r) := by
  have hnone {ss : List String}
      (hss : ss ⊆ ["aies", "eies", "iies", "oies", "uies", "xs", "zs", "chs", "shs", "ys"]) : endsInAny ss (v ++ r) = false :=
    endsInAny_eq_false (fun s hs => hr s (hss hs)) v
  have hys : endsIn "ys" (v ++ r) = false := endsIn_eq_false (hr "ys" (by decide)) v
  rintro (h | h | ⟨h, -⟩)
  · rw [hnone (by decide)] at h
    cases h
  · rw [hnone (by decide)] at h
    cases h
  · rw [hys] at h
    cases h

theorem mem_candidates_singularize_ies (h : IsLowerAscii (v ++ "ies".toList)) (hv : v ≠ []) :
    v ++ "ies".toList ∈ candidates (singularize (v ++ "ies".toList)) ↔ ¬SingularMisread (v ++ "ies".toList) := by
  have hlow : IsLowerAscii (v ++ "y".toList) := h.left.append (by decide)
  have hmisread : SingularMisread (v ++ "ies".toList) ↔ endsInAny vowels v = true := by
    have hx : endsInAny ["xs", "zs", "chs", "shs"] (v ++ "ies".toList) = false := endsInAny_eq_false (by decide) v
    have hy : endsIn "ys" (v ++ "ies".toList) = false := endsIn_eq_false (by decide) v
    have hvowel : endsInAny ["aies", "eies", "iies", "oies", "uies"] (v ++ "ies".toList) = endsInAny vowels v :=
      endsInAny_append rfl v
    rw [SingularMisread, hx, hy, hvowel]
    simp only [Bool.false_eq_true, false_and, or_false]
  have hother : v ++ "y".toList ≠ v ++ "ies".toList := fun heq => absurd (List.append_cancel_left heq) (by decide)
  rw [mem_candidates_singularize h, hmisread, singularize_ies h hv, or_iff_right hother]
  cases hvowel : endsInAny vowels v with
  | false => exact iff_of_true (pluralize_y hlow hvowel) Bool.false_ne_true
  | true =>
    rw [pluralize_vowel_y hlow hvowel, List.append_assoc]
    exact iff_of_false (fun heq => absurd (List.append_cancel_left heq) (by decide)) (not_not_intro rfl)

theorem mem_candidates_singularize_es (h : IsLowerAscii w) (hw : endsInAny sibilantPlurals w = true) :
    w ∈ candidates (singularize w) ↔ ¬SingularMisread w := by
  refine iff_of_true ?_ ?_
  · obtain ⟨v, rfl⟩ := endsIn_iff.mp (endsIn_of_endsInAny (t := "es") (by decide) hw)
    have hv : endsInAny sibilants v = true := (endsInAny_append rfl v).symm.trans hw
    rw [mem_candidates_singularize h, singularize_sibilant h hv]
    exact .inr (pluralize_sibilant h.left hv)
  · obtain ⟨s, hs, v, rfl⟩ := endsInAny_iff.mp hw
    have hclash : ∀ s ∈ sibilantPlurals, ∀ t ∈ ["aies", "eies", "iies", "oies", "uies", "xs", "zs", "chs", "shs", "ys"],
        ¬t.toList <:+ s.toList ∧ ¬s.toList <:+ t.toList := by
      decide
    exact not_singularMisread (hclash s hs) v

theorem singularMisread_s_iff (hie : endsIn "ie" v = true → v = "ie".toList) : SingularMisread (v ++ "s".toList) ↔
    endsInAny ["x", "z", "ch", "sh"] v = true ∨
      (endsIn "y" v = true ∧ endsInAny ["ay", "ey", "iy", "oy", "uy"] v = false) := by
  have hvowel : endsInAny ["aies", "eies", "iies", "oies", "uies"] (v ++ "s".toList) = false := by
    have hshort : endsInAny ["aies", "eies", "iies", "oies", "uies"] (v ++ "s".toList) =
        endsInAny ["aie", "eie", "iie", "oie", "uie"] v := endsInAny_append rfl v
    rw [hshort, Bool.eq_false_iff]
    intro hends
    rw [hie (endsIn_of_endsInAny (by decide) hends)] at hends
    exact absurd hends (by decide)
  have hx : endsInAny ["xs", "zs", "chs", "shs"] (v ++ "s".toList) = endsInAny ["x", "z", "ch", "sh"] v :=
    endsInAny_append rfl v
  have hy : endsIn "ys" (v ++ "s".toList) = endsIn "y" v := endsIn_append rfl v
  have hay : endsInAny ["ays", "eys", "iys", "oys", "uys"] (v ++ "s".toList) =
      endsInAny ["ay", "ey", "iy", "oy", "uy"] v := endsInAny_append rfl v
  rw [SingularMisread, hvowel, hx, hy, hay]
  simp only [Bool.false_eq_true, false_or]

theorem pluralize_eq_append_s_iff (h : IsLowerAscii v) (hs : endsIn "s" v = false) : pluralize v = v ++ "s".toList ↔
    ¬(endsInAny ["x", "z", "ch", "sh"] v = true ∨
      (endsIn "y" v = true ∧ endsInAny ["ay", "ey", "iy", "oy", "uy"] v = false)) := by
  cases hy : endsIn "y" v with
  | true =>
    obtain ⟨u, rfl⟩ := endsIn_iff.mp hy
    have hx : endsInAny ["x", "z", "ch", "sh"] (u ++ "y".toList) = false := endsInAny_eq_false (by decide) u
    have hay : endsInAny ["ay", "ey", "iy", "oy", "uy"] (u ++ "y".toList) = endsInAny vowels u := endsInAny_append rfl u
    rw [hx, hay]
    cases hu : endsInAny vowels u with
    | false =>
      rw [pluralize_y h hu, List.append_assoc]
      exact iff_of_false (fun heq => absurd (List.append_cancel_left heq) (by decide)) (by simp)
    | true => exact iff_of_true (pluralize_vowel_y h hu) (by simp)
  | false =>
    have hsibilants : endsInAny sibilants v = endsInAny ["x", "z", "ch", "sh"] v := by
      rw [sibilants, endsInAny, List.any_cons, hs, Bool.false_or]
      rfl
    cases hx : endsInAny ["x", "z", "ch", "sh"] v with
    | true =>
      rw [pluralize_sibilant h (hsibilants.trans hx)]
      exact iff_of_false (fun heq => absurd (List.append_cancel_left heq) (by decide)) (by simp)
    | false =>
      refine iff_of_true (pluralize_other h (fun u hu => ?_) (hsibilants.trans hx)) (by simp)
      rw [hu, endsIn_append_self] at hy
      cases hy

/-- A letter s that can be taken off is put on again, unless the word takes another ending. -/
theorem mem_candidates_singularize_s (h : IsLowerAscii (v ++ "s".toList)) (hne : v ≠ []) (hs : endsIn "s" v = false)
    (hie : endsIn "ie" v = true → v = "ie".toList) (hes : endsInAny ["se", "xe", "ze", "che", "she"] v = false) :
    v ++ "s".toList ∈ candidates (singularize (v ++ "s".toList)) ↔ ¬SingularMisread (v ++ "s".toList) := by
  have hother : v ≠ v ++ "s".toList := fun heq => absurd (List.self_eq_append_right.mp heq) (by decide)
  rw [mem_candidates_singularize h, singularize_s h hne hs hie hes, or_iff_right hother, singularMisread_s_iff hie,
    pluralize_eq_append_s_iff h.left hs]

theorem mem_candidates_singularize_self (h : IsLowerAscii w) (hw : endsIn "s" w = true → endsIn "ss" w = true) :
    w ∈ candidates (singularize w) ↔ ¬SingularMisread w := by
  refine iff_of_true ((mem_candidates_singularize h).mpr (.inl (singularize_self h hw))) ?_
  have hnone {ss : List String}
      (hss : ∀ s ∈ ss, "s".toList <:+ s.toList ∧ ¬s.toList <:+ "ss".toList ∧ ¬"ss".toList <:+ s.toList) :
      endsInAny ss w = false := endsInAny_eq_false_of_unstripped hw hss
  have hys : endsInAny ["ys"] w = false := hnone (by decide)
  rintro (hends | hends | ⟨hends, -⟩)
  · rw [hnone (by decide)] at hends
    cases hends
  · rw [hnone (by decide)] at hends
    cases hends
  · rw [endsInAny, List.any_cons, hends] at hys
    cases hys

theorem mem_candidates_singularize_iff (h : IsLowerAscii w) : w ∈ candidates (singularize w) ↔ ¬SingularMisread w := by
  cases hs : endsIn "s" w with
  | false => exact mem_candidates_singularize_self h fun h => absurd h (by rw [hs]; exact Bool.false_ne_true)
  | true =>
    obtain ⟨v, rfl⟩ := endsIn_iff.mp hs
    by_cases hnil : v = []
    · subst hnil
      decide
    cases hss : endsIn "s" v with
    | true => exact mem_candidates_singularize_self h fun _ => (endsIn_append rfl v).trans hss
    | false =>
      cases hes : endsInAny ["se", "xe", "ze", "che", "she"] v with
      | true => exact mem_candidates_singularize_es h ((endsInAny_append rfl v).trans hes)
      | false =>
        by_cases hie : endsIn "ie" v = true ∧ v ≠ "ie".toList
        · obtain ⟨u, rfl⟩ := endsIn_iff.mp hie.1
          have hies : u ++ "ie".toList ++ "s".toList = u ++ "ies".toList := List.append_assoc ..
          rw [hies] at h ⊢
          exact mem_candidates_singularize_ies h fun hu => hie.2 (by rw [hu]; rfl)
        · exact mem_candidates_singularize_s h hnil hss (fun hend => Decidable.not_not.mp fun hne => hie ⟨hend, hne⟩) hes

end Inflection

end Parlance
