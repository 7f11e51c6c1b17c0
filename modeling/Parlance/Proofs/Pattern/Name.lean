import Parlance.Proofs.Once
import Parlance.Proofs.Pattern.Language
import Parlance.Proofs.Text.Ascii
import Parlance.Schema

/-! Names: a letter or an underscore, and then letters, underscores and digits. A word stays a
name when its case is changed, when it is put into the plural or singular, and when it is
exchanged for a word of the same letters. -/

namespace Parlance

namespace Inflection

theorem mem_candidates_iff {w form : List Char} :
    form ∈ candidates w ↔ form ∈ [w, pluralize w, singularize w] := by
  rw [candidates, addsOnce_addForm.mem_iff, List.mem_singleton, List.mem_cons (l := [pluralize w, singularize w])]

end Inflection

namespace Pattern

open Text (forall_ascii)

/-- Beyond ASCII a name holds only the long s and the kelvin sign. -/
theorem isNameChar_cases {c : Char} (h : isNameChar c = true) :
    c.toNat < 128 ∨ c = Char.ofNat 0x17f ∨ c = Char.ofNat 0x212a := by
  simp only [isNameChar, isNameStart, Bool.or_eq_true, decide_eq_true_eq] at h
  rcases h with (((h | rfl) | h) | h) | h
  · exact .inl (Text.ascii_of_isAlpha h)
  · left
    decide
  · exact .inr (.inl (by rw [← h, Char.ofNat_toNat]))
  · exact .inr (.inr (by rw [← h, Char.ofNat_toNat]))
  · exact .inl (Text.ascii_of_isAsciiDigit h)

theorem isWord_of_isNameChar {c : Char} (h : isNameChar c = true) : Text.isWord c = true := by
  rcases isNameChar_cases h with hc | rfl | rfl
  · exact forall_ascii (P := fun c => isNameChar c = true → Text.isWord c = true) (by decide) hc h
  · decide
  · decide +kernel

theorem isBlank_of_isNameChar {c : Char} (h : isNameChar c = true) : Text.isBlank c = false := by
  cases hb : Text.isBlank c with
  | false => rfl
  | true =>
    have hw := isWord_of_isNameChar h
    rw [Text.isWord_of_isBlank hb] at hw
    cases hw

theorem isNameChar_of_isNameStart {c : Char} (h : isNameStart c = true) : isNameChar c = true := by
  simp [isNameChar, h]

theorem isNameChar_of_isBlank {c : Char} (h : Text.isBlank c = true) : isNameChar c = false := by
  cases hn : isNameChar c with
  | false => rfl
  | true =>
    rw [isBlank_of_isNameChar hn] at h
    cases h

theorem isNameChar_toLower (c : Char) : isNameChar c.toLower = isNameChar c :=
  Text.caseless_of_ascii (p := isNameChar) (by decide) c

theorem isNameStart_toLower (c : Char) : isNameStart c.toLower = isNameStart c :=
  Text.caseless_of_ascii (p := isNameStart) (by decide) c

def IsName (w : List Char) : Prop :=
  ∃ c cs, w = c :: cs ∧ isNameStart c = true ∧ ∀ d ∈ cs, isNameChar d = true

theorem spells_name {w : List Char} (h : name.Spells w) : IsName w := by
  cases h with
  | both hu hv =>
    cases hu with
    | one hc =>
      cases hv with
      | many hcs => exact ⟨_, _, rfl, hc, hcs⟩

namespace IsName

variable {w : List Char}

theorem isNameChar (h : IsName w) : ∀ c ∈ w, isNameChar c = true := by
  obtain ⟨c, cs, rfl, hc, hcs⟩ := h
  intro d hd
  rcases List.mem_cons.mp hd with rfl | hd
  · exact isNameChar_of_isNameStart hc
  · exact hcs d hd

theorem ne_nil (h : IsName w) : w ≠ [] := by
  obtain ⟨c, cs, rfl, -⟩ := h
  exact List.cons_ne_nil c cs

theorem isWord (h : IsName w) : ∀ c ∈ w, Text.isWord c = true :=
  fun c hc => isWord_of_isNameChar (h.isNameChar c hc)

theorem append (h : IsName w) {v : List Char} (hv : ∀ c ∈ v, Pattern.isNameChar c = true) :
    IsName (w ++ v) := by
  obtain ⟨c, cs, rfl, hc, hcs⟩ := h
  refine ⟨c, cs ++ v, rfl, hc, fun d hd => ?_⟩
  rcases List.mem_append.mp hd with hd | hd
  · exact hcs d hd
  · exact hv d hd

theorem take (h : IsName w) {n : Nat} (hn : 0 < n) : IsName (w.take n) := by
  obtain ⟨c, cs, rfl, hc, hcs⟩ := h
  obtain ⟨m, rfl⟩ : ∃ m, n = m + 1 := ⟨n - 1, by omega⟩
  exact ⟨c, cs.take m, rfl, hc, fun d hd => hcs d (List.mem_of_mem_take hd)⟩

theorem of_sameWord (h : IsName w) {v : List Char} (hv : Text.sameWord v w = true) : IsName v := by
  obtain ⟨c, cs, rfl, hc, hcs⟩ := h
  simp only [Text.sameWord, Text.asciiLower, beq_iff_eq] at hv
  cases v with
  | nil => simp at hv
  | cons d ds =>
    rw [List.map_cons, List.map_cons, List.cons.injEq] at hv
    refine ⟨d, ds, rfl, ?_, fun e he => ?_⟩
    · rw [← isNameStart_toLower, hv.1, isNameStart_toLower, hc]
    · have hm : e.toLower ∈ cs.map Char.toLower := hv.2 ▸ List.mem_map_of_mem he
      obtain ⟨f, hf, hfe⟩ := List.mem_map.mp hm
      rw [← isNameChar_toLower, ← hfe, isNameChar_toLower, hcs f hf]

end IsName

/-- The long s is in lower case, and the kelvin sign becomes a letter k. -/
theorem lowerChar_of_isNameChar {c : Char} (h : isNameChar c = true) :
    ∃ d, Text.lowerChar c = [d] ∧ isNameChar d = true ∧ (isNameStart c = true → isNameStart d = true) := by
  rcases isNameChar_cases h with hc | rfl | rfl
  · refine ⟨c.toLower, by simp [Text.lowerChar, hc], ?_, fun hs => ?_⟩
    · rw [isNameChar_toLower, h]
    · rw [isNameStart_toLower, hs]
  · exact ⟨Char.ofNat 0x17f, by decide⟩
  · exact ⟨'k', by decide⟩

theorem ne_capitalSigma {c : Char} (h : isNameChar c = true) : c ≠ Text.capitalSigma :=
  Text.ne_of_holds h (by decide)

theorem isNameChar_lowerAfter {cs : List Char} (h : ∀ c ∈ cs, isNameChar c = true)
    (before : List Char) : ∀ d ∈ Text.lowerAfter before cs, isNameChar d = true := by
  induction cs generalizing before with
  | nil => simp [Text.lowerAfter]
  | cons c cs ih =>
    have hc := h c List.mem_cons_self
    obtain ⟨d, hd, hn, -⟩ := lowerChar_of_isNameChar hc
    intro e he
    rw [Text.lowerAfter, if_neg (ne_capitalSigma hc), hd, List.singleton_append] at he
    rcases List.mem_cons.mp he with rfl | he
    · exact hn
    · exact ih (fun x hx => h x (List.mem_cons_of_mem c hx)) _ e he

namespace IsName

variable {w : List Char}

theorem lower (h : IsName w) : IsName (Text.lower w) := by
  have hall := h.isNameChar
  obtain ⟨c, cs, rfl, hc, -⟩ := h
  obtain ⟨d, hd, -, hs⟩ := lowerChar_of_isNameChar (isNameChar_of_isNameStart hc)
  refine ⟨d, Text.lowerAfter [c] cs, ?_, hs hc, ?_⟩
  · rw [Text.lower, Text.lowerAfter, if_neg (ne_capitalSigma (isNameChar_of_isNameStart hc)), hd]
    rfl
  · exact isNameChar_lowerAfter (fun x hx => hall x (List.mem_cons_of_mem c hx)) [c]

theorem pluralize (h : IsName w) : IsName (Inflection.pluralize w) := by
  have hes : ∀ c ∈ "es".toList, Pattern.isNameChar c = true := by decide
  have hs : ∀ c ∈ "s".toList, Pattern.isNameChar c = true := by decide
  have hies : IsName "ies".toList := ⟨'i', ['e', 's'], by decide, by decide, by decide⟩
  simp only [Inflection.pluralize]
  split
  · by_cases hl : 0 < w.length - 1
    · exact (h.take hl).append hies.isNameChar
    · obtain hz : w.length - 1 = 0 := by omega
      simpa only [Inflection.dropLast, hz, List.take_zero, List.nil_append] using hies
  · split
    · exact h.append hes
    · exact h.append hs

theorem length_lower (h : IsName w) : (Text.lower w).length = w.length := by
  suffices ∀ (cs before : List Char), (∀ c ∈ cs, Pattern.isNameChar c = true) →
      (Text.lowerAfter before cs).length = cs.length from this w [] h.isNameChar
  intro cs
  induction cs with
  | nil => exact fun before _ => rfl
  | cons c cs ih =>
    intro before hall
    have hc := hall c List.mem_cons_self
    obtain ⟨d, hd, -, -⟩ := lowerChar_of_isNameChar hc
    rw [Text.lowerAfter, if_neg (ne_capitalSigma hc), hd, List.singleton_append, List.length_cons,
      List.length_cons, ih _ fun x hx => hall x (List.mem_cons_of_mem c hx)]

theorem length_le_of_endsIn (h : IsName w) {s : String}
    (hs : Inflection.endsIn s (Text.lower w) = true) : s.toList.length ≤ w.length := by
  rw [← h.length_lower]
  exact (List.isSuffixOf_iff_suffix.mp hs).length_le

/-- Only an ASCII letter becomes the letter s. -/
theorem one_lt_length_of_endsIn_s (h : IsName w) (hs : Inflection.endsIn "s" (Text.lower w) = true)
    (hw : 1 < Text.size w) : 1 < w.length := by
  obtain ⟨c, cs, rfl, hc, -⟩ := h
  cases cs with
  | cons d ds => simp
  | nil =>
    exfalso
    have hn := isNameChar_of_isNameStart hc
    rcases isNameChar_cases hn with ha | rfl | rfl
    · have h1 : c.utf8Size = 1 := Char.utf8Size_eq_one_iff.mpr (Nat.le_of_lt_succ ha)
      simp [Text.size, h1] at hw
    · exact absurd hs (by decide)
    · exact absurd hs (by decide)

theorem singularize (h : IsName w) : IsName (Inflection.singularize w) := by
  have hy : IsName "y".toList := ⟨'y', [], by decide, by decide, by decide⟩
  simp only [Inflection.singularize]
  split
  · by_cases hl : 0 < w.length - 3
    · exact (h.take hl).append hy.isNameChar
    · obtain hz : w.length - 3 = 0 := by omega
      simpa only [Inflection.dropLast, hz, List.take_zero, List.nil_append] using hy
  · split
    · next hs =>
      obtain ⟨s, hm, hs⟩ := List.any_eq_true.mp hs
      have hl := h.length_le_of_endsIn hs
      have h3 : ∀ t ∈ ["ses", "xes", "zes", "ches", "shes"], 3 ≤ t.toList.length := by decide
      have hm := h3 s hm
      exact h.take (by omega)
    · split
      · next hs =>
        simp only [Bool.and_eq_true, decide_eq_true_eq] at hs
        have hl := h.one_lt_length_of_endsIn_s hs.1.1 hs.2
        exact h.take (by omega)
      · exact h

theorem candidates (h : IsName w) : ∀ v ∈ Inflection.candidates w, IsName v := by
  have hforms : ∀ v ∈ [w, Inflection.pluralize w, Inflection.singularize w], IsName v :=
    List.forall_mem_cons.mpr ⟨h, List.forall_mem_cons.mpr ⟨h.pluralize, List.forall_mem_singleton.mpr h.singularize⟩⟩
  exact fun v hv => hforms v (Inflection.mem_candidates_iff.mp hv)

end IsName

end Pattern

end Parlance
