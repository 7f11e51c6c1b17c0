import Parlance.Number.Decimal
import Parlance.Proofs.Text.Ascii
import Parlance.Proofs.Text.Words

/-! Which texts are read as decimal numerals when they have no exponent: digits with a point among
them, before them or behind them, or with none. -/

namespace Parlance.Number

open Text (isAsciiDigit)

theorem splitSign_cases (cs : List Char) :
    (∃ c body, cs = c :: body ∧ (c = '-' ∨ c = '+') ∧ (splitSign cs).2 = body) ∨ (splitSign cs).2 = cs := by
  unfold splitSign
  split
  · exact .inl ⟨_, _, rfl, .inl rfl, rfl⟩
  · exact .inl ⟨_, _, rfl, .inr rfl, rfl⟩
  · exact .inr rfl

theorem mem_of_mem_splitSign {c : Char} {cs : List Char} (h : c ∈ (splitSign cs).2) : c ∈ cs := by
  rcases splitSign_cases cs with ⟨d, body, rfl, -, hs⟩ | hs
  · rw [hs] at h
    exact List.mem_cons_of_mem d h
  · rw [hs] at h
    exact h

theorem splitFraction_cases (cs : List Char) :
    (∃ ds, cs = '.' :: ds ∧ splitFraction cs = (ds.takeWhile isAsciiDigit, ds.dropWhile isAsciiDigit)) ∨
    splitFraction cs = ([], cs) := by
  unfold splitFraction
  split
  · exact .inl ⟨_, rfl, rfl⟩
  · exact .inr rfl

/-- An exponent needs its letter. -/
theorem isSome_readExponent?_iff {cs : List Char} (hl : ∀ c ∈ cs, c ≠ 'e' ∧ c ≠ 'E') :
    (readExponent? cs).isSome = true ↔ cs = [] := by
  cases cs with
  | nil => simp [readExponent?]
  | cons c cs =>
    obtain ⟨he, hE⟩ := hl c List.mem_cons_self
    simp [readExponent?, he, hE]

def AllDigits (cs : List Char) : Prop := ∀ c ∈ cs, isAsciiDigit c = true

theorem allDigits_takeWhile (cs : List Char) : AllDigits (cs.takeWhile isAsciiDigit) :=
  List.all_eq_true.mp List.all_takeWhile

/-- A point ends a run of digits. -/
theorem AllDigits.cut {ds : List Char} (h : AllDigits ds) (fs : List Char) :
    (ds ++ '.' :: fs).takeWhile isAsciiDigit = ds ∧ (ds ++ '.' :: fs).dropWhile isAsciiDigit = '.' :: fs := by
  have hpoint : ∀ c ∈ ('.' :: fs).head?, isAsciiDigit c = false := by
    intro c hc
    cases hc
    decide
  obtain ⟨htake, hdrop⟩ := Text.run_of_forall h
  rw [Text.takeWhile_append_of_lacks ds hpoint, Text.dropWhile_append_of_lacks ds hpoint, htake, hdrop]
  exact ⟨rfl, rfl⟩

/-- Digits, and at most one point; a digit before the point or behind it. -/
inductive Unsigned : List Char → Prop
  | whole {ds : List Char} (hne : ds ≠ []) (hds : AllDigits ds) : Unsigned ds
  | pointed {ds fs : List Char} (hne : ds ≠ []) (hds : AllDigits ds) (hfs : AllDigits fs) : Unsigned (ds ++ '.' :: fs)
  | fraction {fs : List Char} (hne : fs ≠ []) (hfs : AllDigits fs) : Unsigned ('.' :: fs)

/-- An unsigned numeral, or one behind a minus sign. -/
inductive Numeral : List Char → Prop
  | plain {cs : List Char} (h : Unsigned cs) : Numeral cs
  | negative {cs : List Char} (h : Unsigned cs) : Numeral ('-' :: cs)

variable {cs : List Char}

theorem Unsigned.ne_nil (h : Unsigned cs) : cs ≠ [] := by
  cases h with
  | whole hne => exact hne
  | pointed hne => simp
  | fraction => exact List.cons_ne_nil _ _

theorem Unsigned.chars (h : Unsigned cs) : ∀ c ∈ cs, isAsciiDigit c = true ∨ c = '.' := by
  cases h with
  | whole _ hds => exact fun c hc => .inl (hds c hc)
  | pointed _ hds hfs =>
    refine List.forall_mem_append.mpr ⟨fun c hc => .inl (hds c hc), ?_⟩
    exact List.forall_mem_cons.mpr ⟨.inr rfl, fun c hc => .inl (hfs c hc)⟩
  | fraction _ hfs => exact List.forall_mem_cons.mpr ⟨.inr rfl, fun c hc => .inl (hfs c hc)⟩

theorem Unsigned.splitSign_eq (h : Unsigned cs) : (splitSign cs).2 = cs := by
  rcases splitSign_cases cs with ⟨c, body, rfl, hc, -⟩ | hs
  · rcases h.chars c List.mem_cons_self with hd | rfl
    · rcases hc with rfl | rfl <;> exact absurd hd (by decide)
    · rcases hc with hc | hc <;> exact absurd hc (by decide)
  · exact hs

theorem Numeral.chars (h : Numeral cs) : ∀ c ∈ cs, isAsciiDigit c = true ∨ c = '.' ∨ c = '-' := by
  have hbody {body : List Char} (hb : Unsigned body) : ∀ c ∈ body, isAsciiDigit c = true ∨ c = '.' ∨ c = '-' := by
    intro c hc
    rcases hb.chars c hc with hd | rfl
    · exact .inl hd
    · exact .inr (.inl rfl)
  cases h with
  | plain h => exact hbody h
  | negative h => exact List.forall_mem_cons.mpr ⟨.inr (.inr rfl), hbody h⟩

/-- What no digit, no point and no minus sign is does not stand in a numeral. -/
theorem Numeral.lacks (h : Numeral cs) {p : Char → Bool}
    (hp : ∀ k < 128, isAsciiDigit (Char.ofNat k) = true → p (Char.ofNat k) = false) (hpoint : p '.' = false)
    (hminus : p '-' = false) : ∀ c ∈ cs, p c = false := by
  intro c hc
  rcases h.chars c hc with hd | rfl | rfl
  · exact Text.forall_ascii (P := fun c => isAsciiDigit c = true → p c = false) hp (Text.ascii_of_isAsciiDigit hd) hd
  · exact hpoint
  · exact hminus

theorem Numeral.unsigned (h : Numeral cs) : Unsigned (splitSign cs).2 := by
  cases h with
  | plain h =>
    rw [h.splitSign_eq]
    exact h
  | negative h => exact h

theorem exists_digits (cs : List Char) : ∃ ds rest, cs = ds ++ rest ∧ AllDigits ds ∧
    cs.takeWhile isAsciiDigit = ds ∧ cs.dropWhile isAsciiDigit = rest :=
  ⟨_, _, List.takeWhile_append_dropWhile.symm, allDigits_takeWhile cs, rfl, rfl⟩

/-- Behind the sign a numeral is read, and then an exponent. -/
theorem exists_unsigned_of_readDecimal? (h : (readDecimal? cs).isSome = true) :
    ∃ body rest, (splitSign cs).2 = body ++ rest ∧ Unsigned body ∧ (readExponent? rest).isSome = true := by
  obtain ⟨negative, cs', hs⟩ : ∃ negative body, splitSign cs = (negative, body) := ⟨_, _, rfl⟩
  obtain ⟨whole, tail, rfl, hwhole, htake, hdrop⟩ := exists_digits cs'
  simp only [readDecimal?, hs, htake, hdrop] at h ⊢
  rcases splitFraction_cases tail with ⟨ds, rfl, hf⟩ | hf
  · obtain ⟨part, rest, rfl, hpart, htake', hdrop'⟩ := exists_digits ds
    simp only [hf, htake', hdrop'] at h
    split at h
    · cases h
    · next hsome =>
      refine ⟨whole ++ '.' :: part, rest, by simp, ?_, by simpa using h⟩
      by_cases hne : whole = []
      · subst hne
        exact .fraction (by simpa using hsome) hpart
      · exact .pointed hne hwhole hpart
  · simp only [hf] at h
    split at h
    · cases h
    · next hsome => exact ⟨whole, tail, rfl, .whole (by simpa using hsome) hwhole, by simpa using h⟩

theorem isSome_readDecimal?_of_unsigned (h : Unsigned (splitSign cs).2) : (readDecimal? cs).isSome = true := by
  obtain ⟨negative, body, hs⟩ : ∃ negative body, splitSign cs = (negative, body) := ⟨_, _, rfl⟩
  simp only [readDecimal?, hs] at h ⊢
  cases h with
  | whole hne hds =>
    obtain ⟨htake, hdrop⟩ := Text.run_of_forall hds
    simp [htake, hdrop, splitFraction, readExponent?, hne]
  | @pointed ds fs hne hds hfs =>
    obtain ⟨hwhole, htail⟩ := hds.cut fs
    obtain ⟨htake, hdrop⟩ := Text.run_of_forall hfs
    simp [hwhole, htail, splitFraction, htake, hdrop, readExponent?, hne]
  | @fraction fs hne hfs =>
    obtain ⟨htake, hdrop⟩ := Text.run_of_forall hfs
    have hpoint : isAsciiDigit '.' = false := by decide
    simp [hpoint, splitFraction, htake, hdrop, readExponent?, hne]

/-- What is read behind the sign, if no letter opens an exponent. -/
theorem isSome_readDecimal?_iff (hl : ∀ c ∈ (splitSign cs).2, c ≠ 'e' ∧ c ≠ 'E') :
    (readDecimal? cs).isSome = true ↔ Unsigned (splitSign cs).2 := by
  refine ⟨fun h => ?_, isSome_readDecimal?_of_unsigned⟩
  obtain ⟨body, rest, hcut, hbody, hrest⟩ := exists_unsigned_of_readDecimal? h
  rw [(isSome_readExponent?_iff fun c hc => hl c (by simp [hcut, hc])).mp hrest, List.append_nil] at hcut
  rwa [hcut]

end Parlance.Number
