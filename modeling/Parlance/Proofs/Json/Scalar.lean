import Parlance.Json.Printer
import Parlance.Json.Reader
import Parlance.Proofs.Text.Ascii

/-! What the printer writes for a text or a whole number is read back, with whatever comes behind it
left over. A numeral goes on as far as it can, so what is behind one must not continue it. -/

namespace Parlance.Json

open Number (digitValue hexDigit hexValue?_hexDigit maxWord64)

variable {mode : Mode}

/-! ### Texts -/

theorem hex4?_control {n : Nat} (h : n < 32) :
    hex4? '0' '0' (hexDigit (n / 16)) (hexDigit (n % 16)) = some n := by
  have hzero : Number.hexValue? '0' = some 0 := by decide
  have hhigh := hexValue?_hexDigit (n := n / 16) (by omega)
  have hlow := hexValue?_hexDigit (n := n % 16) (by omega)
  simp only [hex4?, hzero, hhigh, hlow, Option.bind_eq_bind, Option.bind_some, Option.some.injEq]
  omega

/-- A character is read back from its escape, which is the character itself unless it may not stand
for itself. -/
theorem readString_escape (acc : List Char) (c : Char) (cs : List Char) :
    readString mode (some acc) (escape c ++ cs) = readString mode (some (c :: acc)) cs := by
  unfold escape
  -- The characters that have escapes of their own.
  iterate 7
    split
    · next h =>
      subst h
      rfl
  split
  · next hcontrol =>
    have hleading : isLeadingSurrogate c.toNat = false := by simp [isLeadingSurrogate]; omega
    have htrailing : isTrailingSurrogate c.toNat = false := by simp [isTrailingSurrogate]; omega
    simp [readString, hex4?_control hcontrol, hleading, htrailing, Acc.add]
  · next _ hslash _ _ _ _ _ hcontrol =>
    simp [readString, hslash, hcontrol, Acc.add]

theorem readString_escaped (acc s cs : List Char) :
    readString mode (some acc) (s.flatMap escape ++ '"' :: cs) =
      .ok (some (String.ofList (acc.reverse ++ s)), cs) := by
  induction s generalizing acc with
  | nil => simp [readString]
  | cons c s ih =>
    rw [List.flatMap_cons, List.append_assoc, readString_escape, ih]
    simp

theorem readQuoted_escaped (s : String) (cs : List Char) :
    readQuoted mode (s.toList.flatMap escape ++ '"' :: cs) = .ok (some s, cs) := by
  simp [readQuoted, readString_escaped]

theorem readText_escaped (s : String) (cs : List Char) :
    readText mode (s.toList.flatMap escape ++ '"' :: cs) = .ok (.text s, cs) := by
  rw [readText, readQuoted_escaped]
  rfl

/-! ### Numbers -/

/-- What no value goes on with. -/
def enders : List Char := " \n\t\r,]\x7d".toList

def Ended (cs : List Char) : Prop := ∀ c ∈ cs.head?, c ∈ enders

theorem absorb_append {ds es : List Char} {n m : Nat} (h : absorb n ds = (m, 0)) :
    absorb n (ds ++ es) = absorb m es := by
  induction ds generalizing n with
  | nil =>
    cases h
    rfl
  | cons d ds ih =>
    unfold absorb at h
    split at h
    · next hd => simp [absorb, hd, ih h]
    · simp at h

theorem digitChar_of_lt {n : Nat} (h : n < 10) :
    isDigit (Nat.digitChar n) = true ∧ digitValue (Nat.digitChar n) = n := by
  have hall : ∀ m : Fin 10, isDigit (Nat.digitChar m) = true ∧ digitValue (Nat.digitChar m) = m := by decide
  exact hall ⟨n, h⟩

/-- Digits that read back as a number without being cut off, with no zero in front of others. -/
structure Numbers (n : Nat) (ds : List Char) : Prop where
  digits : ∀ d ∈ ds, isDigit d = true
  value : absorb 0 ds = (n, 0)
  begins : ∃ d es, ds = d :: es ∧ (d = '0' → es = [])

theorem numbers_toDigits {n : Nat} (h : n ≤ maxWord64) : Numbers n (Nat.toDigits 10 n) := by
  induction n using Nat.strongRecOn with
  | ind n ih =>
    by_cases hn : n < 10
    · obtain ⟨hdigit, hvalue⟩ := digitChar_of_lt hn
      rw [Nat.toDigits_of_lt_base hn]
      exact ⟨by simp [hdigit], by simp [absorb, hvalue, h], _, _, rfl, fun _ => rfl⟩
    · obtain ⟨hdigit, hvalue⟩ := digitChar_of_lt (Nat.mod_lt n (by decide : 0 < 10))
      have hfront := ih (n / 10) (by omega) (by omega)
      have hsum : 10 * (n / 10) + n % 10 = n := Nat.div_add_mod n 10
      rw [Nat.toDigits_of_base_le (by decide) (by omega)]
      refine ⟨?_, ?_, ?_⟩
      · intro d hd
        rcases List.mem_append.mp hd with hd | hd
        · exact hfront.digits d hd
        · rwa [List.mem_singleton.mp hd]
      · simp [absorb_append hfront.value, absorb, hvalue, hsum, h]
      · obtain ⟨d, es, hds, hzero⟩ := hfront.begins
        refine ⟨d, es ++ [Nat.digitChar (n % 10)], by rw [hds, List.cons_append], fun hd => ?_⟩
        -- A zero in front would be all there is of `n / 10`, which is not zero.
        have hvalue := hfront.value
        rw [hds, hd, hzero hd] at hvalue
        have : n / 10 = 0 := (congrArg Prod.fst hvalue).symm
        omega

theorem takeWhile_digits {ds cs : List Char} (hds : ∀ d ∈ ds, isDigit d = true) (hcs : Ended cs) :
    (ds ++ cs).takeWhile isDigit = ds ∧ (ds ++ cs).dropWhile isDigit = cs := by
  have hend : ∀ c ∈ enders, isDigit c = false := by decide
  have hstop : cs.takeWhile isDigit = [] ∧ cs.dropWhile isDigit = cs := by
    cases cs with
    | nil => exact ⟨rfl, rfl⟩
    | cons c cs =>
      have hc := hend c (hcs c rfl)
      simp [hc]
  rw [List.takeWhile_append_of_pos hds, List.dropWhile_append_of_pos hds, hstop.1, hstop.2]
  simp

theorem readWhole_digits {n : Nat} {ds cs : List Char} (h : Numbers n ds) (hcs : Ended cs) :
    readWhole (ds ++ cs) = .ok (ds, cs) := by
  obtain ⟨d, es, rfl, hzero⟩ := h.begins
  obtain ⟨htake, hdrop⟩ := takeWhile_digits h.digits hcs
  have hdigit := h.digits d (by simp)
  unfold readWhole
  split
  · next hnil => cases hnil
  · next rest hrest =>
    obtain ⟨rfl, rfl⟩ := List.cons.inj hrest
    cases hzero rfl
    have hend : cs.head?.any isDigit = false := by
      cases cs with
      | nil => rfl
      | cons c cs => exact (by decide : ∀ c ∈ enders, isDigit c = false) c (hcs c rfl)
    simp [hend]
  · next c rest _ hrest =>
    obtain ⟨rfl, rfl⟩ := List.cons.inj hrest
    simp only [List.cons_append] at htake hdrop
    simp [hdigit, htake, hdrop]

theorem readFraction_ended {cs : List Char} (h : Ended cs) : readFraction cs = .ok (none, cs) := by
  unfold readFraction
  split
  · next rest => exact absurd (h '.' rfl) (by decide)
  · rfl

theorem readExponent_ended {cs : List Char} (h : Ended cs) : readExponent cs = .ok (none, cs) := by
  cases cs with
  | nil => rfl
  | cons c cs =>
    have hend : ∀ c ∈ enders, c ≠ 'e' ∧ c ≠ 'E' := by decide
    obtain ⟨he, hE⟩ := hend c (h c rfl)
    simp [readExponent, he, hE]

theorem readNumber_digits {n : Nat} {ds cs : List Char} {negative : Bool} {i : Int} (h : Numbers n ds)
    (hi : (Numeral.mk negative ds none none).integer? = some i) (hcs : Ended cs) :
    readNumber mode negative (ds ++ cs) = .ok (.int i, cs) := by
  simp [readNumber, readWhole_digits h hcs, readFraction_ended hcs, readExponent_ended hcs, Numeral.value?, hi,
    bind, Except.bind]

/-- The integers that stay integers. -/
def IsWord (i : Int) : Prop := -(Nat.pow 2 63 : Nat) ≤ i ∧ i ≤ maxWord64

theorem readNumber_nat {n : Nat} {cs : List Char} (h : n ≤ maxWord64) (hcs : Ended cs) :
    readNumber mode false (Nat.toDigits 10 n ++ cs) = .ok (.int n, cs) := by
  have hn := numbers_toDigits h
  exact readNumber_digits hn (by simp [Numeral.integer?, hn.value]) hcs

theorem readNumber_negative {n : Nat} {cs : List Char} (h : n + 1 ≤ Nat.pow 2 63) (hcs : Ended cs) :
    readNumber mode true (Nat.toDigits 10 (n + 1) ++ cs) = .ok (.int (.negSucc n), cs) := by
  have hn : Numbers (n + 1) (Nat.toDigits 10 (n + 1)) := numbers_toDigits (Nat.le_trans h (by decide))
  refine readNumber_digits hn ?_ hcs
  simp [Numeral.integer?, hn.value, h, Int.negSucc_eq]

end Parlance.Json
