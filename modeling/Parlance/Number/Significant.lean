import Parlance.Number.Shortest

/-! A double written with a fixed number of significant digits, zeros at the end left away.
Small and large numbers have an exponent; the point is always there with a digit behind it. -/

namespace Parlance.Number

/-- The value to `count` significant digits, a half rounded up. -/
def Dyadic.rounded (count : Nat) (d : Dyadic) : Digits :=
  if d.m = 0 then ⟨0, 0⟩
  else
    let h := d.neighbourhood
    let power := h.leading - ((count : Int) - 1)
    let up := h.value * Nat.pow 10 (-power).toNat
    let unit := h.scale * Nat.pow 10 power.toNat
    Digits.reduce count ⟨(2 * up + unit) / (2 * unit), power⟩

/-- An exponent has a sign and at least two digits. -/
def exponentText (e : Int) : String :=
  (if e < 0 then "e-" else "e+") ++ (if e.natAbs < 10 then "0" else "") ++ toString e.natAbs

def orZero (ds : List Char) : List Char := if ds.isEmpty then ['0'] else ds

def Digits.significantText (count : Nat) (d : Digits) : String :=
  let ds := Nat.toDigits 10 d.digits
  let exponent := (ds.length : Int) + d.power - 1
  if exponent < -4 || (count : Int) ≤ exponent then
    String.ofList (ds.take 1 ++ '.' :: orZero (ds.drop 1)) ++ exponentText exponent
  else if exponent < 0 then
    String.ofList (['0', '.'] ++ List.replicate (-exponent - 1).toNat '0' ++ ds)
  else
    let ds := ds ++ List.replicate d.power.toNat '0'
    String.ofList (ds.take (exponent.toNat + 1) ++ '.' :: orZero (ds.drop (exponent.toNat + 1)))

/-- The text of a double that is not NaN. -/
def significantText (count : Nat) (x : Float) : String :=
  let bits := x.toBits.toNat
  let sign := if x < 0 then "-" else ""
  if x.abs = 1 / 0 then sign ++ "Inf"
  else sign ++ ((Dyadic.ofBits (bits % Nat.pow 2 63)).rounded count).significantText count

end Parlance.Number
