import Parlance.Json
import Parlance.Number.Decimal

/-! Numbers in JSON texts. An integer that fits in 64 bits stays an integer. Any other number
is a double: the digits that fit in 64 bits, scaled by a power of ten. -/

namespace Parlance.Json

open Number (digitValue maxWord64)

/-- Appends digits while the result fits in 64 bits; also tells how many were left over. -/
def absorb (n : Nat) : List Char → Nat × Nat
  | [] => (n, 0)
  | d :: ds =>
    if 10 * n + digitValue d ≤ maxWord64 then absorb (10 * n + digitValue d) ds
    else (n, ds.length + 1)

def tenTo (k : Nat) : Float := Float.ofScientific 1 false k

/-- Division by a large power of ten goes in steps of 308; two of them bring any word to zero. -/
def scaleDown : Nat → Float → Nat → Float
  | 0, _, _ => 0
  | steps + 1, x, k => if k ≤ 308 then x / tenTo k else scaleDown steps (x / tenTo 308) (k - 308)

/-- A product out of range is refused. -/
def scale? (digits : Nat) (power : Int) : Option Float :=
  let x := digits.toUInt64.toFloat
  if digits = 0 then some 0
  else if power < 0 then some (scaleDown 4 x power.natAbs)
  else if 308 < power then none
  else (some (x * tenTo power.natAbs)).filter Number.finite

/-- The parts of a numeral; a fraction and an exponent are absent rather than empty. -/
structure Numeral where
  negative : Bool
  whole : List Char
  fraction : Option (List Char)
  exponent : Option Int

def Numeral.double? (n : Numeral) : Option Float :=
  let (whole, beyond) := absorb 0 n.whole
  let part := n.fraction.getD []
  let (digits, unread) := absorb whole part
  let power : Int := beyond - (part.length - unread : Nat) + n.exponent.getD 0
  (scale? digits power).map fun x => if n.negative then -x else x

/-- The integer that the numeral spells, if it has neither fraction nor exponent and fits. -/
def Numeral.integer? (n : Numeral) : Option Int :=
  match n.fraction, n.exponent, absorb 0 n.whole with
  | none, none, (whole, 0) =>
    if !n.negative then some whole
    else if 0 < whole && whole ≤ Nat.pow 2 63 then some (-(whole : Int))
    else none
  | _, _, _ => none

def Numeral.value? (n : Numeral) : Option Json :=
  match n.integer? with
  | some i => some (int i)
  | none => n.double?.map float

end Parlance.Json
