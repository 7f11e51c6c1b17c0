import Parlance.Number.Integer

/-! Decimal numerals with a point and an exponent, and the double nearest to one. A numeral
has at least one digit before or after its point; an exponent has digits of its own. -/

namespace Parlance.Number

open Parlance.Text (isAsciiDigit)

/-- The value is `digits * 10 ^ scale`, negated if `negative`. -/
structure Decimal where
  negative : Bool
  digits : Nat
  scale : Int
  deriving DecidableEq, Repr

def Decimal.magnitude (d : Decimal) : Float :=
  let width := (Nat.toDigits 10 d.digits).length
  if d.digits = 0 then 0
  else if 400 < d.scale + width then 1 / 0
  else if d.scale + width < -400 then 0
  else if d.scale < 0 then Float.ofScientific d.digits true d.scale.natAbs
  else Float.ofScientific d.digits false d.scale.natAbs

/-- The nearest double; a value beyond the largest one is infinite. -/
def Decimal.toFloat (d : Decimal) : Float := if d.negative then -d.magnitude else d.magnitude

def splitSign : List Char → Bool × List Char
  | '-' :: cs => (true, cs)
  | '+' :: cs => (false, cs)
  | cs => (false, cs)

def readExponent? : List Char → Option Int
  | [] => some 0
  | c :: cs =>
    if c = 'e' || c = 'E' then
      let (negative, ds) := splitSign cs
      (readDigits? ds).map fun n => if negative then -(n : Int) else n
    else none

def splitFraction : List Char → List Char × List Char
  | '.' :: cs => (cs.takeWhile isAsciiDigit, cs.dropWhile isAsciiDigit)
  | cs => ([], cs)

def readDecimal? (cs : List Char) : Option Decimal :=
  let (negative, cs) := splitSign cs
  let whole := cs.takeWhile isAsciiDigit
  let (part, rest) := splitFraction (cs.dropWhile isAsciiDigit)
  if whole.isEmpty && part.isEmpty then none
  else (readExponent? rest).map fun e => ⟨negative, ofDigits (whole ++ part), e - part.length⟩

def finite (x : Float) : Bool := x.abs < 1 / 0

/-- A numeral whose nearest double is finite. -/
def readFinite? (cs : List Char) : Option Float := (readDecimal? cs).map Decimal.toFloat |>.filter finite

end Parlance.Number
