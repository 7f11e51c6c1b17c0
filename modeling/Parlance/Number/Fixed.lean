import Parlance.Number.Integer

/-! Exact decimals: a coefficient of at most 96 bits and a number of decimal places, at most
28. Trailing zeros are part of the number, so that `1.50` keeps its two places. -/

namespace Parlance.Number

structure Fixed where
  negative : Bool
  coefficient : Nat
  places : Nat
  deriving DecidableEq, Repr

namespace Fixed

def maxCoefficient : Nat := Nat.pow 2 96 - 1
def maxPlaces : Nat := 28

inductive Fault
  | empty
  | noDigits
  | unknownCharacter
  | secondPoint
  | tooManyDigits
  | notANumber
  | tooLarge
  deriving DecidableEq, Repr

def Fault.message : Fault → String
  | empty => "Invalid decimal: empty"
  | noDigits => "Invalid decimal: no digits found"
  | unknownCharacter => "Invalid decimal: unknown character"
  | secondPoint => "Invalid decimal: two decimal points"
  | tooManyDigits => "Invalid decimal: overflow from too many digits"
  | notANumber => "Decimal does not support NaN values"
  | tooLarge => "value not representable as a decimal"

def zero : Fixed := ⟨false, 0, 0⟩

def text (x : Fixed) : String :=
  let ds := Nat.toDigits 10 x.coefficient
  let ds := List.replicate (x.places + 1 - ds.length) '0' ++ ds
  let whole := ds.take (ds.length - x.places)
  let part := ds.drop (ds.length - x.places)
  (if x.negative then "-" else "") ++
    String.ofList (if part.isEmpty then whole else whole ++ '.' :: part)

/-- Adds up to `n` places, as many as the coefficient has room for. -/
def lengthen : Nat → Fixed → Fixed
  | 0, x => x
  | n + 1, x =>
    if 10 * x.coefficient ≤ maxCoefficient && x.places < maxPlaces then
      lengthen n { x with coefficient := 10 * x.coefficient, places := x.places + 1 }
    else x

/-- Rounds to `places`, a half away from zero. -/
def roundTo (places : Nat) (x : Fixed) : Fixed :=
  let unit := Nat.pow 10 (x.places - places)
  { x with coefficient := (x.coefficient + unit / 2) / unit, places := min places x.places }

def withPlaces (places : Nat) (x : Fixed) : Fixed :=
  if x.places ≤ places then lengthen (places - x.places) x else roundTo places x

/-- Reads digits from left to right. A digit behind the point that has no room rounds what
stands before it and ends the number; one before the point is too many. -/
def readDigitsOf (x : Fixed) (point seen : Bool) : List Char → Except Fault (Fixed × List Char)
  | [] => if seen then .ok (x, []) else .error .noDigits
  | c :: cs =>
    if Text.isAsciiDigit c then
      let n := 10 * x.coefficient + digitValue c
      if maxCoefficient < n || (point && x.places = maxPlaces) then
        if point then .ok ({ x with coefficient := x.coefficient + (if 5 ≤ digitValue c then 1 else 0) }, [])
        else .error .tooManyDigits
      else readDigitsOf { x with coefficient := n, places := if point then x.places + 1 else 0 } point true cs
    else if c = '.' then
      if point then .error .secondPoint else readDigitsOf x true seen cs
    else if c = '_' && seen then readDigitsOf x point seen cs
    else if (c = 'e' || c = 'E') && seen then .ok (x, c :: cs)
    else .error .unknownCharacter

/-- Moves the point by an exponent. -/
def scaleBy (x : Fixed) (e : Int) : Except Fault Fixed :=
  let places := (x.places : Int) - e
  if 0 ≤ places then
    if places ≤ maxPlaces then .ok { x with places := places.toNat } else .error .tooLarge
  else
    let n := x.coefficient * Nat.pow 10 places.natAbs
    if maxCoefficient < n then .error .tooLarge else .ok { x with coefficient := n, places := 0 }

def readExponentOf (x : Fixed) : List Char → Except Fault Fixed
  | [] => .ok x
  | _ :: cs =>
    match readInt? cs with
    | some e => if e.natAbs ≤ maxPlaces then x.scaleBy e else .error .tooLarge
    | none => .error .unknownCharacter

def readMagnitude (negative : Bool) (cs : List Char) : Except Fault Fixed := do
  let (x, rest) ← readDigitsOf ⟨negative, 0, 0⟩ false false cs
  x.readExponentOf rest

def read : List Char → Except Fault Fixed
  | [] => .error .empty
  | '-' :: cs => readMagnitude true cs
  | '+' :: cs => readMagnitude false cs
  | cs => readMagnitude false cs

/-- Gives up places until the coefficient has room. -/
def fit : Nat → Fixed → Except Fault Fixed
  | 0, x => if x.coefficient ≤ maxCoefficient then .ok x else .error .tooLarge
  | n + 1, x => if x.coefficient ≤ maxCoefficient then .ok x else fit n (x.roundTo n)

example : (Fixed.mk true 5 2).text = "-0.05" := by decide
example : ((read "123.4500".toList).toOption.map text) = some "123.4500" := by decide
example : ((read "1e5".toList).toOption.map text) = some "100000" := by decide

end Fixed

end Parlance.Number
