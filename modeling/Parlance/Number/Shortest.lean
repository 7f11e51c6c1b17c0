import Parlance.Number.Integer

/-! The fewest decimal digits that read back as a given double. A positive finite double is
`m * 2 ^ q`, and the numbers that round to it fill an interval around it. On the grid of
`n`-digit decimals the two neighbours of the value are tried for n = 1, 2, ... 17; the first
grid with a neighbour inside the interval gives the digits. -/

namespace Parlance.Number

/-- The value `m * 2 ^ q`. -/
structure Dyadic where
  m : Nat
  q : Int
  deriving DecidableEq, Repr

def Dyadic.ofBits (bits : Nat) : Dyadic :=
  let fraction : Nat := bits % Nat.pow 2 52
  let exponent : Nat := bits / Nat.pow 2 52 % Nat.pow 2 11
  if exponent = 0 then { m := fraction, q := -1074 }
  else { m := Nat.pow 2 52 + fraction, q := (exponent : Int) - 1075 }

/-- Numbers over the common denominator `scale`; `low` and `high` bound what rounds to `value`. -/
structure Neighbourhood where
  value : Nat
  low : Nat
  high : Nat
  scale : Nat
  closed : Bool

/-- Below a power of two the doubles lie twice as close, so the interval ends earlier there. -/
def Dyadic.neighbourhood (d : Dyadic) : Neighbourhood :=
  let up := Nat.pow 2 (d.q - 2).toNat
  let scale := Nat.pow 2 (2 - d.q).toNat
  let below := if d.m = Nat.pow 2 52 && -1074 < d.q then 1 else 2
  ⟨4 * d.m * up, (4 * d.m - below) * up, (4 * d.m + 2) * up, scale, d.m % 2 = 0⟩

/-- The value `digits * 10 ^ power`. -/
structure Digits where
  digits : Nat
  power : Int
  deriving DecidableEq, Repr

def Neighbourhood.holds (h : Neighbourhood) (n : Nat) : Bool :=
  if h.closed then h.low ≤ n && n ≤ h.high else h.low < n && n < h.high

def decimalWidth (n : Nat) : Nat := (Nat.toDigits 10 n).length

/-- The place of the first decimal digit: 0 for units, -1 for tenths. -/
def Neighbourhood.leading (h : Neighbourhood) : Int :=
  (decimalWidth (h.value * Nat.pow 10 350 / h.scale) : Int) - 351

/-- The nearer neighbour of the value on the grid of multiples of `10 ^ power`, an even one on
a tie, if it lies in the interval. -/
def Neighbourhood.onGrid? (h : Neighbourhood) (power : Int) : Option Digits :=
  let up := Nat.pow 10 (-power).toNat
  let unit := h.scale * Nat.pow 10 power.toNat
  let lower := h.value * up / unit
  let scaled : Neighbourhood := ⟨h.value * up, h.low * up, h.high * up, unit, h.closed⟩
  let down := scaled.value - lower * unit
  let rise := (lower + 1) * unit - scaled.value
  let downFirst := down < rise || (down = rise && lower % 2 = 0)
  let order := if downFirst then [lower, lower + 1] else [lower + 1, lower]
  (order.find? fun c => 0 < c && scaled.holds (c * unit)).map fun c => ⟨c, power⟩

def Neighbourhood.shortestFrom (h : Neighbourhood) (lead : Int) : Nat → Nat → Digits
  | 0, _ => ⟨0, 0⟩
  | fuel + 1, width =>
    match h.onGrid? (lead - width) with
    | some d => d
    | none => h.shortestFrom lead fuel (width + 1)

/-- Seventeen digits always suffice. -/
def Dyadic.shortest (d : Dyadic) : Digits :=
  if d.m = 0 then ⟨0, 0⟩
  else d.neighbourhood.shortestFrom d.neighbourhood.leading 17 0

def Digits.reduce : Nat → Digits → Digits
  | 0, d => d
  | fuel + 1, d =>
    if d.digits % 10 = 0 && 0 < d.digits then Digits.reduce fuel ⟨d.digits / 10, d.power + 1⟩ else d

structure Layout where
  /-- Largest number of digits before the point. -/
  widest : Int
  /-- Largest number of zeros after the point and before the digits. -/
  deepest : Int

/-- Positional up to sixteen places before the point and four zeros behind it. -/
def plain : Layout := ⟨16, 4⟩

def Digits.text (l : Layout) (d : Digits) : String :=
  let ds := Nat.toDigits 10 d.digits
  let n : Int := ds.length
  let point := n + d.power
  if 0 ≤ d.power && point ≤ l.widest then
    String.ofList (ds ++ List.replicate d.power.toNat '0' ++ ['.', '0'])
  else if 0 < point && point ≤ l.widest then
    String.ofList (ds.take point.toNat ++ '.' :: ds.drop point.toNat)
  else if -l.deepest ≤ point && point ≤ 0 then
    String.ofList (['0', '.'] ++ List.replicate (-point).toNat '0' ++ ds)
  else
    let tail := if ds.length = 1 then [] else '.' :: ds.drop 1
    String.ofList (ds.take 1 ++ tail) ++ "e" ++ toString (point - 1)

def shortestText (x : Float) : String :=
  let bits := x.toBits.toNat
  let sign := if Nat.pow 2 63 ≤ bits then "-" else ""
  let d := Dyadic.ofBits (bits % Nat.pow 2 63)
  if d.m = 0 then sign ++ "0.0" else sign ++ (Digits.reduce 400 d.shortest).text plain

end Parlance.Number
