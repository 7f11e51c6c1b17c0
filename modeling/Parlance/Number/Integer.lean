import Parlance.Text.Digit

/-! Reading whole numbers within bounds. A numeral is a sign, if the range has room for it,
and at least one ASCII digit; leading zeros are allowed. -/

namespace Parlance.Number

open Parlance.Text (isAsciiDigit)

def digitValue (c : Char) : Nat := c.toNat - '0'.toNat

/-- The number that a list of digits spells, most significant first. -/
def ofDigits (ds : List Char) : Nat := ds.foldl (fun n d => 10 * n + digitValue d) 0

def readDigits? (cs : List Char) : Option Nat :=
  if !cs.isEmpty && cs.all isAsciiDigit then some (ofDigits cs) else none

/-- An optional plus sign and digits. -/
def readNat? : List Char → Option Nat
  | '+' :: cs => readDigits? cs
  | cs => readDigits? cs

def readInt? : List Char → Option Int
  | '-' :: cs => (readDigits? cs).map fun n => -(n : Int)
  | cs => (readNat? cs).map Int.ofNat

def maxWord32 : Nat := Nat.pow 2 32 - 1
def maxWord64 : Nat := Nat.pow 2 64 - 1

def readWord32? (cs : List Char) : Option Nat := (readNat? cs).filter (· ≤ maxWord32)
def readWord64? (cs : List Char) : Option Nat := (readNat? cs).filter (· ≤ maxWord64)

def minInt64 : Int := -(Nat.pow 2 63 : Nat)
def maxInt64 : Int := (Nat.pow 2 63 : Nat) - 1

def fitsInt64 (n : Int) : Bool := minInt64 ≤ n && n ≤ maxInt64

def readInt64? (cs : List Char) : Option Int := (readInt? cs).filter fitsInt64

end Parlance.Number
