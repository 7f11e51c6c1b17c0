import Parlance.Json.Decode
import Parlance.Number.Decimal

/-! Values for the placeholders of a statement. -/

namespace Parlance

inductive Param
  | null
  | bool (b : Bool)
  | int (n : Int)
  | float (x : Float)
  | text (s : String)

namespace Param

/-- The type of a value given as text: null, a truth value, an integer of 64 bits, a finite
number, or else the text itself. -/
def infer (raw : String) : Param :=
  let cs := raw.toList
  let l := Text.lower cs
  if Text.sameWord cs "null".toList then null
  else if l = "true".toList then bool true
  else if l = "false".toList then bool false
  else match Number.readInt64? cs with
  | some n => int n
  | none =>
    match Number.readFinite? cs with
    | some x => float x
    | none => text raw

def wide (n : Int) : Float := if n < 0 then -(n.natAbs.toUInt64.toFloat) else n.natAbs.toUInt64.toFloat

/-- Scalars only; an integer beyond 64 signed bits becomes a double. -/
def ofJson? : Json → Option Param
  | .null => some null
  | .bool b => some (bool b)
  | .int n => some (if Number.fitsInt64 n then int n else float (wide n))
  | .float x => some (float x)
  | .text s => some (text s)
  | _ => none

def toJson : Param → Json
  | null => .null
  | bool b => .bool b
  | int n => .int n
  | float x => .float x
  | text s => .text s

def ofOption {α : Type} (f : α → Param) : Option α → Param
  | some a => f a
  | none => null

end Param

end Parlance
