import Parlance.Json
import Parlance.Number.Integer

/-! Reading typed values out of JSON. A record is an object with its fields, in which unknown
fields are passed over and known ones may not be repeated, or the list of its fields in their
order. A variant without contents is its name; one with contents is an object with its name
as the only key. -/

namespace Parlance.Json

/-- Whether a field may be missing: never, from an object only, or from a list as well. -/
inductive Presence
  | required
  | nullable
  | defaulted
  deriving DecidableEq, Repr

abbrev Shape := List (String × Presence)

def text? : Json → Option String
  | text s => some s
  | _ => none

def bool? : Json → Option Bool
  | bool b => some b
  | _ => none

def bounded? (limit : Nat) : Json → Option Nat
  | int n => if 0 ≤ n && n ≤ limit then some n.toNat else none
  | _ => none

def word32? : Json → Option Nat := bounded? Number.maxWord32
def word64? : Json → Option Nat := bounded? Number.maxWord64

def listOf? {α : Type} (f : Json → Option α) : Json → Option (List α)
  | list items => items.mapM f
  | _ => none

/-- Null, like a field that is missing, stands for no value. -/
def optional? {α : Type} (f : Json → Option α) : Option Json → Option (Option α)
  | none | some null => some none
  | some j => (f j).map some

def default? {α : Type} (value : α) (f : Json → Option α) : Option Json → Option α
  | none => some value
  | some j => f j

def objectField? (fields : List (String × Json)) (f : String × Presence) : Option (Option Json) :=
  match fields.filter (·.1 = f.1) with
  | [] => if f.2 = .required then none else some none
  | [g] => some (some g.2)
  | _ => none

def listFields? : Shape → List Json → Option (List (Option Json))
  | [], [] => some []
  | [], _ :: _ => none
  | (_, p) :: shape, [] => if p = .defaulted then (listFields? shape []).map (none :: ·) else none
  | _ :: shape, j :: js => (listFields? shape js).map (some j :: ·)

/-- The fields of a record in their order, absent ones as `none`. -/
def record? (shape : Shape) : Json → Option (List (Option Json))
  | object fields => shape.mapM (objectField? fields)
  | list items => listFields? shape items
  | _ => none

def variant? : Json → Option (String × Option Json)
  | text s => some (s, none)
  | object [(k, j)] => some (k, some j)
  | _ => none

def unit? (j : Json) : Option String :=
  match variant? j with
  | some (name, none) | some (name, some null) => some name
  | _ => none

/-- A map from texts; the last of repeated keys counts. -/
def mapOf? {α : Type} (f : Json → Option α) : Json → Option (List (String × α))
  | object fields => (fields.mapM fun p => (f p.2).map (p.1, ·)).map lastWins
  | _ => none

end Parlance.Json
