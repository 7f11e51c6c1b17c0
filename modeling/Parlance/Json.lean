import Parlance.Text.Basic

/-! JSON values. An object keeps its fields in the order in which they were written, repeated
names included; readers of fixed records refuse repetition, readers of maps take the last. Where
a text is well formed but a part of it has no value, such as a number out of range, that part
is unfit; it does no harm in a field that nobody asks for. -/

namespace Parlance

inductive Json
  | null
  | bool (b : Bool)
  | int (n : Int)
  | float (x : Float)
  | text (s : String)
  | list (items : List Json)
  | object (fields : List (String × Json))
  | unfit
  deriving Inhabited

namespace Json

def field (name : String) (value : Json) : String × Json := (name, value)

def nat (n : Nat) : Json := int n

def ofOption {α : Type} (f : α → Json) : Option α → Json
  | some a => f a
  | none => null

def ofList {α : Type} (f : α → Json) (l : List α) : Json := list (l.map f)

def texts (l : List String) : Json := ofList text l

/-- A variant with contents: an object with the variant's name as its only key. -/
def tagged (name : String) (content : Json) : Json := object [(name, content)]

/-- The last value under a name. -/
def get? (name : String) : Json → Option Json
  | object fields => fields.reverse.lookup name
  | _ => none

/-- Puts a value at the end, or in the place of the value that the key has. -/
def insertField {α : Type} (key : String) (value : α) : List (String × α) → List (String × α)
  | [] => [(key, value)]
  | (k, v) :: fields => if k = key then (k, value) :: fields else (k, v) :: insertField key value fields

/-- Each key once, with its last value. -/
def lastWins {α : Type} (fields : List (String × α)) : List (String × α) :=
  fields.foldl (fun acc f => insertField f.1 f.2 acc) []

mutual

/-- Keeps the last of repeated keys, at every depth. -/
def distinct : Json → Json
  | list items => list (distinctItems items)
  | object fields => object (lastWins (distinctFields fields))
  | j => j

def distinctItems : List Json → List Json
  | [] => []
  | j :: js => j.distinct :: distinctItems js

def distinctFields : List (String × Json) → List (String × Json)
  | [] => []
  | (k, j) :: fs => (k, j.distinct) :: distinctFields fs

end

mutual

def isFit : Json → Bool
  | unfit => false
  | list items => itemsFit items
  | object fields => fieldsFit fields
  | _ => true

def itemsFit : List Json → Bool
  | [] => true
  | j :: js => j.isFit && itemsFit js

def fieldsFit : List (String × Json) → Bool
  | [] => true
  | (_, j) :: fs => j.isFit && fieldsFit fs

end

end Json

end Parlance
