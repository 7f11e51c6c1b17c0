import Parlance.Json.Printer

/-! JSON on several lines, one for every element and every field, two blanks deeper than what
it stands in. What is empty stays on one line. -/

namespace Parlance.Json

def line (depth : Nat) : String := String.ofList ('\n' :: List.replicate (2 * depth) ' ')

mutual

def layout (depth : Nat) : Json → String
  | list (j :: js) =>
    "[" ++ line (depth + 1) ++ layout (depth + 1) j ++ layoutItems (depth + 1) js ++ line depth ++ "]"
  | object ((k, j) :: fs) =>
    "\x7b" ++ line (depth + 1) ++ quote k ++ ": " ++ layout (depth + 1) j ++
      layoutFields (depth + 1) fs ++ line depth ++ "\x7d"
  | j => j.write

def layoutItems (depth : Nat) : List Json → String
  | [] => ""
  | j :: js => "," ++ line depth ++ layout depth j ++ layoutItems depth js

def layoutFields (depth : Nat) : List (String × Json) → String
  | [] => ""
  | (k, j) :: fs => "," ++ line depth ++ quote k ++ ": " ++ layout depth j ++ layoutFields depth fs

end

def pretty (j : Json) : String := layout 0 j

end Parlance.Json
