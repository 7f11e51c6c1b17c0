import Parlance.Text.Basic

/-! English plurals by suffix. The rules are simple ones: enough to lead from "user" to a
table of users and from "categories" to one named for a category. -/

namespace Parlance.Inflection

open Text (lower size)

def endsIn (suffix : String) (cs : List Char) : Bool := suffix.toList.isSuffixOf cs

def endsInAny (suffixes : List String) (cs : List Char) : Bool := suffixes.any (endsIn · cs)

def isVowel (c : Char) : Bool := c = 'a' || c = 'e' || c = 'i' || c = 'o' || c = 'u'

def vowelBeforeLast (cs : List Char) : Bool := cs.reverse.tail.head?.any isVowel

def dropLast (n : Nat) (cs : List Char) : List Char := cs.take (cs.length - n)

def pluralize (w : List Char) : List Char :=
  let l := lower w
  if endsIn "y" l && !vowelBeforeLast l then dropLast 1 w ++ "ies".toList
  else if endsInAny ["s", "x", "z", "ch", "sh"] l then w ++ "es".toList
  else w ++ "s".toList

def singularize (w : List Char) : List Char :=
  let l := lower w
  if endsIn "ies" l && 3 < size w then dropLast 3 w ++ "y".toList
  else if endsInAny ["ses", "xes", "zes", "ches", "shes"] l then dropLast 2 w
  else if endsIn "s" l && !endsIn "ss" l && 1 < size w then dropLast 1 w
  else w

def addForm (forms : List (List Char)) (form : List Char) : List (List Char) :=
  if form ∈ forms then forms else forms ++ [form]

/-- The word as it stands, its plural and its singular, each form once. -/
def candidates (w : List Char) : List (List Char) := [pluralize w, singularize w].foldl addForm [w]

end Parlance.Inflection
