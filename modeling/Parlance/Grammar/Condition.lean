import Parlance.Intent
import Parlance.Pattern

/-! The forms of a single condition, the most specific first: "is not" is tried before "is".
Each form is anchored to the place where it is applied. -/

namespace Parlance.Grammar

open Pattern

inductive ConditionForm
  | isNotNull
  | isNull
  | compare (op : Comparison)
  | like (mode : LikeMode)
  /-- A column and a value with nothing between them. -/
  | implicit
  deriving DecidableEq, Repr

def columnGroup : Nat := 1
def valueGroup : Nat := 2

/-- A name, with an article or possessive before it or not. -/
def columnName : Pattern := both (lead ["the", "a", "an", "their", "its"]) (group columnGroup name)

def notQuote (q c : Char) : Bool := c ≠ q
def isBare (c : Char) : Bool := !Text.isBlank c && c ≠ ','

/-- A quoted value, or a run without blanks and commas. -/
def valueToken : Pattern :=
  oneOf [seq [char '\'', many (notQuote '\''), char '\''], seq [char '"', many (notQuote '"'), char '"'],
    some1 isBare]

def value : Pattern := group valueGroup valueToken

def symbol (s : String) : Pattern := seq (s.toList.map char)

/-- Operator words with a blank on either side. -/
def spaced (ws : List String) : Pattern := seq [blank, phrases ws, blank]

def nullForm (ws : List String) : Pattern := seq [start, columnName, gap, phrases ws, edge]

def operatorForm (ops : List Pattern) : Pattern :=
  seq [start, columnName, maybeGap, oneOf ops, maybeGap, value]

def conditionForms : List (ConditionForm × Pattern) := [
  (.isNotNull, nullForm ["is not null", "is not empty", "is set"]),
  (.isNull, nullForm ["is null", "is empty", "is missing"]),
  (.compare .notEqual, operatorForm [symbol "!=", symbol "<>",
    spaced ["is not", "isn't", "does not equal", "not equal to", "not"]]),
  (.compare .greaterEqual, operatorForm [symbol ">=",
    spaced ["is greater than or equal to", "greater than or equal to", "is at least", "at least"]]),
  (.compare .lessEqual, operatorForm [symbol "<=",
    spaced ["is less than or equal to", "less than or equal to", "is at most", "at most"]]),
  (.compare .greater, operatorForm [symbol ">",
    spaced ["is greater than", "greater than", "is more than", "more than", "is above", "above",
      "is over", "over", "is after", "after", "exceeds"]]),
  (.compare .less, operatorForm [symbol "<",
    spaced ["is less than", "less than", "fewer than", "is below", "below", "is under", "under",
      "is before", "before"]]),
  (.like .startsWith, operatorForm [spaced ["starts with", "starting with", "begins with",
    "beginning with"]]),
  (.like .endsWith, operatorForm [spaced ["ends with", "ending with"]]),
  (.like .contains, operatorForm [spaced ["contains", "containing", "includes", "including",
    "is like", "like", "matches", "matching"]]),
  (.compare .equal, operatorForm [symbol "==", symbol "=",
    spaced ["is equal to", "equal to", "equals", "is"]]),
  (.implicit, seq [start, columnName, gap, value])]

def conditionCue : Pattern :=
  seq [edge, phrases ["where", "whose", "with", "having", "that have", "that has", "which have",
    "which has"], gap]

def connective : Pattern := seq [start, gap, group 1 (phrases ["and", "or"]), gap]

end Parlance.Grammar
