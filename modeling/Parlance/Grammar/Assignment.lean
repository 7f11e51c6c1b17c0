import Parlance.Grammar.Condition

/-! Columns with their values, as they stand in the lists of INSERT and UPDATE requests. -/

namespace Parlance.Grammar

open Pattern

def isAssignSign (c : Char) : Bool := c = '=' || c = ':'

def assignment : Pattern :=
  seq [start, lead ["the", "a", "an"], group columnGroup name,
    oneOf [seq [maybeGap, one isAssignSign, maybeGap], seq [gap, phrases ["is", "as", "to", "of"], gap], gap],
    value]

def assignmentSeparator : Pattern :=
  both start (oneOf [seq [maybeGap, char ',', maybeGap], seq [gap, word "and", gap]])

def valuesCue : Pattern := seq [edge, phrases ["with", "values", "having", "containing"], gap]

def setCue : Pattern := seq [edge, word "set", gap]

def named : Pattern := seq [edge, phrases ["named", "called"], gap, group 1 valueToken]

end Parlance.Grammar
