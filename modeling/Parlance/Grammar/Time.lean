import Parlance.Pattern

/-! Phrases for recent time. A lead-in such as "created in the" belongs to the phrase. -/

namespace Parlance.Grammar

open Pattern

inductive TimePhrase
  | lastN
  | lastUnit
  | yesterday
  | today
  deriving DecidableEq, Repr

def timeLead : Pattern :=
  seq [lead ["created", "added", "registered", "placed", "made", "updated", "joined"],
    lead ["in", "within", "during", "over", "from", "on", "since"], lead ["the"]]

def maybePlural (w : String) : Pattern := both (word w) (optional (word "s"))

def timePhrase (ps : List Pattern) : Pattern := seq ([edge, timeLead] ++ ps ++ [edge])

def TimePhrase.pattern : TimePhrase → Pattern
  | lastN => timePhrase [phrases ["last", "past"], gap, group 1 digits, gap,
      group 2 (oneOf [maybePlural "hour", maybePlural "day", maybePlural "week", maybePlural "month"])]
  | lastUnit => timePhrase [phrases ["last", "past"], gap,
      group 1 (phrases ["hour", "day", "week", "month"])]
  | yesterday => timePhrase [word "yesterday"]
  | today => timePhrase [word "today"]

def TimePhrase.all : List TimePhrase := [lastN, lastUnit, yesterday, today]

end Parlance.Grammar
