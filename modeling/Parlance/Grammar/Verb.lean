import Parlance.Operation
import Parlance.Pattern

/-! The opening words of a request tell which kind of statement it asks for. The kinds are
tried in a fixed order, so that counting is recognised before showing. -/

namespace Parlance.Grammar

open Pattern

structure Verb where
  operation : Operation
  opening : Pattern
  grammar : String

def countOpening : Pattern :=
  oneOf [word "count", phrase "how many", seq [lead ["the"], lead ["total"], phrase "number of"]]

def opens (p : Pattern) : Pattern := seq [start, p, edge]

def verbs : List Verb := [
  ⟨.count, opens countOpening, "count <table> | how many <table> | number of <table>"⟩,
  ⟨.insert, opens (phrases ["insert", "add", "create"]),
    "insert|add|create [a new] <table> [named <value>] [with <column> <value> ...]"⟩,
  ⟨.update, opens (phrases ["update", "change", "modify"]),
    "update <table> set <column> to <value> [where <condition>]"⟩,
  ⟨.delete, opens (phrases ["delete", "remove", "drop"]),
    "delete|remove <table> [where <condition>]"⟩,
  ⟨.select,
    both (opens (phrases ["show", "get", "find", "list", "display", "select", "fetch", "give", "view"]))
      (optional (seq [gap, word "me", edge])),
    "show|get|find|list <table> [where <condition>] [order by <column>] [limit <n>]"⟩]

/-- The kind that the text opens with, and where its words end. -/
def detect? (cs : List Char) : Option (Operation × Nat) :=
  verbs.findSome? fun v => (v.opening.find? cs).map fun h => (v.operation, h.span.stop)

def supported : List String := verbs.map (·.grammar)

end Parlance.Grammar
