import Parlance.Grammar.Filler
import Parlance.Intent
import Parlance.Interpretation.Workspace

/-! The short clauses: an id behind the table, grouping, ordering, limits and the columns to
show. -/

namespace Parlance.Interpretation

open Grammar (isFiller isOneOf)

/-- A number right behind the table is an id, if the table has one. -/
def takeId (s : Subject) (tableEnd : Nat) (ws : Workspace) : Option Predicate × Workspace :=
  if !s.hasId then (none, ws)
  else
    match Grammar.idShorthand.find? (ws.after tableEnd) with
    | none => (none, ws)
    | some h =>
      let column := (s.column? "id".toList).getD "id"
      let number := String.ofList ((h.text? 1).getD [])
      (some (.compare column .equal (.number number)), ws.take (h.span.shift tableEnd))

def orderWords : List String := ["order", "ordered", "sort", "sorted", "sorts"]

/-- The last word before byte `n`. -/
def wordBefore (n : Nat) (cs : List Char) : List Char := ((Text.words (Text.takeTo n cs)).getLast?).getD []

/-- "by" and "per" alone group only where that is allowed, and "by" not behind an ordering
word. -/
def isGrouping (bare : Bool) (cs : List Char) (h : Pattern.Hit) : Bool :=
  let keyword := Text.lower ((h.text? 1).getD [])
  let by_ := keyword = "by".toList
  let short := by_ || keyword = "per".toList
  !(short && !bare) && !(by_ && isOneOf orderWords (wordBefore h.span.start cs))

def takeGroupBy (s : Subject) (bare : Bool) (ws : Workspace) : Taken (Option String) :=
  match (Grammar.groupBy.hits ws.text).find? (isGrouping bare ws.text) with
  | none => (.ok none, ws)
  | some h =>
    match s.resolve ((h.text? 2).getD []) with
    | .ok column => (.ok (some column), ws.take h.span)
    | .error e => (.error e, ws)

def startsDescending (w : List Char) : Bool := "desc".toList.isPrefixOf (Text.lower w)

/-- A count can be ordered by itself. -/
def orderColumn (s : Subject) (count : Bool) (w : List Char) : Except Error String :=
  if count && Text.sameWord w "count".toList then .ok "count" else s.resolve w

def takeOrderBy (s : Subject) (count : Bool) (ws : Workspace) : Taken (Option SortOrder) :=
  match Grammar.orderBy.find? ws.text with
  | none => (.ok none, ws)
  | some h =>
    match orderColumn s count ((h.text? 1).getD []) with
    | .ok column => (.ok (some ⟨column, (h.text? 2).any startsDescending⟩), ws.take h.span)
    | .error e => (.error e, ws)

/-- A number that does not fit is left in the text. -/
def takeNumber (p : Pattern) (ws : Workspace) : Option Nat × Workspace :=
  match p.find? ws.text with
  | none => (none, ws)
  | some h =>
    match (h.text? 1).bind Number.readWord64? with
    | some n => (some n, ws.take h.span)
    | none => (none, ws)

def takeLimit (ws : Workspace) : Option Nat × Workspace := takeNumber Grammar.limit ws
def takeLatest (ws : Workspace) : Option Nat × Workspace := takeNumber Grammar.latest ws

def addColumn (cs : List String) (c : String) : List String := if c ∈ cs then cs else cs ++ [c]

/-- The columns of a known table among the words that are left, each once. -/
def columnsLeft (s : Subject) (verbEnd : Nat) (ws : Workspace) : List String :=
  (((ws.words verbEnd).filter (!isFiller ·)).filterMap s.column?).foldl addColumn []

end Parlance.Interpretation
