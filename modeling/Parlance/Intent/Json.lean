import Parlance.Intent
import Parlance.Json.Decode

/-! Intents as JSON, both ways. Every variant is written under its name; reading is refused
where a part is missing, repeated or of another type. The depth of a filter is bounded by the
depth of its JSON, on which reading recurses. -/

namespace Parlance

open Json (record? variant? unit? text? bool? word32? word64? listOf? optional? tagged field)

def Dialect.ofJson? (j : Json) : Option Dialect := (unit? j).bind Dialect.ofText?
def TimeUnit.ofJson? (j : Json) : Option TimeUnit := (unit? j).bind TimeUnit.ofText?
def Operation.ofJson? (j : Json) : Option Operation := (unit? j).bind Operation.ofText?

def TimeWindow.toJson : TimeWindow → Json
  | today => .text "Today"
  | yesterday => .text "Yesterday"
  | last amount unit => tagged "Last" (.object [field "amount" (.nat amount), field "unit" (.text unit.text)])

def lastOfJson? (j : Json) : Option TimeWindow := do
  match ← record? [("amount", .required), ("unit", .required)] j with
  | [some amount, some unit] => some (.last (← word32? amount) (← TimeUnit.ofJson? unit))
  | _ => none

def TimeWindow.ofJson? (j : Json) : Option TimeWindow := do
  match ← variant? j with
  | ("Today", none) | ("Today", some .null) => some today
  | ("Yesterday", none) | ("Yesterday", some .null) => some yesterday
  | ("Last", some content) => lastOfJson? content
  | _ => none

def Literal.toJson : Literal → Json
  | number digits => tagged "Number" (.text digits)
  | text content => tagged "Text" (.text content)
  | boolean value => tagged "Boolean" (.bool value)

def Literal.ofJson? (j : Json) : Option Literal := do
  match ← variant? j with
  | ("Number", some content) => (text? content).map number
  | ("Text", some content) => (text? content).map text
  | ("Boolean", some content) => (bool? content).map boolean
  | _ => none

def Comparison.text : Comparison → String
  | equal => "Eq"
  | notEqual => "NotEq"
  | greater => "Gt"
  | greaterEqual => "Gte"
  | less => "Lt"
  | lessEqual => "Lte"

def Comparison.all : List Comparison := [equal, notEqual, greater, greaterEqual, less, lessEqual]

def Comparison.ofJson? (j : Json) : Option Comparison :=
  (unit? j).bind fun s => all.find? (·.text = s)

def LikeMode.text : LikeMode → String
  | contains => "Contains"
  | startsWith => "StartsWith"
  | endsWith => "EndsWith"

def LikeMode.all : List LikeMode := [contains, startsWith, endsWith]

def LikeMode.ofJson? (j : Json) : Option LikeMode := (unit? j).bind fun s => all.find? (·.text = s)

def Connective.text : Connective → String
  | and => "And"
  | or => "Or"

def Connective.all : List Connective := [and, or]

def Connective.ofJson? (j : Json) : Option Connective := (unit? j).bind fun s => all.find? (·.text = s)

mutual

def Predicate.toJson : Predicate → Json
  | .compare column op value => tagged "Compare" (.object
      [field "column" (.text column), field "op" (.text op.text), field "value" value.toJson])
  | .like column mode pattern => tagged "Like" (.object
      [field "column" (.text column), field "mode" (.text mode.text), field "pattern" (.text pattern)])
  | .isNull column negated => tagged "IsNull" (.object
      [field "column" (.text column), field "negated" (.bool negated)])
  | .recency column window => tagged "Recency" (.object
      [field "column" (.text column), field "window" window.toJson])
  | .group terms => tagged "Group" (.object [field "terms" (.list (termsToJson terms))])

def termsToJson : List (Connective × Predicate) → List Json
  | [] => []
  | (c, p) :: terms => .list [.text c.text, p.toJson] :: termsToJson terms

end

def Filter.toJson (f : Filter) : Json := .object [field "terms" (.list (termsToJson f))]

def compareOfJson? (j : Json) : Option Predicate := do
  match ← record? [("column", .required), ("op", .required), ("value", .required)] j with
  | [some column, some op, some value] =>
    some (.compare (← text? column) (← Comparison.ofJson? op) (← Literal.ofJson? value))
  | _ => none

def likeOfJson? (j : Json) : Option Predicate := do
  match ← record? [("column", .required), ("mode", .required), ("pattern", .required)] j with
  | [some column, some mode, some pattern] =>
    some (.like (← text? column) (← LikeMode.ofJson? mode) (← text? pattern))
  | _ => none

def isNullOfJson? (j : Json) : Option Predicate := do
  match ← record? [("column", .required), ("negated", .required)] j with
  | [some column, some negated] => some (.isNull (← text? column) (← bool? negated))
  | _ => none

def recencyOfJson? (j : Json) : Option Predicate := do
  match ← record? [("column", .required), ("window", .required)] j with
  | [some column, some window] => some (.recency (← text? column) (← TimeWindow.ofJson? window))
  | _ => none

def termList? (j : Json) : Option (List Json) := do
  match ← record? [("terms", .required)] j with
  | [some (.list items)] => some items
  | _ => none

/-- A bound on the depth of groups. -/
def predicateAt? : Nat → Json → Option Predicate
  | 0, _ => none
  | depth + 1, j => do
    match ← variant? j with
    | ("Compare", some content) => compareOfJson? content
    | ("Like", some content) => likeOfJson? content
    | ("IsNull", some content) => isNullOfJson? content
    | ("Recency", some content) => recencyOfJson? content
    | ("Group", some content) =>
      let terms ← (← termList? content).mapM fun
        | .list [c, p] => do some (← Connective.ofJson? c, ← predicateAt? depth p)
        | _ => none
      some (.group terms)
    | _ => none

mutual

def Json.depth : Json → Nat
  | .list items => depthOfItems items + 1
  | .object fields => depthOfFields fields + 1
  | _ => 1

def depthOfItems : List Json → Nat
  | [] => 0
  | j :: js => max j.depth (depthOfItems js)

def depthOfFields : List (String × Json) → Nat
  | [] => 0
  | (_, j) :: fs => max j.depth (depthOfFields fs)

end

def Predicate.ofJson? (j : Json) : Option Predicate := predicateAt? j.depth j

def termOfJson? : Json → Option (Connective × Predicate)
  | .list [c, p] => do some (← Connective.ofJson? c, ← Predicate.ofJson? p)
  | _ => none

def Filter.ofJson? (j : Json) : Option Filter := do (← termList? j).mapM termOfJson?

def SortOrder.toJson (o : SortOrder) : Json :=
  .object [field "column" (.text o.column), field "descending" (.bool o.descending)]

def SortOrder.ofJson? (j : Json) : Option SortOrder := do
  match ← record? [("column", .required), ("descending", .required)] j with
  | [some column, some descending] => some ⟨← text? column, ← bool? descending⟩
  | _ => none

def ReadClauses.toJson (c : ReadClauses) : Json := .object [
  field "filter" c.filter.toJson,
  field "group_by" (Json.ofOption .text c.groupBy),
  field "order_by" (Json.ofOption SortOrder.toJson c.orderBy),
  field "limit" (Json.ofOption .nat c.limit)]

def ReadClauses.ofJson? (j : Json) : Option ReadClauses := do
  match ← record? [("filter", .required), ("group_by", .nullable), ("order_by", .nullable),
      ("limit", .nullable)] j with
  | [some filter, groupBy, orderBy, limit] => some {
      filter := ← Filter.ofJson? filter
      groupBy := ← optional? text? groupBy
      orderBy := ← optional? SortOrder.ofJson? orderBy
      limit := ← optional? word64? limit }
  | _ => none

def Assignment.toJson (a : Assignment) : Json :=
  .object [field "column" (.text a.column), field "value" a.value.toJson]

def Assignment.ofJson? (j : Json) : Option Assignment := do
  match ← record? [("column", .required), ("value", .required)] j with
  | [some column, some value] => some ⟨← text? column, ← Literal.ofJson? value⟩
  | _ => none

namespace Intent

def toJson : Intent → Json
  | select table columns clauses => tagged "Select" (.object
      [field "table" (.text table), field "columns" (.texts columns), field "clauses" clauses.toJson])
  | count table clauses => tagged "Count" (.object
      [field "table" (.text table), field "clauses" clauses.toJson])
  | insert table values => tagged "Insert" (.object
      [field "table" (.text table), field "values" (.ofList Assignment.toJson values)])
  | update table assignments filter => tagged "Update" (.object
      [field "table" (.text table), field "assignments" (.ofList Assignment.toJson assignments),
        field "filter" filter.toJson])
  | delete table filter => tagged "Delete" (.object
      [field "table" (.text table), field "filter" filter.toJson])

def selectOfJson? (j : Json) : Option Intent := do
  match ← record? [("table", .required), ("columns", .required), ("clauses", .required)] j with
  | [some table, some columns, some clauses] =>
    some (select (← text? table) (← listOf? text? columns) (← ReadClauses.ofJson? clauses))
  | _ => none

def countOfJson? (j : Json) : Option Intent := do
  match ← record? [("table", .required), ("clauses", .required)] j with
  | [some table, some clauses] => some (count (← text? table) (← ReadClauses.ofJson? clauses))
  | _ => none

def insertOfJson? (j : Json) : Option Intent := do
  match ← record? [("table", .required), ("values", .required)] j with
  | [some table, some values] => some (insert (← text? table) (← listOf? Assignment.ofJson? values))
  | _ => none

def updateOfJson? (j : Json) : Option Intent := do
  match ← record? [("table", .required), ("assignments", .required), ("filter", .required)] j with
  | [some table, some assignments, some filter] =>
    some (update (← text? table) (← listOf? Assignment.ofJson? assignments) (← Filter.ofJson? filter))
  | _ => none

def deleteOfJson? (j : Json) : Option Intent := do
  match ← record? [("table", .required), ("filter", .required)] j with
  | [some table, some filter] => some (delete (← text? table) (← Filter.ofJson? filter))
  | _ => none

def ofJson? (j : Json) : Option Intent := do
  match ← variant? j with
  | ("Select", some content) => selectOfJson? content
  | ("Count", some content) => countOfJson? content
  | ("Insert", some content) => insertOfJson? content
  | ("Update", some content) => updateOfJson? content
  | ("Delete", some content) => deleteOfJson? content
  | _ => none

end Intent

end Parlance
