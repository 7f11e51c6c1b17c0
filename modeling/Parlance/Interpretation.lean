import Parlance.Grammar.Verb
import Parlance.Similarity
import Parlance.Interpretation.Clause
import Parlance.Interpretation.Condition
import Parlance.Interpretation.Table
import Parlance.Interpretation.Values
import Parlance.Interpretation.Window
import Parlance.Intent.Render

/-! Interpreting a request as an intent. The parts are taken from the text in a fixed order:
verb, time window, table, id, and then the clauses of the kind of statement that the verb
asks for. A request that has neither a verb nor a table in it is not understood, and one with
a verb but no word for a table is refused. -/

namespace Parlance

structure Interpreter where
  dialect : Dialect
  /-- Columns that date the rows of a table, by the table's name in lower case. -/
  timestamps : List (String × String)

structure Interpretation where
  sql : String
  operation : Operation
  source : String
  table : String
  known : Bool
  intent : Intent
  warnings : List String

namespace Interpreter

open Interpretation

def ofDialect (d : Dialect) : Interpreter := ⟨d, []⟩

def lowerKey (s : String) : String := String.ofList (Text.lower s.toList)

/-- A later entry for a table replaces an earlier one. -/
def withTimestamps (t : Interpreter) (entries : List (String × String)) : Interpreter :=
  { t with timestamps := entries.foldl (fun ts e => (lowerKey e.1, e.2) :: ts) t.timestamps }

/-- Blanks become single spaces, and closing marks at the end are dropped. -/
def normalize (cs : List Char) : List Char :=
  Text.trimEnd (Text.dropEndWhile (fun c => c = '?' || c = '.' || c = '!') (Text.squeeze (Text.trim cs)))

/-- The configured column for a table, or else the one that its schema shows. An unknown table
is expected to have the usual one. -/
def timestampColumn? (t : Interpreter) (s : Subject) : Option String :=
  match t.timestamps.lookup (lowerKey s.table) with
  | some c => some c
  | none => if s.known then s.schema.timestampColumn? s.table else some "created_at"

def unknownTableWarning (table : String) (s : Schema) : String :=
  match Similarity.closest? 0.8 table.toList s.names with
  | some name => "Table '" ++ table ++ "' not found in schema (did you mean '" ++ name ++ "'?)"
  | none => "Table '" ++ table ++ "' not found in schema; using it as written"

def noTimeFilterWarning (table : String) : String :=
  "Table '" ++ table ++ "' has no timestamp column; time filter ignored"

def plainLimitWarning (table : String) : String :=
  "Table '" ++ table ++ "' has no timestamp column; 'latest' applied as a plain LIMIT"

def placeholderWarning (o : Operation) : String :=
  "Could not extract column values for " ++ o.text
    ++ "; the generated SQL contains placeholders to complete manually"

/-- The id comes first, then the conditions, then the time window. -/
def takeFilter (s : Subject) (id recency : Option Predicate) (ws : Workspace) :
    Except Error (Filter × Workspace) := do
  let (conditions, ws) ← (takeConditions s ws).kept
  let term (p : Predicate) : Connective × Predicate := (.and, p)
  .ok (Filter.flattened (id.toList.map term ++ conditions ++ recency.toList.map term), ws)

/-- "latest n" limits the rows and, unless an order is given, orders them by time. -/
def applyLatest (t : Interpreter) (s : Subject) (latest : Option Nat) (limit : Option Nat)
    (order : Option SortOrder) : Option Nat × Option SortOrder × List String :=
  match latest with
  | none => (limit, order, [])
  | some n =>
    let limit := limit.or (some n)
    match order, t.timestampColumn? s with
    | some o, _ => (limit, some o, [])
    | none, some column => (limit, some ⟨column, true⟩, [])
    | none, none => (limit, none, [plainLimitWarning s.table])

/-- The clauses of a read, the warnings, and what is left of the text. -/
def takeRead (t : Interpreter) (s : Subject) (count : Bool) (id recency : Option Predicate)
    (ws : Workspace) : Except Error (ReadClauses × List String × Workspace) := do
  let (filter, ws) ← takeFilter s id recency ws
  let (groupBy, ws) ← (takeGroupBy s count ws).kept
  let (order, ws) ← (takeOrderBy s count ws).kept
  let (limit, ws) := takeLimit ws
  let (latest, ws) := takeLatest ws
  let (limit, order, warnings) := t.applyLatest s latest limit order
  .ok (⟨filter, groupBy, order, limit⟩, warnings, ws)

def takeIntent (t : Interpreter) (s : Subject) (o : Operation) (verbEnd tableEnd : Nat)
    (id recency : Option Predicate) (ws : Workspace) : Except Error (Intent × List String) := do
  match o with
  | .insert =>
    let (values, _) ← (takeInsertValues s tableEnd ws).kept
    .ok (.insert s.table values, [])
  | .update =>
    -- Conditions are looked for in what the list of pairs leaves.
    let (values, ws) ← (takeSet s ws).kept
    let (filter, _) ← takeFilter s id recency ws
    .ok (.update s.table values filter, [])
  | .delete =>
    let (filter, _) ← takeFilter s id recency ws
    .ok (.delete s.table filter, [])
  | .count =>
    let (clauses, warnings, _) ← t.takeRead s true id recency ws
    .ok (.count s.table clauses, warnings)
  | .select =>
    let (clauses, warnings, ws) ← t.takeRead s false id recency ws
    .ok (.select s.table (columnsLeft s verbEnd ws) clauses, warnings)

/-- The window as a predicate, with a warning where there is no column for it. -/
def recencyOf (t : Interpreter) (s : Subject) : Option TimeWindow → Option Predicate × List String
  | none => (none, [])
  | some w =>
    match t.timestampColumn? s with
    | some column => (some (.recency column w), [])
    | none => (none, [noTimeFilterWarning s.table])

/-- The table of the request. Without a verb only a table of the schema will do. -/
def subjectOf (text : String) (verb : Bool) : Option TableMatch → Except Error TableMatch
  | some m => if m.known || verb then .ok m else .error (.unrecognizedIntent text)
  | none => .error (if verb then .unresolvedTable text else .unrecognizedIntent text)

def takeVerb (ws : Workspace) (verbEnd : Nat) : Workspace :=
  if 0 < verbEnd then ws.take ⟨0, verbEnd⟩ else ws

def windowFor (o : Operation) (ws : Workspace) : Taken (Option TimeWindow) :=
  if o = .insert then (.ok none, ws) else takeWindow ws

def idFor (o : Operation) (s : Subject) (tableEnd : Nat) (ws : Workspace) :
    Option Predicate × Workspace :=
  if o = .insert then (none, ws) else takeId s tableEnd ws

def interpret (t : Interpreter) (text : String) (schema : Schema) : Except Error Interpretation := do
  let normal := normalize text.toList
  if normal.isEmpty then throw (.unrecognizedIntent text)
  let verb := Grammar.detect? normal
  let (operation, verbEnd) := verb.getD (.select, 0)
  -- The words of a time phrase are gone before a table is looked for among those that are left.
  let (window, ws) ← (windowFor operation (takeVerb ⟨normal⟩ verbEnd)).kept
  let m ← subjectOf text verb.isSome (resolveTable? ws verbEnd schema)
  let s : Subject := ⟨schema, m.name, m.known⟩
  let (id, ws) := idFor operation s m.span.stop (ws.take m.span)
  let (recency, timeWarnings) := t.recencyOf s window
  let (intent, warnings) ← t.takeIntent s operation verbEnd m.span.stop id recency ws
  .ok {
    sql := intent.sql t.dialect
    operation := operation
    source := text
    table := m.name
    known := m.known
    intent := intent
    warnings := (if m.known then [] else [unknownTableWarning m.name schema]) ++ timeWarnings ++ warnings
      ++ (if intent.hasPlaceholders then [placeholderWarning operation] else []) }

end Interpreter

end Parlance
