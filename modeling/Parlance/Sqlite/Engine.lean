import Parlance.Engine
import Parlance.Engine.Statement
import Parlance.Operation
import Parlance.Sqlite.Execution

/-! The engine that works on a database of its own. A statement that gives rows is read, any
other is executed for its count; which of the two is judged from its text. -/

namespace Parlance.Sqlite

structure State where
  database : Database
  closed : Bool

def State.new (db : Database) : State := ⟨db, false⟩

structure Settings where
  timeoutMs : Nat
  /-- Seconds since the beginning of 1970. -/
  now : Int

def Settings.runtime (s : Settings) (db : Database) (params : List Param) : Runtime where
  database := db
  params := params.map .ofParam
  now := s.now
  budget := 100 * s.timeoutMs
  working := []

/-- The declared type of a column, or else the storage class of its first value that is not null. -/
def engineType (c : PlanColumn) (values : List Value) : String :=
  c.type.getD ((values.findSome? Value.storageClass).getD "")

def columnMeta (columns : List PlanColumn) (rows : List (List Value)) : List ColumnMeta :=
  columns.zipIdx.map fun p => ⟨p.1.name, engineType p.1 (rows.filterMap fun r => r[p.2]?)⟩

def rowOf (columns : List PlanColumn) (values : List Value) : Parlance.Row :=
  (columns.zip values).foldl (fun row p => Json.insertField p.1.name p.2.toJson row) []

def rowsResult (columns : List PlanColumn) (rows : List (List Value)) : ExecutionResult :=
  .ofRows (columnMeta columns rows) (rows.map (rowOf columns))

/-- Rows, once all of them are found. -/
def readResult (o : Outcome) : Except Fault ExecutionResult :=
  match o with
  | .rows columns found => if found.complete then .ok (rowsResult columns found.rows) else .error .endless
  | .done => .ok (.ofRows [] [])

/-- A count; the first row that comes instead is a fault. -/
def writeResult (sql : List Char) (db : Database) (o : Outcome) : Except Fault ExecutionResult :=
  let count := ExecutionResult.affected db.changes
    (if Operation.ofStatement? sql = some .insert then some db.lastRowid else none)
  match o with
  | .rows _ found =>
    if !found.rows.isEmpty then .error .givesRows
    else if found.complete then .ok count
    else .error .endless
  | .done => .ok count

def resultOf (sql : List Char) (db : Database) (o : Outcome) : Except Fault ExecutionResult :=
  if Statement.returnsRows sql then readResult o else writeResult sql db o

def Fault.toError (s : Settings) (sql : String) (f : Fault) : Error :=
  if f = .endless then .timeout sql s.timeoutMs else .execution sql (f.message sql)

def isClosed : Error := .connection "SQLite connection is closed"

def execute (s : Settings) (sql : String) (params : List Param) (state : State) :
    Except Error ExecutionResult × State :=
  if state.closed then (.error isClosed, state)
  else
    let (o, db) := Database.run sql.toList (s.runtime state.database params)
    ((o.bind (resultOf sql.toList db)).mapError (Fault.toError s sql), { state with database := db })

def columnsOf (t : StoredTable) : List Column :=
  t.columns.zipIdx.map fun p => {
    name := p.1.name
    declaredType := p.1.type
    nullable := !p.1.notNull
    isPrimaryKey := t.primaryKey.contains p.2
    defaultValue := p.1.default.map (·.2) }

/-- Tables of the engine itself are not shown. -/
def isShown (t : StoredTable) : Bool :=
  !(("sqlite".toList.isPrefixOf (Text.asciiLower t.name.toList)) && 6 < t.name.length)

def schemaOf (ts : List StoredTable) : Schema := .ofTables (ts.map fun t => (t.name, columnsOf t))

/-- One table in any case of letters, or all tables. -/
def introspect (table : Option String) (state : State) : Except Error Schema × State :=
  if state.closed then (.error isClosed, state)
  else match table with
  | some name => (.ok (schemaOf (state.database.find? name).toList), state)
  | none => (.ok (schemaOf (state.database.tables.filter isShown)), state)

def engine (s : Settings) : Engine State where
  name := Dialect.sqlite.text
  capabilities := .of .sqlite
  execute := execute s
  introspect := introspect
  healthy state := (!state.closed, state)
  close state := { state with closed := true }

end Parlance.Sqlite
