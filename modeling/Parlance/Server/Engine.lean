import Parlance.Engine.Statement
import Parlance.Server.Link

/-! The engine that works through a connection to a server. Reads give rows, all other
statements a count; a row with a cell that cannot be decoded fails the statement. -/

namespace Parlance.Server

variable (p : Protocol)

/-- Only what keeps a statement from being answered at all is a matter of the connection. -/
def Failure.toError (timeoutMs : Nat) (sql : String) : Failure → Error
  | refused r => if p.timesOut r then .timeout sql timeoutMs else .execution sql (p.refusalText r)
  | dropped => .connection (p.product ++ ": error communicating with database: expected to read "
      ++ toString p.header ++ " bytes, got 0 bytes at EOF")
  | closed => .connection (p.product ++ ": attempted to acquire a connection on a closed pool")

def send (timeoutMs : Nat) (sql : String) (params : List Param) (l : Link) :
    Except Error Answer × Link :=
  match l.exchange sql (params.map p.bind) with
  | (.ok a, l) => (.ok a, l)
  | (.error f, l) => (.error (f.toError p timeoutMs sql), l)

/-- A cell that is absent is null, whatever its type. -/
def cellOf (index : Nat) (c : Described) (value : Option Bytes) : Cell where
  column := c.name
  type := p.typeName c.type
  value := match value with
    | some b => (p.cell c.type b).mapError (·.message index)
    | none => .ok .null

def cellsFrom (index : Nat) : List Described → List (Option Bytes) → List Cell
  | c :: cs, v :: vs => cellOf p index c v :: cellsFrom (index + 1) cs vs
  | c :: cs, [] => cellOf p index c none :: cellsFrom (index + 1) cs []
  | [], _ => []

def columnMeta (c : Described) : ColumnMeta := ⟨c.name, p.typeName c.type⟩

/-- The columns are those of the first row; without rows there are none. -/
def rowsResult (sql : String) (a : Answer) : Except Error ExecutionResult :=
  if a.columns.isEmpty || a.rows.isEmpty then .ok (.ofRows [] [])
  else (collectRows sql (a.rows.map (cellsFrom p 0 a.columns))).map
    (.ofRows (a.columns.map (columnMeta p)))

def resultOf (sql : String) (a : Answer) : Except Error ExecutionResult :=
  if Statement.returnsRows sql.toList then rowsResult p sql a
  else .ok (.affected (p.affected a) (p.lastInsertId a))

def execute (timeoutMs : Nat) (sql : String) (params : List Param) (l : Link) :
    Except Error ExecutionResult × Link :=
  match send p timeoutMs sql params l with
  | (.ok a, l) => (resultOf p sql a, l)
  | (.error e, l) => (.error e, l)

def catalogText (columns : List Described) (row : List (Option Bytes)) (index : Nat) :
    Except String (Option String) :=
  match columns[index]?, (row[index]?).join with
  | none, _ => .error ("column index out of bounds: the len is " ++ toString columns.length ++
      ", but the index is " ++ toString index)
  | some _, none => .ok none
  | some c, some b =>
    if p.isText c.type then (b.text.map some).mapError (decodingColumn index)
    else .error (decodingColumn index
      ("mismatched types; Rust type `alloc::string::String` (as SQL type `" ++ p.textType ++
        "`) is not compatible with SQL type `" ++ p.typeName c.type ++ "`"))

def requiredText (columns : List Described) (row : List (Option Bytes)) (index : Nat) :
    Except String String := do
  match ← catalogText p columns row index with
  | some s => .ok s
  | none => .error (decodingColumn index unexpectedNull)

/-- Table and column of a catalog row. Only the names and the type have to be there. -/
def catalogColumn (columns : List Described) (row : List (Option Bytes)) :
    Except String (String × Column) := do
  let table ← requiredText p columns row 0
  let name ← requiredText p columns row 1
  let type ← requiredText p columns row 2
  let nullable := match requiredText p columns row 3 with
    | .ok s => s = "YES"
    | .error _ => true
  let default := match catalogText p columns row 4 with
    | .ok s => s
    | .error _ => none
  .ok (table, ⟨name, type, nullable, false, default⟩)

def catalogSchema (a : Answer) : Except String Schema := do
  let columns ← a.rows.mapM (catalogColumn p a.columns)
  .ok (columns.foldl (fun s c => s.push c.1 c.2) .empty)

def introspect (timeoutMs : Nat) (table : Option String) (l : Link) : Except Error Schema × Link :=
  let sql := p.catalog table.isSome
  match send p timeoutMs sql (table.map Param.text).toList l with
  | (.ok a, l) => ((catalogSchema p a).mapError (.execution sql), l)
  | (.error e, l) => (.error e, l)

def healthy (l : Link) : Bool × Link :=
  match l.exchange livenessTest [] with
  | (.ok _, l) => (true, l)
  | (.error _, l) => (false, l)

def engine (timeoutMs : Nat) : Engine Link where
  name := p.dialect.text
  capabilities := .of p.dialect
  execute := execute p timeoutMs
  introspect := introspect p timeoutMs
  healthy := healthy
  close l := { l with closed := true }

def connectionRefused (r : Refusal) : Error :=
  .connection ("Failed to connect to " ++ p.product ++ ": " ++ p.refusalText r)

/-- A connection counts once the server has passed the liveness test. -/
def connect (refusal probe : Option Refusal) : Except Error Link :=
  match refusal, probe with
  | some r, _ => .error (connectionRefused p r)
  | none, some r => .error (.connection (p.product ++ " connection test failed: " ++ p.refusalText r))
  | none, none => .ok .fresh

end Parlance.Server
