import Parlance.Sqlite.Fault
import Parlance.Sqlite.Statement

/-! Stored tables. Rows are kept in the order of their numbers; a column that is the integer
primary key is another name for the number. A row is accepted if no column lacks a value that
it must have and no other row has the same key. -/

namespace Parlance.Sqlite

structure Record where
  rowid : Int
  values : List Value

structure StoredColumn where
  name : String
  type : String
  notNull : Bool
  default : Option (Expr × String)

def StoredColumn.affinity (c : StoredColumn) : Affinity := .ofType c.type

structure StoredTable where
  name : String
  columns : List StoredColumn
  /-- The place of the column that is the number of the row. -/
  rowidColumn : Option Nat
  primaryKey : List Nat
  /-- Sets of columns, by their places, in which no two rows agree. -/
  uniques : List (List Nat)
  autoincrement : Bool
  /-- The largest number ever given, where numbers are not used again. -/
  highest : Int
  records : List Record

structure Database where
  tables : List StoredTable
  /-- Rows changed by the last statement that changes rows. -/
  changes : Nat
  lastRowid : Int

def sameName (a b : String) : Bool := Text.sameWord a.toList b.toList

def Database.empty : Database := ⟨[], 0, 0⟩

def Database.find? (db : Database) (name : String) : Option StoredTable :=
  db.tables.find? fun t => sameName t.name name

def Database.replace (db : Database) (t : StoredTable) : Database :=
  { db with tables := db.tables.map fun u => if sameName u.name t.name then t else u }

def placeFrom (name : String) (n : Nat) : List StoredColumn → Option Nat
  | [] => none
  | c :: cs => if sameName c.name name then some n else placeFrom name (n + 1) cs

namespace StoredTable

def place? (t : StoredTable) (name : String) : Option Nat := placeFrom name 0 t.columns

def columnName (t : StoredTable) (i : Nat) : String :=
  t.name ++ "." ++ ((t.columns[i]?).map (·.name)).getD "rowid"

/-- The number for the next row: one more than that of the last, or one. -/
def nextRowid (t : StoredTable) : Int :=
  let next := ((t.records.getLast?).map (·.rowid + 1)).getD 1
  if t.autoincrement then max next (t.highest + 1) else next

def insertSorted (r : Record) : List Record → List Record
  | [] => [r]
  | s :: rs => if r.rowid < s.rowid then r :: s :: rs else s :: insertSorted r rs

def put (t : StoredTable) (r : Record) : StoredTable :=
  { t with records := insertSorted r t.records, highest := max t.highest r.rowid }

def remove (t : StoredTable) (rowid : Int) : StoredTable :=
  { t with records := t.records.filter (·.rowid ≠ rowid) }

/-- The number that a row has or gets. -/
def rowidOf (t : StoredTable) (values : List Value) : Except Fault Int :=
  match t.rowidColumn with
  | none => .ok t.nextRowid
  | some i =>
    match Value.apply .integer ((values[i]?).getD .null) with
    | .null => .ok t.nextRowid
    | .int n => .ok n
    | _ => .error .mismatch

/-- Every value as its column prefers it. -/
def conform (t : StoredTable) (rowid : Int) (values : List Value) : Record :=
  let vs := List.zipWith (fun c v => Value.apply c.affinity v) t.columns values
  ⟨rowid, match t.rowidColumn with
    | some i => vs.set i (.int rowid)
    | none => vs⟩

/-- The first column that must have a value and has none. -/
def missing? (t : StoredTable) (r : Record) : Option Nat :=
  (List.range t.columns.length).find? fun i =>
    (t.columns[i]?).any (·.notNull) && ((r.values[i]?).getD .null).isNull

def agree (key : List Nat) (a b : Record) : Bool :=
  key.all fun i =>
    match a.values[i]?, b.values[i]? with
    | some v, some w => !v.isNull && v.order w == .eq
    | _, _ => false

/-- The records that exclude `r`, with the columns in which they do. -/
def rivals (t : StoredTable) (r : Record) : List (List Nat × Record) :=
  let byNumber := (t.records.filter (·.rowid = r.rowid)).map fun s => (t.rowidColumn.toList, s)
  byNumber ++ t.uniques.flatMap fun key => (t.records.filter (agree key r)).map fun s => (key, s)

def uniqueFault (t : StoredTable) (key : List Nat) : Fault :=
  .unique (if key.isEmpty then [t.name ++ ".rowid"] else key.map t.columnName)

def mendValue (c : StoredColumn) (default v : Value) : Value :=
  if c.notNull && v.isNull then Value.apply c.affinity default else v

def mend (t : StoredTable) (defaults : List Value) (r : Record) : Record :=
  ⟨r.rowid, List.zipWith (fun f v => f v) (List.zipWith mendValue t.columns defaults) r.values⟩

/-- The table with a row more, or nothing if the row is to be passed over. -/
def accept (t : StoredTable) (c : Conflict) (defaults : List Value) (r : Record) :
    Except Fault (Option StoredTable) :=
  let r := if c = .replace then t.mend defaults r else r
  match t.missing? r with
  | some i => if c = .ignore then .ok none else .error (.notNull (t.columnName i))
  | none =>
    match t.rivals r with
    | [] => .ok (some (t.put r))
    | (key, s) :: rest =>
      match c with
      | .ignore => .ok none
      | .replace => .ok (some ((((key, s) :: rest).foldl (fun t s => t.remove s.2.rowid) t).put r))
      | .abort => .error (t.uniqueFault key)

end StoredTable

end Parlance.Sqlite
