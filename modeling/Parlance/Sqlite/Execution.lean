import Parlance.Sqlite.Parser
import Parlance.Sqlite.Query

/-! Statements given a meaning. What a statement names is looked up first, and what remains is
an action on the database. A statement that fails leaves the tables as they were. -/

namespace Parlance.Sqlite

inductive Outcome
  | rows (columns : List PlanColumn) (found : Found (List Value))
  /-- Nothing is given back. -/
  | done

/-- An action has an outcome or fails, and leaves a database behind. -/
abbrev Action := Runtime → Except Fault Outcome × Database

def unchanged (f : Runtime → Except Fault Outcome) : Action := fun rt => (f rt, rt.database)

/-! ### Tables -/

def standardTypes : List String := ["ANY", "BLOB", "INT", "INTEGER", "REAL", "TEXT"]

def standardType (type : String) : String := (standardTypes.find? (sameName type)).getD type

def ColumnDef.stored (c : ColumnDef) : StoredColumn := ⟨c.name, standardType c.type, c.notNull, c.default⟩

def repeated? : List String → Option String
  | [] => none
  | n :: ns => if ns.any (sameName n) then some n else repeated? ns

def isReservedTable (name : String) : Bool := "sqlite_".toList.isPrefixOf (Text.asciiLower name.toList)

def placesOf (columns : List StoredColumn) (names : List String) : Except Fault (List Nat) :=
  names.mapM fun n =>
    match placeFrom n 0 columns with
    | some i => .ok i
    | none => .error (.noSuchAssigned n)

/-- Every primary key that a definition states, and whether its numbers are used again. -/
def primaryKeys (columns : List ColumnDef) (constraints : List TableConstraint) : List (List String × Bool) :=
  (columns.filter (·.primaryKey)).map (fun c => ([c.name], c.autoincrement)) ++
    constraints.filterMap fun
      | .primaryKey names auto => some (names, auto)
      | .unique _ => none

def uniqueSets (columns : List ColumnDef) (constraints : List TableConstraint) : List (List String) :=
  (columns.filter (·.unique)).map (fun c => [c.name]) ++
    constraints.filterMap fun
      | .primaryKey .. => none
      | .unique names => some names

/-- A primary key of one integer column is the number of the row. -/
def rowidColumnOf (columns : List StoredColumn) : List Nat → Option Nat
  | [i] => if (columns[i]?).any (·.type = "INTEGER") then some i else none
  | _ => none

def makeTable (name : String) (columns : List ColumnDef) (constraints : List TableConstraint) :
    Except Fault StoredTable := do
  let stored := columns.map (·.stored)
  if let some n := repeated? (columns.map (·.name)).reverse then throw (.duplicateColumn n)
  let keys := primaryKeys columns constraints
  if 1 < keys.length then throw (.twoPrimaryKeys name)
  let key ← placesOf stored ((keys.map (·.1)).headD [])
  let uniques ← (uniqueSets columns constraints).mapM (placesOf stored)
  let rowid := rowidColumnOf stored key
  return {
    name := name
    columns := stored
    rowidColumn := rowid
    primaryKey := key
    uniques := if rowid.isNone && !key.isEmpty then key :: uniques else uniques
    autoincrement := keys.any (·.2)
    highest := 0
    records := [] }

def Database.createTable (db : Database) (n : Name) (written : String) (ifNotExists : Bool)
    (columns : List ColumnDef) (constraints : List TableConstraint) : Except Fault Action := do
  if isReservedTable n.text then throw (.reservedName n.text)
  if (db.find? n.text).isSome then
    if ifNotExists then return unchanged fun _ => .ok .done
    throw (.tableExists written n.offset)
  let t ← makeTable n.text columns constraints
  return fun rt => (.ok .done, { rt.database with tables := rt.database.tables ++ [t] })

def Database.dropTable (db : Database) (name : String) (ifExists : Bool) : Except Fault Action := do
  if (db.find? name).isNone then
    if ifExists then return unchanged fun _ => .ok .done
    throw (.noTable name)
  return fun rt => (.ok .done,
    { rt.database with tables := rt.database.tables.filter fun t => !sameName t.name name })

def defaultTerm (c : StoredColumn) : Except Fault Term :=
  match c.default with
  | some (e, _) => e.term .empty
  | none => .ok (.constant .null)

def constantValue (t : Term) (rt : Runtime) : Value := t.value rt ⟨⟨.null, []⟩, []⟩

def findTable (db : Database) (name : String) : Except Fault StoredTable :=
  match db.find? name with
  | some t => .ok t
  | none => .error (.noTable name)

/-- Rows that are there already get the default in the new column. -/
def Database.addColumn (db : Database) (table : String) (c : ColumnDef) : Except Fault Action := do
  let t ← findTable db table
  if (t.place? c.name).isSome then throw (.duplicateColumn c.name)
  if c.primaryKey then throw .addedPrimaryKey
  if c.unique then throw .addedUnique
  let default ← defaultTerm c.stored
  return fun rt =>
    let v := (constantValue default rt).apply c.stored.affinity
    if c.notNull && v.isNull && !t.records.isEmpty then (.error .addedNotNull, rt.database)
    else (.ok .done, rt.database.replace { t with
      columns := t.columns ++ [c.stored]
      records := t.records.map fun r => { r with values := r.values ++ [v] } })

/-! ### Rows -/

/-- Rows that a statement has touched, with the table and the last number given. -/
structure Progress where
  table : StoredTable
  /-- Last first. -/
  touched : List Record
  lastRowid : Int

/-- The results that a statement asks for, of the rows that it has touched. -/
def returningPlan (t : StoredTable) (results : List ResultColumn) : Except Fault (List ResultTerm) :=
  resultTerms (t.scope t.name) results

def returned (results : List ResultTerm) (rt : Runtime) (rs : List Record) : Outcome :=
  if results.isEmpty then .done
  else .rows (results.map (·.column))
    (.all (rs.map fun r => Term.values (results.map (·.term)) rt ⟨r.row, []⟩))

/-- Counts the rows of a statement that went well; one that failed has changed none. -/
def settle (results : List ResultTerm) (rt : Runtime) (p : Except Fault Progress) :
    Except Fault Outcome × Database :=
  match p with
  | .ok p =>
    let db := { rt.database.replace p.table with changes := p.touched.length, lastRowid := p.lastRowid }
    (.ok (returned results { rt with database := db } p.touched.reverse), db)
  | .error f => (.error f, { rt.database with changes := 0 })

def insertRow (c : Conflict) (defaults : List Value) (p : Progress) (values : List Value) :
    Except Fault Progress := do
  let rowid ← p.table.rowidOf values
  let r := p.table.conform rowid values
  match ← p.table.accept c defaults r with
  | some t => return ⟨t, r :: p.touched, rowid⟩
  | none => return p

/-- The values for all columns: those that are given, and defaults for the rest. -/
def spread (places : List Nat) (defaults given : List Value) : List Value :=
  (places.zip given).foldl (fun vs p => vs.set p.1 p.2) defaults

/-- The places of the columns that are written; the table is named as in the statement. -/
def insertPlaces (t : StoredTable) (table : String) : Option (List String) → Except Fault (List Nat)
  | none => .ok (List.range t.columns.length)
  | some names => names.mapM fun n =>
    match t.place? n with
    | some i => .ok i
    | none => .error (.noSuchInserted table n)

def insertPlan (c : Catalog) : InsertSource → Except Fault Plan
  | .rows rows => valuesPlan rows
  | .defaults => .ok ⟨[], fun _ => .ok (.all [[]])⟩
  | .query q => q.plan c

/-- Every row has to have a value for every column that is written. -/
def checkWidth (t : StoredTable) (table : String) (columns : Option (List String)) (width : Nat) :
    Except Fault Unit :=
  match columns with
  | none =>
    if width = t.columns.length then .ok () else .error (.rowWidth table t.columns.length width)
  | some names => if width = names.length then .ok () else .error (.valueCount width names.length)

def isDefaults : InsertSource → Bool
  | .defaults => true
  | _ => false

def Database.insert (db : Database) (conflict : Conflict) (table : String) (columns : Option (List String))
    (source : InsertSource) (returning : List ResultColumn) : Except Fault Action := do
  let t ← findTable db table
  let places ← insertPlaces t table columns
  let plan ← insertPlan ⟨db, []⟩ source
  unless isDefaults source do checkWidth t table columns plan.columns.length
  let defaults ← t.columns.mapM defaultTerm
  let results ← returningPlan t returning
  return fun rt => settle results rt (do
    let found ← plan.run rt
    -- A query that goes on without end writes nothing.
    if !found.complete then throw .endless
    let defaults := defaults.map (constantValue · rt)
    found.rows.foldlM (fun p vs => insertRow conflict defaults p (spread places defaults vs))
      ⟨t, [], rt.database.lastRowid⟩)

def recordsWhere (t : StoredTable) (filter : Option Term) (rt : Runtime) : List Record :=
  match filter with
  | none => t.records
  | some f => t.records.filter fun r => (f.value rt ⟨r.row, []⟩).truth = some true

def assignmentTerms (t : StoredTable) : List (String × Expr) → Except Fault (List (Nat × Term))
  | [] => .ok []
  | (n, e) :: rest => do
    let term ← e.term (t.scope t.name)
    match t.place? n with
    | some i => return (i, term) :: (← assignmentTerms t rest)
    | none => throw (.noSuchAssigned n)

/-- The number that a row has after it was changed; it cannot be taken away. -/
def renumbered (t : StoredTable) (values : List Value) (rowid : Int) : Except Fault Int :=
  match t.rowidColumn with
  | none => .ok rowid
  | some i => if ((values[i]?).getD .null).isNull then .error .mismatch else t.rowidOf values

/-- A record with new values, in place of the old one. -/
def updateRow (rt : Runtime) (terms : List (Nat × Term)) (p : Progress) (r : Record) :
    Except Fault Progress := do
  let values := terms.foldl (fun vs a => vs.set a.1 (a.2.value rt ⟨r.row, []⟩)) r.values
  let rowid ← renumbered p.table values r.rowid
  let new := p.table.conform rowid values
  -- The old record is taken out first, since it is no rival of the new one.
  match ← (p.table.remove r.rowid).accept .abort [] new with
  | some t => return ⟨t, new :: p.touched, p.lastRowid⟩
  | none => return p

def Database.update (db : Database) (table : String) (assignments : List (String × Expr)) (filter : Option Expr)
    (returning : List ResultColumn) : Except Fault Action := do
  let t ← findTable db table
  let terms ← assignmentTerms t assignments
  let filter ← optionTerm (t.scope t.name) filter
  let results ← returningPlan t returning
  return fun rt => settle results rt
    ((recordsWhere t filter rt).foldlM (updateRow rt terms) ⟨t, [], rt.database.lastRowid⟩)

def Database.delete (db : Database) (table : String) (filter : Option Expr) (returning : List ResultColumn) :
    Except Fault Action := do
  let t ← findTable db table
  let filter ← optionTerm (t.scope t.name) filter
  let results ← returningPlan t returning
  return fun rt =>
    let gone := recordsWhere t filter rt
    settle results rt (.ok ⟨gone.foldl (fun t r => t.remove r.rowid) t, gone.reverse, rt.database.lastRowid⟩)

def Database.select (db : Database) (q : Query) : Except Fault Action := do
  let plan ← q.plan ⟨db, []⟩
  return unchanged fun rt => do return .rows plan.columns (← plan.run rt)

/-- A setting that is read has one value. -/
def settingAction (assigned : Bool) : Action := unchanged fun _ =>
  if assigned then .ok .done else .ok (.rows [⟨"", none, none⟩] (.all [[.int 0]]))

def Statement.action (db : Database) : Statement → Except Fault Action
  | .createTable n written ifNotExists columns constraints =>
    db.createTable n written ifNotExists columns constraints
  | .dropTable name ifExists => db.dropTable name ifExists
  | .addColumn table c => db.addColumn table c
  | .insert conflict table columns source returning => db.insert conflict table columns source returning
  | .update table assignments filter returning => db.update table assignments filter returning
  | .delete table filter returning => db.delete table filter returning
  | .select q => db.select q
  | .pragma assigned => .ok (settingAction assigned)

/-- As many values as placeholders; of values too many only the first is counted. -/
def checkParams (given needed : Nat) : Except Fault Unit :=
  if given = needed then .ok () else .error (.paramCount (min given (needed + 1)) needed)

/-- Reads a statement and prepares it, then takes the values for its placeholders. -/
def prepare (db : Database) (sql : List Char) (params : Nat) : Except Fault Action := do
  match ← Parsed.read? sql with
  | none => do
    checkParams params 0
    throw .empty
  | some p => do
    let action ← p.statement.action db
    checkParams params p.params
    return action

/-- Runs the first statement of a text. -/
def Database.run (sql : List Char) (rt : Runtime) : Except Fault Outcome × Database :=
  match prepare rt.database sql rt.params.length with
  | .ok action => action rt
  | .error f => (.error f, rt.database)

end Parlance.Sqlite
