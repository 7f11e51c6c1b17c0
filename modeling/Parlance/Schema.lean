import Parlance.Text.Basic

/-! Tables and their columns as a catalog reports them. Tables are kept sorted by name, one
entry for each spelling; look-ups ignore the case of ASCII letters and take the first table
or column that matches. -/

namespace Parlance

structure Column where
  name : String
  declaredType : String
  nullable : Bool
  isPrimaryKey : Bool
  defaultValue : Option String
  deriving DecidableEq, Repr

namespace Column

def ofType (name declaredType : String) : Column := ⟨name, declaredType, true, false, none⟩

def primaryKey (c : Column) : Column := { c with isPrimaryKey := true, nullable := false }

def isTemporal (c : Column) : Bool :=
  let t := Text.lower c.declaredType.toList
  Text.contains "time".toList t || Text.contains "date".toList t

/-- The name is `w` up to the case of ASCII letters. -/
def isNamed (w : List Char) (c : Column) : Bool := Text.sameWord c.name.toList w

/-- A temporal column whose name ends in `_at`. -/
def isMoment (c : Column) : Bool :=
  "_at".toList.isSuffixOf (Text.lower c.name.toList) && c.isTemporal

end Column

structure Table where
  name : String
  columns : List Column
  deriving DecidableEq, Repr

structure Schema where
  tables : List Table
  deriving DecidableEq, Repr

namespace Schema

def empty : Schema := ⟨[]⟩

/-- Changes the table of that name, or puts a new one in its place in the order. -/
def alterTable (name : String) (f : List Column → List Column) : List Table → List Table
  | [] => [⟨name, f []⟩]
  | t :: ts =>
    if t.name = name then ⟨name, f t.columns⟩ :: ts
    else if name < t.name then ⟨name, f []⟩ :: t :: ts
    else t :: alterTable name f ts

/-- Appends a column, starting the table if it is new. -/
def push (s : Schema) (table : String) (c : Column) : Schema :=
  ⟨alterTable table (· ++ [c]) s.tables⟩

def insert (s : Schema) (table : String) (columns : List Column) : Schema :=
  ⟨alterTable table (fun _ => columns) s.tables⟩

def ofTables (ts : List (String × List Column)) : Schema :=
  ts.foldl (fun s t => s.insert t.1 t.2) empty

def size (s : Schema) : Nat := s.tables.length

def names (s : Schema) : List String := s.tables.map (·.name)

def find? (s : Schema) (w : List Char) : Option Table :=
  s.tables.find? fun t => Text.sameWord t.name.toList w

def columns? (s : Schema) (table : String) : Option (List Column) :=
  (s.find? table.toList).map (·.columns)

/-- The catalog's spelling of a column. -/
def findColumn? (s : Schema) (table : String) (w : List Char) : Option String := do
  ((← s.columns? table).find? (·.isNamed w)).map (·.name)

/-- The column by which rows of a table are dated: `created_at`, or else the first moment. -/
def timestampColumn? (s : Schema) (table : String) : Option String := do
  let columns ← s.columns? table
  ((columns.find? (·.isNamed "created_at".toList)).or (columns.find? (·.isMoment))).map (·.name)

/-- The table of exactly this name, as a schema of its own. -/
def only (s : Schema) (table : String) : Schema := ⟨s.tables.filter (·.name = table)⟩

theorem columns?_eq_some {s : Schema} {table : String} {cs : List Column}
    (h : s.columns? table = some cs) : ∃ t ∈ s.tables, t.columns = cs := by
  simp only [columns?, find?, Option.map_eq_some_iff] at h
  obtain ⟨t, ht, rfl⟩ := h
  exact ⟨t, List.mem_of_find?_eq_some ht, rfl⟩

end Schema

end Parlance
