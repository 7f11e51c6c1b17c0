import Parlance.Sqlite.Value

/-! Statements of the part of SQLite's language that is served here: tables are made, changed
and dropped, rows are written and read, one table or query at a time. -/

namespace Parlance.Sqlite

structure Name where
  text : String
  /-- Written between double quotes, which may also be meant for a text. -/
  doubtful : Bool
  offset : Nat
  deriving DecidableEq, Repr

inductive UnaryOp
  | negate
  | plus
  | invert
  | not
  deriving DecidableEq, Repr

inductive BinaryOp
  | or
  | and
  | equal
  | notEqual
  | less
  | lessEqual
  | greater
  | greaterEqual
  /-- Equality that takes null for a value. -/
  | is
  | isNot
  | like
  | bitAnd
  | bitOr
  | shiftLeft
  | shiftRight
  | add
  | subtract
  | multiply
  | divide
  | remainder
  | concat
  deriving DecidableEq, Repr

inductive Expr
  | literal (v : Value)
  | column (table : Option String) (name : Name)
  | param (index : Nat)
  | unary (op : UnaryOp) (e : Expr)
  | binary (op : BinaryOp) (a b : Expr)
  | cast (type : String) (e : Expr)
  | call (name : Name) (args : List Expr)
  | countRows (name : Name)
  deriving Inhabited

inductive ResultColumn
  | all
  | expr (e : Expr) (label : Option String) (source : String)

structure OrderTerm where
  expr : Expr
  descending : Bool
  /-- Where nulls stand if that is said. -/
  nullsFirst : Option Bool

inductive CompoundOp
  | unionAll
  | union
  | except
  | intersect
  deriving DecidableEq, Repr

structure Limit where
  count : Expr
  offset : Option Expr

mutual

inductive Query
  | mk (defs : List CommonTable) (body : Body) (order : List OrderTerm) (limit : Option Limit)

inductive Body
  | select (distinct : Bool) (result : List ResultColumn) (source : Source) (filter : Option Expr)
      (groups : List Expr) (having : Option Expr)
  | values (rows : List (List Expr))
  | compound (op : CompoundOp) (left right : Body)

inductive Source
  | nothing
  | table (name : String) (label : Option String)
  | query (q : Query) (label : Option String)

/-- A query under a name, for use in the query that it precedes. -/
inductive CommonTable
  | mk (name : String) (columns : List String) (query : Query)

end

structure ColumnDef where
  name : String
  type : String
  notNull : Bool
  unique : Bool
  primaryKey : Bool
  /-- Numbers of rows are never used again. -/
  autoincrement : Bool
  /-- The expression and its text. -/
  default : Option (Expr × String)

inductive TableConstraint
  | primaryKey (columns : List String) (autoincrement : Bool)
  | unique (columns : List String)

/-- What to do with a row that breaks a rule. -/
inductive Conflict
  | abort
  | ignore
  | replace
  deriving DecidableEq, Repr

inductive InsertSource
  | rows (rows : List (List Expr))
  | defaults
  | query (q : Query)

inductive Statement
  /-- The name also as it is written. -/
  | createTable (name : Name) (written : String) (ifNotExists : Bool) (columns : List ColumnDef)
      (constraints : List TableConstraint)
  | dropTable (name : String) (ifExists : Bool)
  | addColumn (table : String) (column : ColumnDef)
  | insert (conflict : Conflict) (table : String) (columns : Option (List String))
      (source : InsertSource) (returning : List ResultColumn)
  | update (table : String) (assignments : List (String × Expr)) (filter : Option Expr)
      (returning : List ResultColumn)
  | delete (table : String) (filter : Option Expr) (returning : List ResultColumn)
  | select (q : Query)
  /-- A setting that is read gives one row. -/
  | pragma (assigned : Bool)

end Parlance.Sqlite
