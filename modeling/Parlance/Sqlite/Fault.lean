import Parlance.Sqlite.Token

/-! Why a statement fails. Some faults are found in its text and know their place in it, the
others are found when it runs. -/

namespace Parlance.Sqlite

inductive Fault
  | unexpected (t : Token)
  | incomplete
  | unrecognized (t : Token)
  | placeholderRange (offset : Nat)
  | noTable (name : String)
  | noColumn (name : String) (offset : Nat)
  | noFunction (name : String) (offset : Nat)
  | argumentCount (name : String) (offset : Nat)
  | misusedAggregate (name : String) (offset : Nat)
  /-- An aggregate where rows are not grouped. -/
  | loneAggregate (name : String) (offset : Nat)
  | groupedAggregate
  | ungroupedHaving
  | tableExists (name : String) (offset : Nat)
  | reservedName (name : String)
  | duplicateColumn (name : String)
  | twoPrimaryKeys (table : String)
  | noSuchAssigned (name : String)
  | noSuchInserted (table name : String)
  | addedPrimaryKey
  | addedUnique
  | addedNotNull
  | valueCount (values columns : Nat)
  | rowWidth (table : String) (columns values : Nat)
  | unevenRows
  | unevenCompound (operator : String)
  | nothingToSelect
  | placeRange (clause : String) (place terms : Nat)
  | unmatchedOrder (place : Nat)
  | unique (columns : List String)
  | notNull (column : String)
  | mismatch
  | paramCount (given needed : Nat)
  | givesRows
  | empty
  /-- The work did not end within its bounds. -/
  | endless
  deriving DecidableEq, Repr

/-- `1st`, `2nd`, `3rd`, `4th`. -/
def ordinal (n : Nat) : String :=
  toString n ++
    (if n / 10 % 10 = 1 then "th"
    else if n % 10 = 1 then "st" else if n % 10 = 2 then "nd" else if n % 10 = 3 then "rd" else "th")

namespace Fault

def reason : Fault → String
  | unexpected t => "near \"" ++ t.source ++ "\": syntax error"
  | incomplete => "incomplete input"
  | unrecognized t => "unrecognized token: \"" ++ t.source ++ "\""
  | placeholderRange _ => "variable number must be between ?1 and ?32766"
  | noTable name => "no such table: " ++ name
  | noColumn name _ | noSuchAssigned name => "no such column: " ++ name
  | noFunction name _ => "no such function: " ++ name
  | argumentCount name _ => "wrong number of arguments to function " ++ name ++ "()"
  | misusedAggregate name _ => "misuse of aggregate function " ++ name ++ "()"
  | loneAggregate name _ => "misuse of aggregate: " ++ name ++ "()"
  | groupedAggregate => "aggregate functions are not allowed in the GROUP BY clause"
  | ungroupedHaving => "HAVING clause on a non-aggregate query"
  | tableExists name _ => "table " ++ name ++ " already exists"
  | reservedName name => "object name reserved for internal use: " ++ name
  | duplicateColumn name => "duplicate column name: " ++ name
  | twoPrimaryKeys table => "table \"" ++ table ++ "\" has more than one primary key"
  | noSuchInserted table name => "table " ++ table ++ " has no column named " ++ name
  | addedPrimaryKey => "Cannot add a PRIMARY KEY column"
  | addedUnique => "Cannot add a UNIQUE column"
  | addedNotNull => "Cannot add a NOT NULL column with default value NULL"
  | valueCount values columns => toString values ++ " values for " ++ toString columns ++ " columns"
  | rowWidth table columns values => "table " ++ table ++ " has " ++ toString columns ++
      " columns but " ++ toString values ++ " values were supplied"
  | unevenRows => "all VALUES must have the same number of terms"
  | unevenCompound operator => "SELECTs to the left and right of " ++ operator ++
      " do not have the same number of result columns"
  | nothingToSelect => "no tables specified"
  | placeRange clause place terms => ordinal place ++ " " ++ clause ++
      " term out of range - should be between 1 and " ++ toString terms
  | unmatchedOrder place => ordinal place ++ " ORDER BY term does not match any column in the result set"
  | unique columns => "UNIQUE constraint failed: " ++ ", ".intercalate columns
  | notNull column => "NOT NULL constraint failed: " ++ column
  | mismatch => "datatype mismatch"
  | paramCount given needed => "Wrong number of parameters passed to query. Got " ++ toString given ++
      ", needed " ++ toString needed
  | givesRows => "Execute returned results - did you mean to call query?"
  | empty => "not an error"
  | endless => "interrupted"

def offset? : Fault → Option Nat
  | unexpected t | unrecognized t => some t.offset
  | placeholderRange offset | noColumn _ offset | noFunction _ offset | argumentCount _ offset
  | misusedAggregate _ offset | loneAggregate _ offset | tableExists _ offset => some offset
  | _ => none

def message (sql : String) (f : Fault) : String :=
  match f.offset? with
  | some offset => f.reason ++ " in " ++ sql ++ " at offset " ++ toString offset
  | none => f.reason

end Fault

end Parlance.Sqlite
