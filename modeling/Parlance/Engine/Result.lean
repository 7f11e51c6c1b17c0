import Parlance.Error
import Parlance.Json

/-! What a statement gives back: rows for reads, a count for writes. A row holds each column
name once, with the value of the last column of that name. -/

namespace Parlance

structure ColumnMeta where
  name : String
  engineType : String
  deriving DecidableEq, Repr

abbrev Row := List (String × Json)

structure ExecutionResult where
  rows : List Row
  rowCount : Nat
  columns : List ColumnMeta
  lastInsertId : Option Int

namespace ExecutionResult

def ofRows (columns : List ColumnMeta) (rows : List Row) : ExecutionResult :=
  ⟨rows, rows.length, columns, none⟩

def affected (count : Nat) (lastInsertId : Option Int) : ExecutionResult :=
  ⟨[], count, [], lastInsertId⟩

def columnNames (r : ExecutionResult) : List String := r.columns.map (·.name)

end ExecutionResult

/-- A cell as the engine reports it; one that has no JSON form tells why. -/
structure Cell where
  column : String
  type : String
  value : Except String Json

def Cell.error (sql : String) (c : Cell) (reason : String) : Error :=
  .execution sql ("cannot decode column '" ++ c.column ++ "' of type " ++ c.type ++ ": " ++ reason)

def collectFrom (sql : String) (row : Row) : List Cell → Except Error Row
  | [] => .ok row
  | c :: cells =>
    match c.value with
    | .ok v => collectFrom sql (Json.insertField c.column v row) cells
    | .error reason => .error (c.error sql reason)

/-- One row from its cells. The first cell that cannot be decoded fails the statement. -/
def collectRow (sql : String) (cells : List Cell) : Except Error Row := collectFrom sql [] cells

def collectRows (sql : String) (rows : List (List Cell)) : Except Error (List Row) :=
  rows.mapM (collectRow sql)

end Parlance
