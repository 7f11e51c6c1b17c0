import Parlance.Intent

/-! The SQL of an intent. Clauses are written in the order of the SQL grammar, whatever order
the request named them in, and text is quoted with every quote inside it doubled. -/

namespace Parlance

def doubled (s : String) : String := String.ofList (Text.substitute '\'' ['\'', '\''] s.toList)

def quoted (s : String) : String := "'" ++ doubled s ++ "'"

def Literal.sql : Literal → String
  | number digits => digits
  | boolean true => "TRUE"
  | boolean false => "FALSE"
  | text content => quoted content

def Comparison.sql : Comparison → String
  | equal => "="
  | notEqual => "!="
  | greater => ">"
  | greaterEqual => ">="
  | less => "<"
  | lessEqual => "<="

def LikeMode.sql (pattern : String) : LikeMode → String
  | contains => "%" ++ doubled pattern ++ "%"
  | startsWith => doubled pattern ++ "%"
  | endsWith => "%" ++ doubled pattern

def Connective.sql : Connective → String
  | and => " AND "
  | or => " OR "

mutual

def Predicate.sql (d : Dialect) : Predicate → String
  | .compare column op value => column ++ " " ++ op.sql ++ " " ++ value.sql
  | .like column mode pattern => column ++ " LIKE '" ++ mode.sql pattern ++ "'"
  | .isNull column negated => column ++ " IS " ++ (if negated then "NOT " else "") ++ "NULL"
  | .recency column window => d.recency column window
  | .group terms => "(" ++ chainSql d terms ++ ")"

/-- The predicates with a connective before each but the first. -/
def chainSql (d : Dialect) : List (Connective × Predicate) → String
  | [] => ""
  | (_, p) :: terms => p.sql d ++ restSql d terms

def restSql (d : Dialect) : List (Connective × Predicate) → String
  | [] => ""
  | (c, p) :: terms => c.sql ++ p.sql d ++ restSql d terms

end

def whereSql (d : Dialect) (f : Filter) : String :=
  if f.isEmpty then "" else " WHERE " ++ chainSql d f

def ReadClauses.sql (d : Dialect) (c : ReadClauses) : String :=
  whereSql d c.filter
    ++ (match c.groupBy with | some column => " GROUP BY " ++ column | none => "")
    ++ (match c.orderBy with
        | some o => " ORDER BY " ++ o.column ++ (if o.descending then " DESC" else " ASC")
        | none => "")
    ++ (match c.limit with | some n => " LIMIT " ++ toString n | none => "")

def Assignment.sql (a : Assignment) : String := a.column ++ " = " ++ a.value.sql

def commaList (parts : List String) : String := ", ".intercalate parts

namespace Intent

/-- Without named columns a grouped SELECT shows the column it groups by. -/
def projection (groupBy : Option String) (columns : List String) : String :=
  match groupBy, columns with
  | some column, [] => column
  | none, [] => "*"
  | _, columns => commaList columns

def countProjection : Option String → String
  | some column => column ++ ", COUNT(*) as count"
  | none => "COUNT(*) as count"

def sql (d : Dialect) : Intent → String
  | select table columns clauses =>
    "SELECT " ++ projection clauses.groupBy columns ++ " FROM " ++ table ++ clauses.sql d
  | count table clauses =>
    "SELECT " ++ countProjection clauses.groupBy ++ " FROM " ++ table ++ clauses.sql d
  | insert table [] => "INSERT INTO " ++ table ++ " (columns) VALUES (values)"
  | insert table values =>
    "INSERT INTO " ++ table ++ " (" ++ commaList (values.map (·.column)) ++ ") VALUES ("
      ++ commaList (values.map (·.value.sql)) ++ ")"
  | update table assignments filter =>
    "UPDATE " ++ table ++ " SET "
      ++ (if assignments.isEmpty then "column = value" else commaList (assignments.map (·.sql)))
      ++ whereSql d filter
  | delete table filter => "DELETE FROM " ++ table ++ whereSql d filter

end Intent

end Parlance
