import Parlance.Text.Basic

/-! Dialects of SQL and the one construct in which they differ here: predicates that restrict
a column to a window of recent time. -/

namespace Parlance

inductive Dialect
  | postgres
  | mysql
  | sqlite
  deriving DecidableEq, Repr

def Dialect.text : Dialect → String
  | .postgres => "postgres"
  | .mysql => "mysql"
  | .sqlite => "sqlite"

def Dialect.all : List Dialect := [.postgres, .mysql, .sqlite]

def Dialect.ofText? (s : String) : Option Dialect := Dialect.all.find? (·.text = s)

inductive TimeUnit
  | hour
  | day
  | month
  deriving DecidableEq, Repr

def TimeUnit.text : TimeUnit → String
  | .hour => "hour"
  | .day => "day"
  | .month => "month"

def TimeUnit.all : List TimeUnit := [.hour, .day, .month]

def TimeUnit.ofText? (s : String) : Option TimeUnit := TimeUnit.all.find? (·.text = s)

/-- The unit that a word names in the singular or plural, in any case. -/
def TimeUnit.ofWord? (w : List Char) : Option TimeUnit :=
  ofText? (String.ofList (Text.dropEndWhile (· = 's') (Text.lower w)))

inductive TimeWindow
  | today
  | yesterday
  | last (amount : Nat) (unit : TimeUnit)
  deriving DecidableEq, Repr

namespace Dialect

def startOfToday : Dialect → String
  | postgres => "CURRENT_DATE"
  | mysql => "CURDATE()"
  | sqlite => "date('now')"

def startOfYesterday : Dialect → String
  | postgres => "CURRENT_DATE - INTERVAL '1 day'"
  | mysql => "CURDATE() - INTERVAL 1 DAY"
  | sqlite => "date('now', '-1 day')"

/-- `7 days`, `1 day`. -/
def quantity (amount : Nat) (unit : TimeUnit) : String :=
  toString amount ++ " " ++ unit.text ++ (if amount = 1 then "" else "s")

def upperUnit : TimeUnit → String
  | .hour => "HOUR"
  | .day => "DAY"
  | .month => "MONTH"

def ago (amount : Nat) (unit : TimeUnit) : Dialect → String
  | postgres => "NOW() - INTERVAL '" ++ quantity amount unit ++ "'"
  | mysql => "NOW() - INTERVAL " ++ toString amount ++ " " ++ upperUnit unit
  | sqlite => "datetime('now', '-" ++ quantity amount unit ++ "')"

/-- Yesterday is bounded on both sides; the other windows reach to the present. -/
def recency (d : Dialect) (column : String) : TimeWindow → String
  | .today => column ++ " >= " ++ d.startOfToday
  | .yesterday =>
    column ++ " >= " ++ d.startOfYesterday ++ " AND " ++ column ++ " < " ++ d.startOfToday
  | .last amount unit => column ++ " >= " ++ d.ago amount unit

end Dialect

end Parlance
