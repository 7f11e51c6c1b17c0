import Parlance.Text.Basic

/-! The five kinds of statement that a request can ask for. -/

namespace Parlance

inductive Operation
  | select
  | count
  | insert
  | update
  | delete
  deriving DecidableEq, Repr

namespace Operation

def text : Operation → String
  | select => "SELECT"
  | count => "COUNT"
  | insert => "INSERT"
  | update => "UPDATE"
  | delete => "DELETE"

def all : List Operation := [select, count, insert, update, delete]

def ofText? (s : String) : Option Operation := all.find? (·.text = s)

/-- The kind of a written statement, from its first word. Counting is not a kind of its own
there. -/
def ofStatement? (sql : List Char) : Option Operation :=
  match Text.words sql with
  | [] => none
  | w :: _ => (ofText? (String.ofList (Text.upper w))).filter (· ≠ count)

end Operation

end Parlance
