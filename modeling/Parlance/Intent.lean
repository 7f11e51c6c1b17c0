import Parlance.Dialect
import Parlance.Number.Decimal
import Parlance.Operation

/-! What a request asks for, before any SQL is written: a statement on one table with its
columns, values and clauses. A filter is a chain of predicates joined from left to right;
a group holds a chain of its own. -/

namespace Parlance

inductive Literal
  | number (digits : String)
  | text (content : String)
  | boolean (value : Bool)
  deriving DecidableEq, Repr

namespace Literal

/-- What stands between two quotes of the same kind. -/
def unquoted? (q : Char) (cs : List Char) : Option (List Char) :=
  (Text.withoutStart? [q] cs).bind (Text.withoutEnd? [q])

def isPlainNumber (cs : List Char) : Bool :=
  (Number.readDecimal? cs).isSome && cs.all fun c => Text.isAsciiDigit c || c = '.' || c = '-'

/-- Quoted text is taken without its quotes; numbers and truth values stand for themselves,
and anything else is text. -/
def ofText (raw : List Char) : Literal :=
  let cs := Text.trim raw
  match (unquoted? '\'' cs).or (unquoted? '"' cs) with
  | some inner => text (String.ofList inner)
  | none =>
    if isPlainNumber cs then number (String.ofList cs)
    else
      let l := Text.lower cs
      if l = "true".toList then boolean true
      else if l = "false".toList then boolean false
      else text (String.ofList cs)

end Literal

inductive Comparison
  | equal
  | notEqual
  | greater
  | greaterEqual
  | less
  | lessEqual
  deriving DecidableEq, Repr

inductive LikeMode
  | contains
  | startsWith
  | endsWith
  deriving DecidableEq, Repr

inductive Connective
  | and
  | or
  deriving DecidableEq, Repr

inductive Predicate
  | compare (column : String) (op : Comparison) (value : Literal)
  | like (column : String) (mode : LikeMode) (pattern : String)
  | isNull (column : String) (negated : Bool)
  | recency (column : String) (window : TimeWindow)
  | group (terms : List (Connective × Predicate))
  deriving Repr

/-- The first connective of a chain has nothing on its left and is not written. -/
abbrev Filter := List (Connective × Predicate)

/-- A group that is the only term of a filter takes the filter's place. -/
def Filter.flattened : Filter → Filter
  | [(_, .group terms)] => terms
  | f => f

structure SortOrder where
  column : String
  descending : Bool
  deriving DecidableEq, Repr

structure ReadClauses where
  filter : Filter
  groupBy : Option String
  orderBy : Option SortOrder
  limit : Option Nat
  deriving Repr

structure Assignment where
  column : String
  value : Literal
  deriving DecidableEq, Repr

inductive Intent
  | select (table : String) (columns : List String) (clauses : ReadClauses)
  | count (table : String) (clauses : ReadClauses)
  | insert (table : String) (values : List Assignment)
  | update (table : String) (assignments : List Assignment) (filter : Filter)
  | delete (table : String) (filter : Filter)
  deriving Repr

namespace Intent

def operation : Intent → Operation
  | select .. => .select
  | count .. => .count
  | insert .. => .insert
  | update .. => .update
  | delete .. => .delete

def table : Intent → String
  | select t .. | count t _ | insert t _ | update t .. | delete t _ => t

/-- No value was given for an INSERT or an UPDATE, so its SQL has parts to fill in. -/
def hasPlaceholders : Intent → Bool
  | insert _ values => values.isEmpty
  | update _ assignments _ => assignments.isEmpty
  | _ => false

end Intent

end Parlance
