import Parlance.Error
import Parlance.Grammar.Clause
import Parlance.Schema

/-! The text that an interpretation works on. Whoever takes a part of it blanks that part out, so
that nobody later reads it again; offsets stay valid because every byte becomes a space. -/

namespace Parlance.Interpretation

open Text (Span)

structure Workspace where
  text : List Char

namespace Workspace

def take (ws : Workspace) (s : Span) : Workspace := ⟨Text.blankOut s ws.text⟩

def after (ws : Workspace) (n : Nat) : List Char := Text.dropTo n ws.text

/-- The words left from byte `n` on, in lower case. -/
def words (ws : Workspace) (n : Nat) : List (List Char) :=
  (Grammar.nameWord.hits (ws.after n)).map fun h => Text.lower h.text

end Workspace

/-- What was taken from a text, and what is left of it; a part that was taken before something
went wrong stays taken. -/
abbrev Taken (α : Type) := Except Error α × Workspace

/-- Nothing is left of a text when its interpretation fails. -/
def Taken.kept {α : Type} (t : Taken α) : Except Error (α × Workspace) := t.1.map (·, t.2)

/-- The table that a statement is about; its columns are known if it is in the schema. -/
structure Subject where
  schema : Schema
  table : String
  known : Bool

namespace Subject

/-- The catalog's spelling of a column of a known table. -/
def column? (s : Subject) (w : List Char) : Option String :=
  if s.known then s.schema.findColumn? s.table w else none

/-- A column of a known table has to be in the catalog; one of an unknown table is taken as
written, in lower case. -/
def resolve (s : Subject) (w : List Char) : Except Error String :=
  if s.known then
    match s.schema.findColumn? s.table w with
    | some c => .ok c
    | none => .error (.unresolvedColumn s.table (String.ofList w))
  else .ok (String.ofList (Text.lower w))

def hasId (s : Subject) : Bool := !s.known || (s.column? "id".toList).isSome

theorem resolve_known {s : Subject} {w : List Char} {c : String} (hk : s.known = true)
    (h : s.resolve w = .ok c) : s.schema.findColumn? s.table w = some c := by
  simp only [resolve, hk, if_true] at h
  split at h <;> simp_all

end Subject

end Parlance.Interpretation
