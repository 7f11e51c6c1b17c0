import Parlance.Grammar.Assignment
import Parlance.Interpretation.Condition

/-! The values of INSERT and UPDATE requests. -/

namespace Parlance.Interpretation

open Grammar (columnGroup valueGroup isFiller)
open Text (Span)

/-- Pairs of a column and a value, separated by commas or "and". -/
def assignmentsFrom (s : Subject) : Nat → List Char → Except Error (List Assignment × Nat)
  | 0, _ => .ok ([], 0)
  | fuel + 1, cs =>
    match Grammar.assignment.find? cs with
    | none => .ok ([], 0)
    | some h => do
      let column := (h.text? columnGroup).getD []
      let v := (h.text? valueGroup).getD []
      if isFiller column || Text.sameWord column "where".toList then .ok ([], 0)
      else
        let a : Assignment := ⟨← s.resolve column, .ofText (Text.dropEndWhile isClosingMark v)⟩
        let rest := Text.dropTo h.span.stop cs
        match Grammar.assignmentSeparator.find? rest with
        | none => .ok ([a], h.span.stop)
        | some sep =>
          let next := Text.dropTo sep.span.stop rest
          -- A separator counts only if something like a pair follows it.
          if Grammar.assignment.holds next then
            let (as, n) ← assignmentsFrom s fuel next
            .ok (a :: as, h.span.stop + sep.span.stop + n)
          else .ok ([a], h.span.stop)

/-- The pairs at the start of the text and their size in bytes. -/
def assignments (s : Subject) (cs : List Char) : Except Error (List Assignment × Nat) :=
  assignmentsFrom s (cs.length + 1) cs

/-- The column that "named" gives a value to. -/
def nameColumn? (s : Subject) : Option String :=
  match s.column? "name".toList with
  | some c => some c
  | none => if s.known then none else some "name"

def takeNamed (s : Subject) (ws : Workspace) : List Assignment × Workspace :=
  match Grammar.named.find? ws.text with
  | none => ([], ws)
  | some h =>
    match nameColumn? s with
    | none => ([], ws)
    | some c => ([⟨c, .ofText ((h.text? 1).getD [])⟩], ws.take h.span)

/-- Where a list of values begins: behind a cue word, or else behind the table. The first
offset is that of the cue. -/
def valuesStart? (tableEnd : Nat) (ws : Workspace) : Option Span :=
  match Grammar.valuesCue.find? ws.text with
  | some h => some h.span
  | none =>
    if tableEnd ≤ Text.size ws.text then
      let rest := ws.after tableEnd
      some ⟨tableEnd, tableEnd + (Text.size rest - Text.size (Text.trimStart rest))⟩
    else none

/-- The first value of a column counts. -/
def addValues (values new : List Assignment) : List Assignment :=
  new.foldl (fun vs a => if vs.any (·.column = a.column) then vs else vs ++ [a]) values

/-- The pairs behind a cue. The cue is taken with them if there are any. -/
def takePairs (s : Subject) (cue : Span) (ws : Workspace) : Taken (List Assignment) :=
  match assignments s (ws.after cue.stop) with
  | .error e => (.error e, ws)
  | .ok ([], _) => (.ok [], ws)
  | .ok (new, n) => (.ok new, ws.take ⟨cue.start, cue.stop + n⟩)

def takeInsertValues (s : Subject) (tableEnd : Nat) (ws : Workspace) : Taken (List Assignment) :=
  let (values, ws) := takeNamed s ws
  match valuesStart? tableEnd ws with
  | none => (.ok values, ws)
  | some start =>
    let (new, ws) := takePairs s start ws
    (new.map (addValues values), ws)

def takeSet (s : Subject) (ws : Workspace) : Taken (List Assignment) :=
  match Grammar.setCue.find? ws.text with
  | none => (.ok [], ws)
  | some h => takePairs s h.span ws

end Parlance.Interpretation
