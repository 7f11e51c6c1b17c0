import Parlance.Grammar.Condition
import Parlance.Grammar.Filler
import Parlance.Interpretation.Workspace

/-! Conditions on rows. A cue word such as "where" opens a chain of conditions joined by "and"
and "or". A chain with an "or" in it becomes a group, so that joining it to the rest by AND
does not change its meaning. -/

namespace Parlance.Interpretation

open Grammar (ConditionForm conditionForms columnGroup valueGroup isFiller isOneOf)

/-- Words that follow a column without being its value. -/
def keywordValues : List String :=
  ["and", "or", "order", "ordered", "sorted", "sort", "group", "grouped", "limit", "by"]

def isClosingMark (c : Char) : Bool := c = '.' || c = '?' || c = '!' || c = ';'

def isNullWord (v : List Char) : Bool := Text.sameWord v "null".toList

def equality (column : String) (v : List Char) : Predicate :=
  if isNullWord v then .isNull column false else .compare column .equal (.ofText v)

def Literal.plain : Literal → String
  | .number s | .text s => s
  | .boolean b => if b then "true" else "false"

/-- The predicate of a condition of the given form, or nothing if the form does not apply. -/
def predicateOf (s : Subject) (form : ConditionForm) (column v : List Char) :
    Except Error (Option Predicate) :=
  match form with
  | .implicit =>
    -- Two words in a row are a condition only if the first of them is a column of the schema.
    match s.column? column with
    | none => .ok none
    | some c => .ok (if isOneOf keywordValues v then none else some (equality c v))
  | .isNull => do .ok (some (.isNull (← s.resolve column) false))
  | .isNotNull => do .ok (some (.isNull (← s.resolve column) true))
  | .compare .equal => do .ok (some (equality (← s.resolve column) v))
  | .compare .notEqual => do
    let c ← s.resolve column
    .ok (some (if isNullWord v then .isNull c true else .compare c .notEqual (.ofText v)))
  | .compare op => do .ok (some (.compare (← s.resolve column) op (.ofText v)))
  | .like mode => do .ok (some (.like (← s.resolve column) mode (Literal.plain (.ofText v))))

def firstCondition (s : Subject) (cs : List Char) :
    List (ConditionForm × Pattern) → Except Error (Option (Predicate × Nat))
  | [] => .ok none
  | (form, p) :: forms =>
    match p.find? cs with
    | none => firstCondition s cs forms
    | some h =>
      let column := (h.text? columnGroup).getD []
      let v := Text.dropEndWhile isClosingMark ((h.text? valueGroup).getD [])
      if isFiller column then firstCondition s cs forms
      else do
        match ← predicateOf s form column v with
        | some q => .ok (some (q, h.span.stop))
        | none => firstCondition s cs forms

/-- The condition at the start of the text, and where it ends. -/
def condition? (s : Subject) (cs : List Char) : Except Error (Option (Predicate × Nat)) :=
  firstCondition s cs conditionForms

def connectiveOf (w : List Char) : Connective := if Text.lower w = "or".toList then .or else .and

/-- Conditions as long as there are any. -/
def chainFrom (s : Subject) : Nat → Connective → List Char → Except Error (Filter × Nat)
  | 0, _, _ => .ok ([], 0)
  | fuel + 1, c, cs => do
    match ← condition? s cs with
    | none => .ok ([], 0)
    | some (p, n) =>
      let rest := Text.dropTo n cs
      match Grammar.connective.find? rest with
      | none => .ok ([(c, p)], n)
      | some h =>
        let next := Text.dropTo h.span.stop rest
        -- A connective belongs to the chain only if a condition follows it.
        match ← condition? s next with
        | none => .ok ([(c, p)], n)
        | some _ =>
          let (terms, m) ← chainFrom s fuel (connectiveOf ((h.text? 1).getD [])) next
          .ok ((c, p) :: terms, n + h.span.stop + m)

/-- The chain at the start of the text and its size in bytes. -/
def chain (s : Subject) (cs : List Char) : Except Error (Filter × Nat) :=
  chainFrom s (cs.length + 1) .and cs

def Filter.hasOr (f : Filter) : Bool := f.any (·.1 = .or)

/-- The terms by which a chain joins a filter. -/
def chainTerms (f : Filter) : Filter :=
  if Filter.hasOr f then [(.and, .group f)] else f.map fun t => (.and, t.2)

def conditionsFrom (s : Subject) : Nat → Nat → Workspace → Taken Filter
  | 0, _, ws => (.ok [], ws)
  | fuel + 1, low, ws =>
    match Grammar.conditionCue.findAfter? low ws.text with
    | none => (.ok [], ws)
    | some h =>
      match chain s (ws.after h.span.stop) with
      | .error e => (.error e, ws)
      -- A cue with no condition behind it stays in the text.
      | .ok ([], _) => conditionsFrom s fuel h.span.stop ws
      | .ok (terms, n) =>
        let stop := h.span.stop + n
        let (more, ws) := conditionsFrom s fuel stop (ws.take ⟨h.span.start, stop⟩)
        (more.map (chainTerms terms ++ ·), ws)

/-- All chains of conditions. Every cue lies behind the one before it, so there are no more
cues than bytes. -/
def takeConditions (s : Subject) (ws : Workspace) : Taken Filter :=
  conditionsFrom s (Text.size ws.text + 1) 0 ws

end Parlance.Interpretation
