import Parlance.Dialect
import Parlance.Grammar.Time
import Parlance.Number.Integer
import Parlance.Interpretation.Workspace

/-! The window of recent time that a request names. A number of hours, days, weeks or months
that does not fit the window makes the request fail; the filter is never dropped. -/

namespace Parlance.Interpretation

open Grammar (TimePhrase)

def isWeek (unit : List Char) : Bool := "week".toList.isPrefixOf unit

/-- Weeks are counted in days. -/
def countedWindow (amount : Nat) (unit : List Char) : Option TimeWindow :=
  if isWeek unit then some (.last (7 * amount) .day)
  else (TimeUnit.ofWord? unit).map (.last amount)

/-- The window that a phrase means, or nothing if its words only look like one. -/
def windowOf (p : TimePhrase) (h : Pattern.Hit) : Except Error (Option TimeWindow) :=
  let refuse := .error (.unrecognizedIntent (String.ofList (Text.trim h.text)))
  let word (n : Nat) := Text.lower ((h.text? n).getD [])
  match p with
  | .lastN =>
    match (h.text? 1).bind Number.readWord32? with
    | none => refuse
    | some amount =>
      -- Weeks are counted in days, and those have to fit as well.
      if isWeek (word 2) && Number.maxWord32 < 7 * amount then refuse
      else .ok (countedWindow amount (word 2))
  | .lastUnit =>
    if word 1 = "week".toList then .ok (some (.last 7 .day))
    else .ok ((TimeUnit.ofWord? (word 1)).map (.last 1))
  | .yesterday => .ok (some .yesterday)
  | .today => .ok (some .today)

def firstWindow (ws : Workspace) : List TimePhrase → Taken (Option TimeWindow)
  | [] => (.ok none, ws)
  | p :: ps =>
    match p.pattern.find? ws.text with
    | none => firstWindow ws ps
    | some h =>
      match windowOf p h with
      | .error e => (.error e, ws)
      | .ok (some w) => (.ok (some w), ws.take h.span)
      | .ok none => firstWindow ws ps

def takeWindow (ws : Workspace) : Taken (Option TimeWindow) :=
  firstWindow ws TimePhrase.all

end Parlance.Interpretation
