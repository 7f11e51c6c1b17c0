import Parlance.Pattern

/-! Checks that a statement passes before it is executed: dangerous patterns, statements
stacked behind one another, destructive operations, tables beyond the allowed ones, and an
advisory score of its complexity. Every check runs, so that a verdict lists all objections
at once. -/

namespace Parlance

open Pattern (seq oneOf edge word phrase char one many maybeGap gap group optional)

namespace Validation

/-- A mark that is matched as it is written. -/
def mark (s : String) : Pattern := seq (s.toList.map char)

def dangers : List (Pattern × String) := [
  (mark "--", "inline comment (--)"),
  (mark "/*", "block comment (/*)"),
  (seq [edge, word "xp_"], "extended procedure (xp_)"),
  (seq [edge, word "sp_"], "stored procedure (sp_)"),
  (seq [edge, word "exec", optional (word "ute"), maybeGap, char '('], "dynamic execution (exec()")]

def wholeWord (w : String) : Pattern := seq [edge, phrase w, edge]

def whereClause : Pattern := wholeWord "where"
def join : Pattern := wholeWord "join"
def subquery : Pattern := seq [char '(', maybeGap, word "select", edge]

def aggregate : Pattern :=
  oneOf [seq [edge, oneOf [word "count", word "sum", word "avg", word "max", word "min"], maybeGap, char '('],
    wholeWord "group by"]

def union : Pattern := wholeWord "union"
def openLike : Pattern := seq [edge, word "like", gap, mark "'%"]

def isOpening (c : Char) : Bool := c = '`' || c = '"' || c = '['
def isClosing (c : Char) : Bool := c = '`' || c = '"' || c = ']'
def isBracket (c : Char) : Bool := isOpening c || isClosing c
def isTableChar (c : Char) : Bool := Pattern.isNameChar c || c = '$'

/-- A name, quoted or not. -/
def tableName : Pattern :=
  seq [optional (one isOpening), one Pattern.isNameStart, many isTableChar, optional (one isClosing)]

/-- A table behind the word that introduces it, with a schema before it or not. -/
def tableReference : Pattern :=
  seq [edge, oneOf [word "from", word "join", word "into", word "update"], gap,
    group 1 (both tableName (optional (both (char '.') tableName)))]
where both := Pattern.both

def destructiveWords : List String :=
  ["DROP", "DELETE", "TRUNCATE", "ALTER", "CREATE", "GRANT", "REVOKE"]

/-- The number of statements that are not blank. -/
def statementCount (cs : List Char) : Nat :=
  ((Text.pieces (· = ';') cs).filter fun p => !(Text.trim p).isEmpty).length

/-- Where a scan of a statement stands: the quote that is open, if any, and the number of open
parentheses. -/
structure Nesting where
  quote : Option Char
  depth : Nat
  deriving DecidableEq, Repr

def Nesting.outer : Nesting := ⟨none, 0⟩

def isQuote (c : Char) : Bool := c = '\'' || c = '"' || c = '`'

def Nesting.step (n : Nesting) (c : Char) : Nesting :=
  match n.quote with
  | some q => if c = q then ⟨none, n.depth⟩ else n
  | none =>
    if isQuote c then ⟨some c, n.depth⟩
    else if c = '(' then ⟨none, n.depth + 1⟩
    -- One that closes nothing is passed over.
    else if c = ')' then ⟨none, n.depth - 1⟩
    else n

/-- The character is outside quotes and parentheses and neither opens nor closes them. -/
def Nesting.shows (n : Nesting) (c : Char) : Bool :=
  n = Nesting.outer && !isQuote c && c ≠ '(' && c ≠ ')'

def maskFrom : Nesting → List Char → List Char
  | _, [] => []
  | n, c :: cs => (if n.shows c then c else ' ') :: maskFrom (n.step c) cs

/-- The statement with spaces for all that is quoted or in parentheses. -/
def topLevel (cs : List Char) : List Char := maskFrom .outer cs

def endsKeyword (c : Char) : Bool := Text.isBlank c || c = '(' || c = ';'

def leadingKeyword (cs : List Char) : String :=
  String.ofList (Text.upper (cs.takeWhile (!endsKeyword ·)))

/-- The operation and whether it is destructive. -/
def classify (cs : List Char) : String × Bool :=
  let keyword := leadingKeyword cs
  if (keyword = "DELETE" || keyword = "UPDATE") && !whereClause.holds (topLevel cs) then
    (keyword ++ " without WHERE clause", true)
  else (keyword, destructiveWords.contains keyword)

def count (p : Pattern) (cs : List Char) : Nat := (p.hits cs).length

/-- A number of any size; it is not cut to the width of a word. -/
def complexity (cs : List Char) : Nat :=
  10 + count join cs * 10 + count subquery cs * 15 + count aggregate cs * 5 + count union cs * 10
    + count openLike cs * 5

/-- The last part of a reference without its quotes, in lower case. -/
def bareName (reference : List Char) : String :=
  let last := ((Text.pieces (· = '.') reference).getLast?).getD []
  String.ofList (Text.lower (Text.dropEndWhile isBracket (last.dropWhile isBracket)))

/-- The tables that the statement refers to, in the order of their references. -/
def referencedTables (cs : List Char) : List String :=
  (tableReference.hits cs).filterMap fun h => (h.text? 1).map bareName

end Validation

open Validation

structure Verdict where
  accepted : Bool
  errors : List String
  warnings : List String
  isDestructive : Bool
  complexity : Nat
  operation : String
  requiresConfirmation : Bool
  deriving DecidableEq, Repr

structure Validator where
  allowDestructive : Bool
  maxComplexity : Nat
  /-- In lower case; if there are none, any table is allowed. -/
  allowedTables : List String

namespace Validator

def new (allowDestructive : Bool) (maxComplexity : Nat) (tables : List String) : Validator :=
  ⟨allowDestructive, maxComplexity,
    (tables.map fun t => String.ofList (Text.lower (Text.trim t.toList))).filter (· ≠ "")⟩

def addOnce (out : List String) (t : String) : List String := if t ∈ out then out else out ++ [t]

def unauthorized (v : Validator) (cs : List Char) : List String :=
  ((referencedTables cs).filter (!v.allowedTables.contains ·)).foldl addOnce []

def dangerErrors (cs : List Char) : List String :=
  (dangers.filter (·.1.holds cs)).map fun d => "Potentially dangerous pattern detected: " ++ d.2

def stackErrors (cs : List Char) : List String :=
  if 1 < statementCount cs then ["Multiple SQL statements not allowed"] else []

def confirmationErrors (operation : String) (requires : Bool) : List String :=
  if requires then ["Destructive operation (" ++ operation
    ++ ") requires confirmation; resubmit with confirm_destructive=true"]
  else []

def tableErrors (v : Validator) (cs : List Char) : List String :=
  if v.allowedTables.isEmpty then []
  else match v.unauthorized cs with
  | [] => []
  | ts => ["Unauthorized tables: " ++ ", ".intercalate ts]

def complexityWarnings (v : Validator) (score : Nat) : List String :=
  if v.maxComplexity < score then
    ["Query complexity score " ++ toString score ++ " exceeds threshold " ++ toString v.maxComplexity]
  else []

def emptyVerdict : Verdict := ⟨false, ["Empty query"], [], false, 0, "", false⟩

/-- A destructive statement needs the caller's confirmation unless it is allowed in general. -/
def validate (v : Validator) (sql : List Char) (confirm : Bool) : Verdict :=
  let cs := Text.trim sql
  if cs.isEmpty then emptyVerdict
  else
    let (operation, destructive) := classify cs
    let requires := destructive && !confirm && !v.allowDestructive
    let errors := dangerErrors cs ++ stackErrors cs ++ confirmationErrors operation requires
      ++ v.tableErrors cs
    let score := Validation.complexity cs
    { accepted := errors.isEmpty
      errors := errors
      warnings := (if destructive && !requires then ["Destructive operation: " ++ operation] else [])
        ++ v.complexityWarnings score
      isDestructive := destructive
      complexity := score
      operation := operation
      requiresConfirmation := requires }

theorem accepted_iff (v : Validator) (sql : List Char) (confirm : Bool) :
    (v.validate sql confirm).accepted = true ↔ (v.validate sql confirm).errors = [] := by
  simp only [validate]
  split <;> simp [emptyVerdict]

end Validator

end Parlance
