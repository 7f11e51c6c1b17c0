import Parlance.Intent.Render
import Parlance.Pattern
import Parlance.Proofs.Filter.Meaning

/-! A reader of conditions as SQL writes them behind WHERE. A text is cut into tokens, with two
quotes in a row standing for one inside a literal; the tokens are read by a grammar in which AND
binds tighter than OR, and parentheses stand for the condition between them. -/

namespace Parlance.Where

open Pattern (isNameStart isNameChar)
open Text (isDigit)

inductive Token
  | and
  | or
  | not
  | is
  | null
  | like
  | interval
  | boolean (value : Bool)
  | name (text : String)
  | number (digits : String)
  | text (content : String)
  | operator (op : Comparison)
  | opening
  | closing
  | comma
  | minus
  deriving DecidableEq, Repr

/-! ### Tokens -/

/-- The words that name nothing, in any case. -/
def reserved : List (String × Token) := [
  ("AND", .and), ("OR", .or), ("NOT", .not), ("IS", .is), ("NULL", .null), ("LIKE", .like),
  ("INTERVAL", .interval), ("TRUE", .boolean true), ("FALSE", .boolean false)]

def isReserved (cs : List Char) : Bool := reserved.any fun r => Text.sameWord r.1.toList cs

def word (cs : List Char) : Token :=
  match reserved.find? fun r => Text.sameWord r.1.toList cs with
  | some r => r.2
  | none => .name (String.ofList cs)

def isDecimalChar (c : Char) : Bool := isDigit c || c = '.'

def isMantissa (cs : List Char) : Bool := cs.any isDigit && decide (cs.count '.' ≤ 1)

def isExponent : List Char → Bool
  | [] => true
  | c :: cs =>
    let ds := (Number.splitSign cs).2
    (c = 'e' || c = 'E') && !ds.isEmpty && ds.all isDigit

/-- Digits with at most one point, behind a sign and before an exponent. -/
def isNumeral (cs : List Char) : Bool :=
  let body := (Number.splitSign cs).2
  isMantissa (body.takeWhile isDecimalChar) && isExponent (body.dropWhile isDecimalChar)

/-- Whatever is glued to a numeral has to be part of it. -/
def isNumberChar (c : Char) : Bool := isNameChar c || isDecimalChar c || c = '+' || c = '-'

def opensNumber (cs : List Char) : Bool := (Number.splitSign cs).2.head?.any isDecimalChar

/-- The content of a literal up to its closing quote, and the text behind that. -/
def content? : List Char → Option (List Char × List Char)
  | [] => none
  | '\'' :: '\'' :: cs => (content? cs).map fun (s, rest) => ('\'' :: s, rest)
  | '\'' :: cs => some ([], cs)
  | c :: cs => (content? cs).map fun (s, rest) => (c :: s, rest)

def symbol? : List Char → Option (Token × List Char)
  | '(' :: cs => some (.opening, cs)
  | ')' :: cs => some (.closing, cs)
  | ',' :: cs => some (.comma, cs)
  | '-' :: cs => some (.minus, cs)
  | '=' :: cs => some (.operator .equal, cs)
  | '!' :: '=' :: cs => some (.operator .notEqual, cs)
  | '>' :: '=' :: cs => some (.operator .greaterEqual, cs)
  | '>' :: cs => some (.operator .greater, cs)
  | '<' :: '=' :: cs => some (.operator .lessEqual, cs)
  | '<' :: cs => some (.operator .less, cs)
  | '\'' :: cs => (content? cs).map fun (s, rest) => (.text (String.ofList s), rest)
  | _ => none

def token? (cs : List Char) : Option (Token × List Char) :=
  if cs.head?.any isNameStart then
    some (word (cs.takeWhile isNameChar), cs.dropWhile isNameChar)
  else if opensNumber cs then
    let digits := cs.takeWhile isNumberChar
    if isNumeral digits then some (.number (String.ofList digits), cs.dropWhile isNumberChar)
    else none
  else symbol? cs

/-- The tokens of a text of at most `n` characters. -/
def tokensFrom? : Nat → List Char → Option (List Token)
  | _, [] => some []
  | 0, _ :: _ => none
  | n + 1, c :: cs =>
    if c = ' ' then tokensFrom? n cs
    else (token? (c :: cs)).bind fun (t, rest) => (tokensFrom? n rest).map (t :: ·)

def tokens? (cs : List Char) : Option (List Token) := tokensFrom? cs.length cs

/-! ### Conditions -/

inductive Value
  | literal (value : Literal)
  | name (text : String)
  | call (function : String) (arguments : List String)
  deriving DecidableEq, Repr

inductive Interval
  | text (content : String)
  | units (amount unit : String)
  deriving DecidableEq, Repr

/-- A value, or the time that lies an interval before it. -/
structure Operand where
  value : Value
  before : Option Interval
  deriving DecidableEq, Repr

inductive Atom
  | compare (column : String) (op : Comparison) (operand : Operand)
  | like (column pattern : String)
  | isNull (column : String) (negated : Bool)
  deriving DecidableEq, Repr

inductive Expr
  | atom (a : Atom)
  | and (left right : Expr)
  | or (left right : Expr)
  deriving DecidableEq, Repr

def Expr.value (v : Atom → Truth) : Expr → Truth
  | .atom a => v a
  | .and left right => (left.value v).and (right.value v)
  | .or left right => (left.value v).or (right.value v)

/-! ### The grammar

Every function takes what it reads from the front of the tokens and leaves the rest. -/

def moreArguments? : List Token → Option (List String × List Token)
  | .closing :: ts => some ([], ts)
  | .comma :: .text s :: ts => (moreArguments? ts).map fun (ss, rest) => (s :: ss, rest)
  | _ => none

def arguments? : List Token → Option (List String × List Token)
  | .closing :: ts => some ([], ts)
  | .text s :: ts => (moreArguments? ts).map fun (ss, rest) => (s :: ss, rest)
  | _ => none

def value? : List Token → Option (Value × List Token)
  | .number s :: ts => some (.literal (.number s), ts)
  | .text s :: ts => some (.literal (.text s), ts)
  | .boolean b :: ts => some (.literal (.boolean b), ts)
  | .name f :: .opening :: ts => (arguments? ts).map fun (ss, rest) => (.call f ss, rest)
  | .name s :: ts => some (.name s, ts)
  | _ => none

def before? : List Token → Option (Option Interval × List Token)
  | .minus :: .interval :: .text s :: ts => some (some (.text s), ts)
  | .minus :: .interval :: .number n :: .name u :: ts => some (some (.units n u), ts)
  | .minus :: _ => none
  | ts => some (none, ts)

def operand? (ts : List Token) : Option (Operand × List Token) :=
  (value? ts).bind fun (v, ts) => (before? ts).map fun (i, rest) => (⟨v, i⟩, rest)

def atom? : List Token → Option (Atom × List Token)
  | .name c :: .operator op :: ts => (operand? ts).map fun (x, rest) => (.compare c op x, rest)
  | .name c :: .like :: .text s :: ts => some (.like c s, ts)
  | .name c :: .is :: .null :: ts => some (.isNull c false, ts)
  | .name c :: .is :: .not :: .null :: ts => some (.isNull c true, ts)
  | _ => none

mutual

/-- Conjunctions with OR between them; `n` bounds the calls nested in this one. -/
def disjunction? : Nat → List Token → Option (Expr × List Token)
  | 0, _ => none
  | n + 1, ts =>
    match conjunction? n ts with
    | some (e, .or :: ts) => (disjunction? n ts).map fun (e', rest) => (.or e e', rest)
    | r => r

def conjunction? : Nat → List Token → Option (Expr × List Token)
  | 0, _ => none
  | n + 1, ts =>
    match factor? n ts with
    | some (e, .and :: ts) => (conjunction? n ts).map fun (e', rest) => (.and e e', rest)
    | r => r

def factor? : Nat → List Token → Option (Expr × List Token)
  | 0, _ => none
  | n + 1, .opening :: ts =>
    match disjunction? n ts with
    | some (e, .closing :: rest) => some (e, rest)
    | _ => none
  | _ + 1, ts => (atom? ts).map fun (a, rest) => (.atom a, rest)

end

def read? (cs : List Char) : Option Expr := do
  let ts ← tokens? cs
  let (e, rest) ← disjunction? (3 * ts.length + 3) ts
  if rest.isEmpty then some e else none

end Parlance.Where
