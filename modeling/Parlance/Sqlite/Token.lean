import Parlance.Sqlite.Value

/-! The words of a statement, each with the place where it stands. Space and comments separate
words; a character that can begin none makes a word that nothing accepts. -/

namespace Parlance.Sqlite

inductive TokenKind
  | word
  | quotedName
  | string
  | blob
  | integer
  | real
  | variable
  | symbol
  | illegal
  deriving DecidableEq, Repr

structure Token where
  kind : TokenKind
  /-- As written, with quotes. -/
  text : List Char
  /-- In bytes from the beginning of the statement. -/
  offset : Nat
  deriving DecidableEq, Repr

namespace Token

def isNameChar (c : Char) : Bool := c.isAlphanum || c = '_' || c = '$' || 128 ≤ c.toNat
def isNameStart (c : Char) : Bool := c.isAlpha || c = '_' || 128 ≤ c.toNat
def isHexDigit (c : Char) : Bool := (Number.hexValue? c).isSome

/-- The number of characters from behind a quote up to the one that closes it, that included;
a doubled quote closes nothing. -/
def quotedLength (q : Char) : List Char → Option Nat
  | [] => none
  | [c] => if c = q then some 1 else none
  | c :: d :: cs =>
    if c = q then (if d = q then (quotedLength q cs).map (· + 2) else some 1)
    else (quotedLength q (d :: cs)).map (· + 1)

def runLength (p : Char → Bool) (cs : List Char) : Nat := (cs.takeWhile p).length

/-- The rest of a comment that `/*` begins; it may stay open to the end. -/
def blockLength : List Char → Nat
  | '*' :: '/' :: _ => 2
  | _ :: cs => blockLength cs + 1
  | [] => 0

def exponentLength : List Char → Nat
  | e :: c :: cs =>
    if e = 'e' || e = 'E' then
      if Text.isAsciiDigit c then 1 + runLength Text.isAsciiDigit (c :: cs)
      else if (c = '+' || c = '-') && 0 < runLength Text.isAsciiDigit cs then
        2 + runLength Text.isAsciiDigit cs
      else 0
    else 0
  | _ => 0

def fractionLength : List Char → Nat
  | '.' :: cs => 1 + runLength Text.isAsciiDigit cs
  | _ => 0

/-- A numeral that runs into a name is none. -/
def numeralLength (cs : List Char) : TokenKind × Nat :=
  let whole := runLength Text.isAsciiDigit cs
  let fraction := fractionLength (cs.drop whole)
  let exponent := exponentLength (cs.drop (whole + fraction))
  let n := whole + fraction + exponent
  let tail := runLength isNameChar (cs.drop n)
  if 0 < tail then (.illegal, n + tail)
  else if fraction = 0 && exponent = 0 then (.integer, n)
  else (.real, n)

def isHexadecimal : List Char → Bool
  | '0' :: x :: c :: _ => (x = 'x' || x = 'X') && isHexDigit c
  | _ => false

def hexadecimalLength (cs : List Char) : TokenKind × Nat :=
  let n := 2 + runLength isHexDigit (cs.drop 2)
  let tail := runLength isNameChar (cs.drop n)
  if 0 < tail then (.illegal, n + tail) else (.integer, n)

/-- What follows `x'`. -/
def blobLength (cs : List Char) : TokenKind × Nat :=
  let n := runLength isHexDigit cs
  if cs[n]? = some '\'' && n % 2 = 0 then (.blob, n + 3)
  else
    let open_ := runLength (· ≠ '\'') cs
    (.illegal, 2 + open_ + (if open_ < cs.length then 1 else 0))

def quotedToken (kind : TokenKind) (q : Char) (cs : List Char) : Option TokenKind × Nat :=
  match quotedLength q cs with
  | some n => (some kind, n + 1)
  | none => (some .illegal, cs.length + 1)

def twoCharSymbols : List (Char × Char) := [('|', '|'), ('<', '='), ('<', '>'), ('<', '<'),
  ('>', '='), ('>', '>'), ('=', '='), ('!', '='), ('-', '>')]

def oneCharSymbols : List Char := ['(', ')', ';', '+', '-', '*', '/', '%', '=', '<', '>', '|', '&',
  '~', ',', '.']

def symbolLength (c : Char) (cs : List Char) : Option TokenKind × Nat :=
  if cs.head?.any fun d => twoCharSymbols.contains (c, d) then (some .symbol, 2)
  else if oneCharSymbols.contains c then (some .symbol, 1)
  else (some .illegal, 1)

/-- Kind and number of characters of what comes first; space and comments have no kind. -/
def first (c : Char) (cs : List Char) : Option TokenKind × Nat :=
  if isSpace c && c ≠ '\x0b' then (none, 1 + runLength isSpace cs)
  else if c = '-' && cs.head? = some '-' then (none, 1 + runLength (· ≠ '\n') cs)
  else if c = '/' && cs.head? = some '*' && 1 < cs.length then (none, 2 + blockLength (cs.drop 1))
  else if c = '\'' then quotedToken .string '\'' cs
  else if c = '"' then quotedToken .quotedName '"' cs
  else if c = '\x60' then quotedToken .quotedName '\x60' cs
  else if c = '[' then
    let n := runLength (· ≠ ']') cs
    if n < cs.length then (some .quotedName, n + 2) else (some .illegal, n + 1)
  else if c = '?' then (some .variable, 1 + runLength Text.isAsciiDigit cs)
  else if c = '@' || c = ':' || c = '$' then
    let n := runLength isNameChar cs
    (some (if n = 0 then .illegal else .variable), n + 1)
  else if (c = 'x' || c = 'X') && cs.head? = some '\'' then
    let (kind, n) := blobLength (cs.drop 1)
    (some kind, n)
  else if isNameStart c then (some .word, 1 + runLength isNameChar cs)
  else if isHexadecimal (c :: cs) then
    let (kind, n) := hexadecimalLength (c :: cs)
    (some kind, n)
  else if Text.isAsciiDigit c || (c = '.' && cs.head?.any Text.isAsciiDigit) then
    let (kind, n) := numeralLength (c :: cs)
    (some kind, n)
  else symbolLength c cs

def scanFrom (offset : Nat) : Nat → List Char → List Token
  | 0, _ | _, [] => []
  | fuel + 1, c :: cs =>
    let (kind, n) := first c cs
    let text := (c :: cs).take n
    let rest := scanFrom (offset + Text.size text) fuel ((c :: cs).drop n)
    match kind with
    | some k => ⟨k, text, offset⟩ :: rest
    | none => rest

/-- A statement ends where its text has a zero character. -/
def scan (sql : List Char) : List Token :=
  let cs := sql.takeWhile (· ≠ '\x00')
  scanFrom 0 cs.length cs

def collapse (q : Char) : List Char → List Char
  | [] => []
  | [c] => [c]
  | c :: d :: cs => if c = q && d = q then q :: collapse q cs else c :: collapse q (d :: cs)

/-- The contents between the quotes, doubled quotes made single. -/
def unquoted (t : Token) : String :=
  match t.text with
  | '[' :: cs => String.ofList cs.dropLast
  | q :: cs => String.ofList (collapse q cs.dropLast)
  | [] => ""

def source (t : Token) : String := String.ofList t.text

def stop (t : Token) : Nat := t.offset + Text.size t.text

def keyword (t : Token) : String := String.ofList (t.text.map Char.toUpper)

/-- Words that never name anything. All other keywords do where they cannot be keywords. -/
def reserved : List String := ["ADD", "ALL", "ALTER", "AND", "AS", "AUTOINCREMENT", "BETWEEN",
  "CASE", "CHECK", "COLLATE", "COMMIT", "CONSTRAINT", "CREATE", "DEFAULT", "DEFERRABLE", "DELETE",
  "DISTINCT", "DROP", "ELSE", "ESCAPE", "EXCEPT", "EXISTS", "FOREIGN", "FROM", "GROUP", "HAVING",
  "IN", "INDEX", "INSERT", "INTERSECT", "INTO", "IS", "ISNULL", "JOIN", "LIMIT", "NOT", "NOTHING",
  "NOTNULL", "NULL", "ON", "OR", "ORDER", "PRIMARY", "REFERENCES", "RETURNING", "SELECT", "SET",
  "TABLE", "THEN", "TO", "TRANSACTION", "UNION", "UNIQUE", "UPDATE", "USING", "VALUES", "WHEN",
  "WHERE"]

/-- Words of joins may name tables and columns but are no label. -/
def joinWords : List String := ["CROSS", "FULL", "INNER", "LEFT", "NATURAL", "OUTER", "RIGHT"]

def isReserved (t : Token) : Bool := reserved.contains t.keyword

end Token

end Parlance.Sqlite
