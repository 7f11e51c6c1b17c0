import Parlance.Json.Number
import Parlance.Number.Hexadecimal

/-! Reading JSON texts strictly: one value, nothing behind it, no comma too many, no escape
that is none. A text is read from left to right with a stack of the containers that are open;
every step consumes at least one character. Half a character, a number out of range and a
container too deep are well formed but have no value: a reader of records passes over them
until they are asked for, and any other reader stops there. -/

namespace Parlance.Json

open Number (hexValue?)

inductive Cause
  | eofInList
  | eofInObject
  | eofInString
  | eofInValue
  | expectedColon
  | expectedListCommaOrEnd
  | expectedObjectCommaOrEnd
  | expectedIdent
  | expectedValue
  | invalidEscape
  | invalidNumber
  | numberOutOfRange
  | controlCharacter
  | keyMustBeString
  | loneSurrogate
  | unexpectedEndOfHexEscape
  | trailingComma
  | trailingCharacters
  | recursionLimit
  deriving DecidableEq, Repr

def Cause.message : Cause → String
  | eofInList => "EOF while parsing a list"
  | eofInObject => "EOF while parsing an object"
  | eofInString => "EOF while parsing a string"
  | eofInValue => "EOF while parsing a value"
  | expectedColon => "expected `:`"
  | expectedListCommaOrEnd => "expected `,` or `]`"
  | expectedObjectCommaOrEnd => "expected `,` or `\x7d`"
  | expectedIdent => "expected ident"
  | expectedValue => "expected value"
  | invalidEscape => "invalid escape"
  | invalidNumber => "invalid number"
  | numberOutOfRange => "number out of range"
  | controlCharacter => "control character (\\u0000-\\u001F) found while parsing a string"
  | keyMustBeString => "key must be a string"
  | loneSurrogate => "lone leading surrogate in hex escape"
  | unexpectedEndOfHexEscape => "unexpected end of hex escape"
  | trailingComma => "trailing comma"
  | trailingCharacters => "trailing characters"
  | recursionLimit => "recursion limit exceeded"

/-- What is wrong and the text from there on; `ahead` if the fault is the next character
rather than the last one read. -/
structure Fault where
  cause : Cause
  rest : List Char
  ahead : Bool

abbrev Read (α : Type) := Except Fault (α × List Char)

def after (cause : Cause) (rest : List Char) : Fault := ⟨cause, rest, false⟩
def before (cause : Cause) (rest : List Char) : Fault := ⟨cause, rest, true⟩

def isSpace (c : Char) : Bool := c = ' ' || c = '\n' || c = '\t' || c = '\r'

def skipSpace (cs : List Char) : List Char := cs.dropWhile isSpace

def hex4? (a b c d : Char) : Option Nat := do
  some ((((← hexValue? a) * 16 + (← hexValue? b)) * 16 + (← hexValue? c)) * 16 + (← hexValue? d))

def isLeadingSurrogate (n : Nat) : Bool := 0xd800 ≤ n && n ≤ 0xdbff
def isTrailingSurrogate (n : Nat) : Bool := 0xdc00 ≤ n && n ≤ 0xdfff

def pairedSurrogates (hi lo : Nat) : Char := Char.ofNat (0x10000 + (hi - 0xd800) * 0x400 + (lo - 0xdc00))

def simpleEscape? : Char → Option Char
  | '"' => some '"'
  | '\\' => some '\\'
  | '/' => some '/'
  | 'b' => some '\x08'
  | 'f' => some '\x0c'
  | 'n' => some '\n'
  | 'r' => some '\r'
  | 't' => some '\t'
  | _ => none

/-- Whether parts without a value stop the reader. -/
inductive Mode
  | strict
  | lenient
  deriving DecidableEq, Repr

/-- Characters read so far, last first; none if one of them is half a character. -/
abbrev Acc := Option (List Char)

def Acc.add (c : Char) (acc : Acc) : Acc := acc.map (c :: ·)

def readString (mode : Mode) (acc : Acc) : List Char → Read (Option String)
  | [] => .error (after .eofInString [])
  | '"' :: cs => .ok (acc.map fun a => String.ofList a.reverse, cs)
  | '\\' :: 'u' :: a :: b :: c :: d :: cs =>
    match hex4? a b c d with
    | none => .error (after .invalidEscape cs)
    | some n =>
      if !isLeadingSurrogate n && !isTrailingSurrogate n then
        readString mode (acc.add (Char.ofNat n)) cs
      -- Half a character leaves no text, but what follows it has to be well formed.
      else if mode = .lenient then readString mode none cs
      else if isTrailingSurrogate n then .error (after .loneSurrogate cs)
      else
        match cs with
        | '\\' :: 'u' :: e :: f :: g :: h :: cs =>
          match hex4? e f g h with
          | some m =>
            if isTrailingSurrogate m then readString mode (acc.add (pairedSurrogates n m)) cs
            else .error (after .loneSurrogate cs)
          | none => .error (after .invalidEscape cs)
        | cs => .error (after .unexpectedEndOfHexEscape cs)
  | '\\' :: 'u' :: _ => .error (after .eofInString [])
  | '\\' :: e :: cs =>
    match simpleEscape? e with
    | some c => readString mode (acc.add c) cs
    | none => .error (after .invalidEscape cs)
  | ['\\'] => .error (after .eofInString [])
  | c :: cs =>
    if c.toNat < 32 then .error (after .controlCharacter cs) else readString mode (acc.add c) cs

/-- The characters behind a quote, as they stand; only where that fails in a lenient reader is there no
text. -/
def readQuoted (mode : Mode) (cs : List Char) : Read (Option String) :=
  match readString .strict (some []) cs with
  | .ok r => .ok r
  | .error f =>
    match mode with
    | .strict => .error f
    | .lenient => readString .lenient (some []) cs

def readText (mode : Mode) (cs : List Char) : Except Fault (Json × List Char) := do
  let (s, cs) ← readQuoted mode cs
  .ok (s.elim unfit text, cs)

def isDigit (c : Char) : Bool := Text.isAsciiDigit c

/-- The rest of a word such as `null` after its first letter. -/
def readWord (value : Json) : List Char → List Char → Read Json
  | [], cs => .ok (value, cs)
  | _ :: _, [] => .error (after .eofInValue [])
  | w :: ws, c :: cs => if w = c then readWord value ws cs else .error (after .expectedIdent cs)

def readWhole : List Char → Read (List Char)
  | [] => .error (after .invalidNumber [])
  | '0' :: cs =>
    if cs.head?.any isDigit then .error (before .invalidNumber cs) else .ok (['0'], cs)
  | c :: cs =>
    if isDigit c then .ok ((c :: cs).takeWhile isDigit, (c :: cs).dropWhile isDigit)
    else .error (after .invalidNumber cs)

def readFraction : List Char → Read (Option (List Char))
  | '.' :: cs =>
    match cs with
    | [] => .error (before .eofInValue [])
    | c :: _ =>
      if isDigit c then .ok (some (cs.takeWhile isDigit), cs.dropWhile isDigit)
      else .error (before .invalidNumber cs)
  | cs => .ok (none, cs)

def readExponent : List Char → Read (Option Int)
  | [] => .ok (none, [])
  | c :: cs =>
    if c = 'e' || c = 'E' then
      let (negative, ds) := Number.splitSign cs
      match ds with
      | [] => .error (after .eofInValue [])
      | d :: rest =>
        if isDigit d then
          let n : Int := Number.ofDigits (ds.takeWhile isDigit)
          .ok (some (if negative then -n else n), ds.dropWhile isDigit)
        else .error (after .invalidNumber rest)
    else .ok (none, c :: cs)

def readNumber (mode : Mode) (negative : Bool) (cs : List Char) : Except Fault (Json × List Char) := do
  let (whole, cs) ← readWhole cs
  let (fraction, cs) ← readFraction cs
  let (exponent, cs) ← readExponent cs
  match (Numeral.mk negative whole fraction exponent).value? with
  | some v => .ok (v, cs)
  | none => if mode = .lenient then .ok (unfit, cs) else .error (after .numberOutOfRange cs)

/-- Fields read so far, last first; none if the key of one is no text. -/
abbrev Fields := Option (List (String × Json))

def Fields.add (key : Option String) (v : Json) (fields : Fields) : Fields := do
  some ((← key, v) :: (← fields))

def Fields.close : Fields → Json
  | some fields => object fields.reverse
  | none => unfit

/-- A container whose end has not been read; its contents are held last first. -/
inductive Frame
  | list (items : List Json)
  | object (fields : Fields) (key : Option String)

/-- Containers may be nested this deep, less one. -/
def depthLimit : Nat := 128

inductive Step
  /-- A value is to be read. -/
  | value
  /-- A key is to be read, for an object with these fields. -/
  | key (fields : Fields)
  /-- A value has been read. -/
  | done (v : Json)

def readKey (mode : Mode) (fields : Fields) (cs : List Char) : Except Fault (Frame × List Char) := do
  match cs with
  | '"' :: cs =>
    -- The key of an object that nobody asks for may be half a character, like any other text there.
    let (key, cs) ← readQuoted mode cs
    match skipSpace cs with
    | ':' :: cs => .ok (.object fields key, cs)
    | [] => .error (before .eofInObject [])
    | cs => .error (before .expectedColon cs)
  | cs => .error (before .keyMustBeString cs)

/-- A container read to its end, with the given number of containers around it. -/
def close (outer : Nat) (v : Json) : Json := if depthLimit ≤ outer + 1 then unfit else v

def tooDeep (mode : Mode) (stack : List Frame) : Bool :=
  mode = .strict && depthLimit ≤ stack.length + 1

def run (mode : Mode) : Nat → List Frame → Step → List Char → Except Fault Json
  | 0, _, _, cs => .error (before .trailingCharacters cs)
  | fuel + 1, stack, .value, cs =>
    match skipSpace cs with
    | [] => .error (before .eofInValue [])
    | 'n' :: cs => do let (v, cs) ← readWord null "ull".toList cs; run mode fuel stack (.done v) cs
    | 't' :: cs => do let (v, cs) ← readWord (bool true) "rue".toList cs; run mode fuel stack (.done v) cs
    | 'f' :: cs => do let (v, cs) ← readWord (bool false) "alse".toList cs; run mode fuel stack (.done v) cs
    | '-' :: cs => do let (v, cs) ← readNumber mode true cs; run mode fuel stack (.done v) cs
    | '"' :: cs => do let (v, cs) ← readText mode cs; run mode fuel stack (.done v) cs
    | '[' :: cs =>
      if tooDeep mode stack then .error (before .recursionLimit ('[' :: cs))
      else match skipSpace cs with
      | [] => .error (before .eofInList [])
      | ']' :: cs => run mode fuel stack (.done (close stack.length (list []))) cs
      | cs => run mode fuel (.list [] :: stack) .value cs
    | '\x7b' :: cs =>
      if tooDeep mode stack then .error (before .recursionLimit ('\x7b' :: cs))
      else match skipSpace cs with
      | [] => .error (before .eofInObject [])
      | '\x7d' :: cs => run mode fuel stack (.done (close stack.length (object []))) cs
      | cs => run mode fuel stack (.key (some [])) cs
    | c :: cs =>
      if isDigit c then do let (v, cs) ← readNumber mode false (c :: cs); run mode fuel stack (.done v) cs
      else .error (before .expectedValue (c :: cs))
  | fuel + 1, stack, .key fields, cs => do
    let (frame, cs) ← readKey mode fields cs
    run mode fuel (frame :: stack) .value cs
  | _ + 1, [], .done v, cs =>
    match skipSpace cs with
    | [] => .ok v
    | cs => .error (before .trailingCharacters cs)
  | fuel + 1, .list items :: stack, .done v, cs =>
    match skipSpace cs with
    | [] => .error (before .eofInList [])
    | ']' :: cs => run mode fuel stack (.done (close stack.length (list (v :: items).reverse))) cs
    | ',' :: cs =>
      match skipSpace cs with
      | [] => .error (before .eofInValue [])
      | ']' :: cs => .error (before .trailingComma (']' :: cs))
      | cs => run mode fuel (.list (v :: items) :: stack) .value cs
    | cs => .error (before .expectedListCommaOrEnd cs)
  | fuel + 1, .object fields key :: stack, .done v, cs =>
    let fields := fields.add key v
    match skipSpace cs with
    | [] => .error (before .eofInObject [])
    | '\x7d' :: cs => run mode fuel stack (.done (close stack.length fields.close)) cs
    | ',' :: cs =>
      match skipSpace cs with
      | [] => .error (before .eofInValue [])
      | '\x7d' :: cs => .error (before .trailingComma ('\x7d' :: cs))
      | cs => run mode fuel stack (.key fields) cs
    | cs => .error (before .expectedObjectCommaOrEnd cs)

/-- Each character is read in at most two steps. -/
def readIn (mode : Mode) (cs : List Char) : Except Fault Json :=
  run mode (2 * cs.length + 2) [] .value cs

def read (cs : List Char) : Except Fault Json := readIn .strict cs

def read? (s : String) : Option Json := (read s.toList).toOption

/-- For texts of which only known fields are asked for. -/
def readRecord? (s : String) : Option Json := (readIn .lenient s.toList).toOption

def Fault.offset (text : List Char) (f : Fault) : Nat :=
  let here := Text.size text - Text.size f.rest
  if f.ahead then min (Text.size text) (here + 1) else here

/-- The message with the line and the column, in bytes, at which reading stopped. -/
def Fault.message (text : List Char) (f : Fault) : String :=
  let read := Text.takeTo (f.offset text) text
  let lines := Text.pieces (· = '\n') read
  let line := (lines.getLast?.getD [])
  let column := f.offset text - (Text.size read - Text.size line)
  f.cause.message ++ " at line " ++ toString lines.length ++ " column " ++ toString column

end Parlance.Json
