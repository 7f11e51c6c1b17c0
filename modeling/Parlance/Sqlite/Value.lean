import Parlance.Bytes
import Parlance.Engine.Param
import Parlance.Number.Decimal
import Parlance.Number.Significant

/-! Values of SQLite, the affinities that columns have for them, and how values are converted,
compared and reckoned with. -/

namespace Parlance.Sqlite

inductive Value
  | null
  | int (n : Int)
  | real (x : Float)
  | text (b : Bytes)
  | blob (b : Bytes)

inductive Affinity
  | integer
  | text
  | blob
  | real
  | numeric
  deriving DecidableEq, Repr

/-- Judged from words within the name of a type; the first that occurs decides, and a type
without a name takes values as they are. -/
def Affinity.ofType (type : String) : Affinity :=
  let t := Text.asciiLower type.toList
  let has (w : String) : Bool := Text.contains w.toList t
  if has "int" then integer
  else if has "char" || has "clob" || has "text" then text
  else if t.isEmpty || has "blob" then blob
  else if has "real" || has "floa" || has "doub" then real
  else numeric

def Affinity.isNumeric : Affinity → Bool
  | integer | real | numeric => true
  | text | blob => false

structure Numeral where
  value : Number.Decimal
  /-- There is neither a point nor an exponent. -/
  whole : Bool
  /-- Nothing but space follows. -/
  complete : Bool

def isSpace (c : Char) : Bool := c = ' ' || ('\t' ≤ c && c ≤ '\r')

/-- An exponent counts only with digits. -/
def splitExponent (cs : List Char) : Option Int × List Char :=
  match cs with
  | c :: rest =>
    let (negative, ds) := Number.splitSign rest
    let digits := ds.takeWhile Text.isAsciiDigit
    if (c = 'e' || c = 'E') && !digits.isEmpty then
      let n : Int := Number.ofDigits digits
      (some (if negative then -n else n), ds.dropWhile Text.isAsciiDigit)
    else (none, cs)
  | [] => (none, [])

def Numeral.read? (cs : List Char) : Option Numeral :=
  let (negative, cs) := Number.splitSign (cs.dropWhile isSpace)
  let whole := cs.takeWhile Text.isAsciiDigit
  let rest := cs.dropWhile Text.isAsciiDigit
  let (part, rest') := Number.splitFraction rest
  if whole.isEmpty && part.isEmpty then none
  else
    let (exponent, tail) := splitExponent rest'
    some {
      value := ⟨negative, Number.ofDigits (whole ++ part), exponent.getD 0 - part.length⟩
      whole := rest.length = rest'.length && exponent.isNone
      complete := tail.all isSpace }

def signedDigits (d : Number.Decimal) : Int := if d.negative then -(d.digits : Int) else d.digits

def Numeral.toValue (n : Numeral) : Value :=
  if n.whole && Number.fitsInt64 (signedDigits n.value) then .int (signedDigits n.value)
  else .real n.value.toFloat

/-- The integer part toward zero. -/
def truncate (x : Float) : Int := x.toInt64.toInt

namespace Value

def ofText (s : String) : Value := text (.ofText s)

/-- There is no value for what is not a number. -/
def ofReal (x : Float) : Value := if x != x then null else real x

def ofParam : Param → Value
  | .null => null
  | .bool b => int (if b then 1 else 0)
  | .int n => int n
  | .float x => ofReal x
  | .text s => ofText s

/-- The name of the class in which a value is stored; null has none. -/
def storageClass : Value → Option String
  | null => none
  | int _ => some "INTEGER"
  | real _ => some "REAL"
  | text _ => some "TEXT"
  | blob _ => some "BLOB"

def toJson : Value → Json
  | null => .null
  | int n => .int n
  | real x => if Number.finite x then .float x else .null
  | text b => .text b.lossyText
  | blob b => .text b.shown

def isNull : Value → Bool
  | null => true
  | _ => false

def realText (x : Float) : String := Number.significantText 15 x

def bytes : Value → Bytes
  | null => []
  | int n => .ofText (toString n)
  | real x => .ofText (realText x)
  | text b | blob b => b

def chars (v : Value) : List Char := Text.Utf8.decodeLossy v.bytes

/-- A real number without a fraction as an integer. -/
def asInteger (x : Float) : Value :=
  let n := truncate x
  if Float.ofInt n == x && Number.minInt64 < n && n < Number.maxInt64 then int n else real x

def complete? (b : Bytes) : Option Value :=
  ((Numeral.read? (Text.Utf8.decodeLossy b)).filter (·.complete)).map (·.toValue)

/-- What a column of the affinity makes of a value that is put into it. -/
def apply (a : Affinity) (v : Value) : Value :=
  match a, v with
  | .text, int _ | .text, real _ => text v.bytes
  | .integer, text b | .numeric, text b =>
    match complete? b with
    | some (real x) => asInteger x
    | some w => w
    | none => v
  | .integer, real x | .numeric, real x => asInteger x
  | .real, int n => real (Float.ofInt n)
  | .real, text b =>
    match complete? b with
    | some (int n) => real (Float.ofInt n)
    | some w => w
    | none => v
  | _, _ => v

/-- A value as a number, by what its text begins with. -/
def number : Value → Value
  | null => null
  | int n => int n
  | real x => real x
  | text b | blob b => ((Numeral.read? (Text.Utf8.decodeLossy b)).map (·.toValue)).getD (int 0)

def toInt : Value → Int
  | int n => n
  | real x => truncate x
  | _ => 0

def toReal : Value → Float
  | int n => Float.ofInt n
  | real x => x
  | _ => 0

/-- Leading digits of a text as an integer; a real number loses its fraction. -/
def castInteger : Value → Value
  | null => null
  | int n => int n
  | real x => int (truncate x)
  | v =>
    let (negative, ds) := Number.splitSign (v.chars.dropWhile isSpace)
    let n : Int := Number.ofDigits (ds.takeWhile Text.isAsciiDigit)
    int (max Number.minInt64 (min Number.maxInt64 (if negative then -n else n)))

def cast (a : Affinity) (v : Value) : Value :=
  match a, v with
  | _, null => null
  | .text, v => text v.bytes
  | .blob, v => blob v.bytes
  | .integer, v => castInteger v
  | .real, v => real v.number.toReal
  | .numeric, v =>
    match v.number with
    | real x => asInteger x
    | w => w

def orderInts (a b : Int) : Ordering := compare a b

/-- An integer against a real number, without rounding. -/
def orderIntReal (n : Int) (x : Float) : Ordering :=
  if x != x || x < -9223372036854775808.0 then .gt
  else if 9223372036854775808.0 ≤ x then .lt
  else
    match orderInts n (truncate x) with
    | .eq => if Float.ofInt (truncate x) < x then .lt else if x < Float.ofInt (truncate x) then .gt else .eq
    | o => o

def orderReals (x y : Float) : Ordering := if x < y then .lt else if y < x then .gt else .eq

def orderBytes : Bytes → Bytes → Ordering
  | [], [] => .eq
  | [], _ :: _ => .lt
  | _ :: _, [] => .gt
  | a :: as, b :: bs => if a < b then .lt else if b < a then .gt else orderBytes as bs

def rank : Value → Nat
  | null => 0
  | int _ | real _ => 1
  | text _ => 2
  | blob _ => 3

/-- Null before numbers before texts before blobs. -/
def order (a b : Value) : Ordering :=
  match a, b with
  | int m, int n => orderInts m n
  | int m, real y => orderIntReal m y
  | real x, int n => (orderIntReal n x).swap
  | real x, real y => orderReals x y
  | text s, text t | blob s, blob t => orderBytes s t
  | a, b => compare a.rank b.rank

def ofBool (b : Bool) : Value := int (if b then 1 else 0)

/-- The truth of a value; null has none. -/
def truth (v : Value) : Option Bool :=
  match v.number with
  | null => none
  | int n => some (n ≠ 0)
  | real x => some (x != 0)
  | _ => some false

def ofTruth : Option Bool → Value
  | some b => ofBool b
  | none => null

/-- A sum, difference or product; integers that overflow become real. -/
def arithmetic (onInts : Int → Int → Int) (onReals : Float → Float → Float) (a b : Value) : Value :=
  match a.number, b.number with
  | null, _ | _, null => null
  | int m, int n =>
    let r := onInts m n
    if Number.fitsInt64 r then int r else real (onReals (Float.ofInt m) (Float.ofInt n))
  | m, n => ofReal (onReals m.toReal n.toReal)

/-- Division by zero gives null, and of integers the quotient is cut off. -/
def divide (a b : Value) : Value :=
  match a.number, b.number with
  | null, _ | _, null => null
  | int m, int n =>
    if n = 0 then null
    else if Number.fitsInt64 (m.tdiv n) then int (m.tdiv n)
    else real (Float.ofInt m / Float.ofInt n)
  | m, n => if n.toReal == 0 then null else ofReal (m.toReal / n.toReal)

def remainder (a b : Value) : Value :=
  match a.number, b.number with
  | null, _ | _, null => null
  | m, n =>
    let r := m.castInteger.toInt.tmod n.castInteger.toInt
    if n.castInteger.toInt = 0 then null
    else match m, n with
    | int _, int _ => int r
    | _, _ => real (Float.ofInt r)

def negate (v : Value) : Value :=
  match v.number with
  | int n => if Number.fitsInt64 (-n) then int (-n) else real (-(Float.ofInt n))
  | real x => real (-x)
  | w => w

def concat (a b : Value) : Value := if a.isNull || b.isNull then null else text (a.bytes ++ b.bytes)

end Value

end Parlance.Sqlite
