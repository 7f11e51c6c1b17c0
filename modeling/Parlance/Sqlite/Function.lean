import Parlance.Calendar
import Parlance.Sqlite.Value

/-! Functions of single values: texts, numbers, and points in time. A point in time is read
from a text, moved by modifiers and written in one of three forms. -/

namespace Parlance.Sqlite

namespace Clock

def secondsPerDay : Int := 86400

/-- Seconds since the beginning of 1970. -/
def ofParts (d : Date) (hour minute second : Nat) : Int :=
  d.toDays * secondsPerDay + ((60 * hour + minute) * 60 + second)

def dateOf (n : Int) : Date := .ofDays (n / secondsPerDay)

def timeOf (n : Int) : TimeOfDay := .ofMicros ((n % secondsPerDay).toNat * 1000000)

def digits? (count : Nat) (cs : List Char) : Option (Nat × List Char) :=
  let ds := cs.take count
  if ds.length = count then (Number.readDigits? ds).map fun n => (n, cs.drop count) else none

def mark? (c : Char) : List Char → Option (List Char)
  | d :: cs => if c = d then some cs else none
  | [] => none

def readDate? (cs : List Char) : Option (Date × List Char) := do
  let (year, cs) ← digits? 4 cs
  let (month, cs) ← digits? 2 (← mark? '-' cs)
  let (day, cs) ← digits? 2 (← mark? '-' cs)
  if 1 ≤ month && month ≤ 12 && 1 ≤ day && day ≤ 31 then some (⟨year, month, day⟩, cs) else none

/-- Hours and minutes, perhaps seconds; a fraction of a second is dropped. -/
def readTime? (cs : List Char) : Option (Nat × Nat × Nat) := do
  let (hour, cs) ← digits? 2 cs
  let (minute, cs) ← digits? 2 (← mark? ':' cs)
  let (second, cs) ← match mark? ':' cs with
    | some cs => digits? 2 cs
    | none => some (0, cs)
  let rest := match cs with
    | '.' :: cs => cs.dropWhile Text.isAsciiDigit
    | cs => cs
  if rest.all isSpace && hour < 25 && minute < 60 && second < 60 then some (hour, minute, second) else none

def read? (now : Int) (s : List Char) : Option Int :=
  if Text.sameWord s "now".toList then some now
  else do
    let (d, cs) ← readDate? s
    if cs.all isSpace then some (ofParts d 0 0 0)
    else
      let (hour, minute, second) ← readTime? (cs.dropWhile fun c => isSpace c || c = 'T')
      some (ofParts d hour minute second)

/-- Months later or earlier; days that a month does not have run over into the next. -/
def addMonths (n k : Int) : Int :=
  let d := dateOf n
  let months := d.year * 12 + (d.month - 1) + k
  let first : Date := ⟨months / 12, (months % 12).toNat + 1, 1⟩
  (first.toDays + (d.day - 1)) * secondsPerDay + n % secondsPerDay

def shift? (n k : Int) (unit : String) : Option Int :=
  match unit with
  | "second" | "seconds" => some (n + k)
  | "minute" | "minutes" => some (n + 60 * k)
  | "hour" | "hours" => some (n + 3600 * k)
  | "day" | "days" => some (n + secondsPerDay * k)
  | "month" | "months" => some (addMonths n k)
  | "year" | "years" => some (addMonths n (12 * k))
  | _ => none

def modify? (n : Int) (modifier : List Char) : Option Int :=
  match (Text.words (Text.asciiLower modifier)).map String.ofList with
  | ["start", "of", "day"] => some (n / secondsPerDay * secondsPerDay)
  | ["start", "of", "month"] => some (ofParts { dateOf n with day := 1 } 0 0 0)
  | ["start", "of", "year"] => some (ofParts { dateOf n with month := 1, day := 1 } 0 0 0)
  | ["utc"] | ["localtime"] => some n
  | [amount, unit] => (Number.readInt? amount.toList).bind fun k => shift? n k unit
  | _ => none

/-- The point in time that a list of arguments describes. -/
def ofArguments? (now : Int) : List Value → Option Int
  | [] => some now
  | v :: vs => do
    if v.isNull || vs.any (·.isNull) then none
    else vs.foldlM (fun n m => modify? n m.chars) (← read? now v.chars)

def dateText (n : Int) : String := (dateOf n).text
def timeText (n : Int) : String := (timeOf n).text
def text (n : Int) : String := dateText n ++ " " ++ timeText n

def function (now : Int) (form : Int → String) (args : List Value) : Value :=
  match ofArguments? now args with
  | some n => .ofText (form n)
  | none => .null

end Clock

/-- `%` stands for any characters and `_` for one; the case of ASCII letters does not count. -/
def likeMatch : List Char → List Char → Bool
  | [], [] => true
  | [], _ :: _ => false
  | '%' :: ps, [] => likeMatch ps []
  | '%' :: ps, c :: cs => likeMatch ps (c :: cs) || likeMatch ('%' :: ps) cs
  | _ :: _, [] => false
  | p :: ps, c :: cs => (p = '_' || p.toLower = c.toLower) && likeMatch ps cs
termination_by p c => p.length + c.length

/-- A sum of real numbers, and what rounding has taken from it. -/
structure RealSum where
  sum : Float
  lost : Float

namespace RealSum

def zero : RealSum := ⟨0, 0⟩

def add (s : RealSum) (x : Float) : RealSum :=
  let t := s.sum + x
  ⟨t, s.lost + (if x.abs < s.sum.abs then (s.sum - t) + x else (x - t) + s.sum)⟩

/-- A large integer is added in two parts, neither of which needs rounding. -/
def addInt (s : RealSum) (n : Int) : RealSum :=
  if n.natAbs < Nat.pow 2 52 then s.add (Float.ofInt n)
  else (s.add (Float.ofInt (n - n.tmod 16384))).add (Float.ofInt (n.tmod 16384))

def total (s : RealSum) : Float := if Number.finite s.lost then s.sum + s.lost else s.sum

end RealSum

namespace Value

def like (v pattern : Value) : Value :=
  if v.isNull || pattern.isNull then null else ofBool (likeMatch pattern.chars v.chars)

def mapText (f : List Char → List Char) (v : Value) : Value :=
  if v.isNull then null else ofText (String.ofList (f v.chars))

def length : Value → Value
  | null => null
  | blob b => int b.length
  | v => int v.chars.length

def abs (v : Value) : Value :=
  match v.number with
  | int n => int n.natAbs
  | real x => real x.abs
  | w => w

def typeOf (v : Value) : Value := ofText (String.ofList (((v.storageClass).getD "null").toList.map Char.toLower))

def coalesce : List Value → Value
  | [] => null
  | v :: vs => if v.isNull then coalesce vs else v

/-- The least or greatest of several values; null if one is null. -/
def extreme (wanted : Ordering) : List Value → Value
  | [] => null
  | v :: vs => vs.foldl (fun a b => if a.isNull || b.isNull then null else if b.order a == wanted then b else a) v

def pick (wanted : Ordering) (vs : List Value) : Value := extreme wanted (vs.filter (!·.isNull))

/-- A value as it enters a sum; what is not wholly a number counts as real. -/
def summand (v : Value) : Value :=
  match v with
  | text b => (complete? b).getD (real v.number.toReal)
  | blob _ => real v.number.toReal
  | v => v

def total (vs : List Value) : Float :=
  ((vs.map summand).foldl (fun s v => match v with
    | int n => s.addInt n
    | real x => s.add x
    | _ => s) RealSum.zero).total

def allInts? : List Value → Option (List Int)
  | [] => some []
  | int n :: vs => (allInts? vs).map (n :: ·)
  | _ :: _ => none

/-- The sum of the values that are not null, real as soon as one of them is. -/
def sum (vs : List Value) : Value :=
  match vs.filter (!·.isNull) with
  | [] => null
  | ws =>
    match (allInts? (ws.map summand)).map (List.foldl (· + ·) 0) with
    | some n => if Number.fitsInt64 n then int n else ofReal (total ws)
    | none => ofReal (total ws)

def average (vs : List Value) : Value :=
  match vs.filter (!·.isNull) with
  | [] => null
  | ws => ofReal (total ws / Float.ofNat ws.length)

end Value

end Parlance.Sqlite
