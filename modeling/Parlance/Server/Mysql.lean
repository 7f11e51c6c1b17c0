import Parlance.Calendar
import Parlance.Number.Fixed
import Parlance.Server.Link

/-! The protocol of MySQL: a type is a code with flags and a length, values come in binary
form with the least significant byte first. -/

namespace Parlance.Server.Mysql

inductive Kind
  | boolean
  | signed
  | unsigned
  | single
  | double
  | decimal
  | json
  | date
  | time
  | moment
  | zonedMoment
  | year
  | bits
  | bytes
  | text
  deriving DecidableEq, Repr

def isUnsigned (t : TypeCode) : Bool := t.flags &&& 32 ≠ 0
def isBinary (t : TypeCode) : Bool := t.flags &&& 128 ≠ 0
def isEnum (t : TypeCode) : Bool := t.flags &&& 256 ≠ 0

def integer (name : String) (t : TypeCode) : String × Kind :=
  if isUnsigned t then (name ++ " UNSIGNED", .unsigned) else (name, .signed)

/-- A type for bytes and its counterpart for text. -/
def stringType (binary plain : String) (t : TypeCode) : String × Kind :=
  if isBinary t then (binary, .bytes) else (plain, .text)

/-- Name and kind of a type. A byte of length one is a truth value. -/
def describe (t : TypeCode) : String × Kind :=
  match t.code with
  | 0 | 246 => ("DECIMAL", .decimal)
  | 1 => if t.length = 1 then ("BOOLEAN", .boolean) else integer "TINYINT" t
  | 2 => integer "SMALLINT" t
  | 3 => integer "INT" t
  | 4 => ("FLOAT", .single)
  | 5 => ("DOUBLE", .double)
  | 6 => ("NULL", .text)
  | 7 => ("TIMESTAMP", .zonedMoment)
  | 8 => integer "BIGINT" t
  | 9 => integer "MEDIUMINT" t
  | 10 => ("DATE", .date)
  | 11 => ("TIME", .time)
  | 12 => ("DATETIME", .moment)
  | 13 => ("YEAR", .year)
  | 16 => ("BIT", .bits)
  | 245 => ("JSON", .json)
  | 247 => ("ENUM", .text)
  | 248 => ("SET", .text)
  | 249 => stringType "TINYBLOB" "TINYTEXT" t
  | 250 => stringType "MEDIUMBLOB" "MEDIUMTEXT" t
  | 251 => stringType "LONGBLOB" "LONGTEXT" t
  | 252 => stringType "BLOB" "TEXT" t
  | 254 => stringType "BINARY" (if isEnum t then "ENUM" else "CHAR") t
  | 15 | 253 => stringType "VARBINARY" "VARCHAR" t
  | _ => ("GEOMETRY", .text)

/-- Types under which the catalog may give its texts. -/
def isCatalogText (t : TypeCode) : Bool :=
  !isBinary t && [15, 247, 249, 250, 251, 252, 253, 254].contains t.code

def byteAt (i : Nat) (b : Bytes) : Nat := ((b[i]?).map (·.toNat)).getD 0

def readDate (b : Bytes) : Except String Date :=
  let d : Date := ⟨(b.part 0 2).little, byteAt 2 b, byteAt 3 b⟩
  if d.isValid then .ok d
  else .error ("server returned invalid date: " ++ toString d.year ++ "/" ++ toString d.month ++
    "/" ++ toString d.day)

/-- Hours, minutes and seconds, and microseconds if anything follows. -/
def clock (b : Bytes) : TimeOfDay := ⟨byteAt 0 b, byteAt 1 b, byteAt 2 b, (b.rest 3).little⟩

def wholeText (t : TimeOfDay) : String :=
  padded 2 t.hour ++ ":" ++ padded 2 t.minute ++ ":" ++ padded 2 t.second

def readClock (b : Bytes) : Except String TimeOfDay :=
  let t := clock b
  if t.isValid then .ok t
  else .error ("server returned invalid time: " ++ wholeText t ++ "; micros: " ++ toString t.micros)

/-- A date alone means its midnight. -/
def readMoment (b : Bytes) : Except String Moment := do
  let d ← readDate (b.part 0 4)
  let t ← if b.length ≤ 4 then .ok .midnight else readClock (b.rest 4)
  .ok ⟨d, t⟩

/-- A span of time with its days made into hours. -/
def spanText (negative : Bool) (t : TimeOfDay) : String :=
  (if negative then "-" else "") ++ wholeText t ++
    (if t.micros = 0 then "" else "." ++ padded 6 t.micros)

/-- A time of day; its sign is not kept. -/
def readTime (b : Bytes) : Except String TimeOfDay :=
  if b.isEmpty then .ok .midnight
  else
    let t := clock (b.rest 5)
    let t := { t with hour := t.hour + 24 * (b.part 1 4).little }
    if t.isValid then .ok t
    else .error ("Cannot convert `MySqlTime` value to `NaiveTime`: " ++ spanText (byteAt 0 b = 1) t)

def contents : Kind → Bytes → Except String Json
  | .boolean, b => .ok (.bool (byteAt 0 b ≠ 0))
  | .signed, b => .ok (.int b.littleSigned)
  | .unsigned, b => .ok (.nat b.little)
  | .single, b => .ok (Server.single b.little)
  | .double, b => .ok (Server.double b.little)
  | .decimal, b => do
    let s ← b.text
    ((Number.Fixed.read s.toList).map fun x => .text x.text).mapError (·.message)
  | .json, b => b.text.bind embedded
  | .date, b => if b.isEmpty then .ok .null else (readDate b).map fun d => .text d.text
  | .time, b => (readTime b).map fun t => .text t.text
  | .moment, b => if b.isEmpty then .ok .null else (readMoment b).map fun m => .text m.text
  | .zonedMoment, b => if b.isEmpty then .ok .null else (readMoment b).map fun m => .text m.offsetText
  | .year, b => .ok (.nat b.little)
  | .bits, b => .ok (.nat (b.big % Nat.pow 2 64))
  | .bytes, b => .ok (.text b.shown)
  | .text, b => b.text.map .text

def cell (t : TypeCode) (b : Bytes) : Except CellFault Json :=
  match (describe t).2 with
  | .text => (contents .text b).mapError .unmapped
  | k => (contents k b).mapError .contents

def bind : Param → Bound
  | .null => ⟨253, none⟩
  | .bool b => ⟨1, some [if b then 1 else 0]⟩
  | .int n => ⟨8, some (.ofNatLittle 8 (Bytes.word 8 n))⟩
  | .float x => ⟨5, some (.ofNatLittle 8 x.toBits.toNat)⟩
  | .text s => ⟨253, some (.ofText s)⟩

/-- Zero means that no row has got a number. -/
def lastInsertId (a : Answer) : Option Int :=
  if a.columns.isEmpty && 0 < a.lastInsertId && Number.fitsInt64 a.lastInsertId then
    some a.lastInsertId
  else none

def catalog (oneTable : Bool) : String :=
  "SELECT CAST(TABLE_NAME AS CHAR), CAST(COLUMN_NAME AS CHAR), CAST(COLUMN_TYPE AS CHAR), " ++
  "CAST(IS_NULLABLE AS CHAR), CAST(COLUMN_DEFAULT AS CHAR) " ++
  "FROM information_schema.COLUMNS WHERE TABLE_SCHEMA = DATABASE()" ++
  (if oneTable then " AND TABLE_NAME = ?" else "") ++ " ORDER BY TABLE_NAME, ORDINAL_POSITION"

end Mysql

open Mysql in
def mysql : Protocol where
  dialect := .mysql
  product := "MySQL"
  header := 4
  bind := bind
  typeName t := (describe t).1
  cell := cell
  isText := isCatalogText
  textType := "VARCHAR"
  refusalText r := "error returned from database: " ++ r.code ++ " (" ++ r.state ++ "): " ++ r.message
  badUrl reason := .connection ("Failed to connect to MySQL: " ++ reason)
  timesOut _ := false
  affected a := if a.columns.isEmpty then a.affected.getD 0 else 0
  lastInsertId := lastInsertId
  catalog := catalog

end Parlance.Server
