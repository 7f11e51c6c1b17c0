import Parlance.Calendar
import Parlance.Number.Fixed
import Parlance.Server.Link

/-! The protocol of PostgreSQL: types by their identifiers, values in binary form with the
most significant byte first. -/

namespace Parlance.Server.Postgres

inductive Kind
  | bool
  | int
  | single
  | double
  | numeric
  | money
  | uuid
  | json
  | jsonb
  | date
  | time
  | moment
  | zonedMoment
  | interval
  | bytes
  | text
  | array (element : Kind)
  | other
  deriving DecidableEq, Repr

structure PgType where
  oid : Nat
  name : String
  kind : Kind
  deriving DecidableEq, Repr

def types : List PgType := [
  ⟨16, "BOOL", .bool⟩, ⟨17, "BYTEA", .bytes⟩, ⟨18, "\"CHAR\"", .other⟩, ⟨19, "NAME", .text⟩,
  ⟨20, "INT8", .int⟩, ⟨21, "INT2", .int⟩, ⟨23, "INT4", .int⟩, ⟨25, "TEXT", .text⟩,
  ⟨26, "OID", .other⟩, ⟨114, "JSON", .json⟩, ⟨600, "POINT", .other⟩, ⟨700, "FLOAT4", .single⟩,
  ⟨701, "FLOAT8", .double⟩, ⟨705, "UNKNOWN", .text⟩, ⟨790, "MONEY", .money⟩,
  ⟨829, "MACADDR", .other⟩, ⟨869, "INET", .other⟩, ⟨1000, "BOOL[]", .array .bool⟩,
  ⟨1001, "BYTEA[]", .other⟩, ⟨1003, "NAME[]", .array .text⟩, ⟨1005, "INT2[]", .array .int⟩,
  ⟨1007, "INT4[]", .array .int⟩, ⟨1009, "TEXT[]", .array .text⟩, ⟨1014, "CHAR[]", .other⟩,
  ⟨1015, "VARCHAR[]", .array .text⟩, ⟨1016, "INT8[]", .array .int⟩,
  ⟨1021, "FLOAT4[]", .array .single⟩, ⟨1022, "FLOAT8[]", .array .double⟩, ⟨1042, "CHAR", .text⟩,
  ⟨1043, "VARCHAR", .text⟩, ⟨1082, "DATE", .date⟩, ⟨1083, "TIME", .time⟩,
  ⟨1114, "TIMESTAMP", .moment⟩, ⟨1184, "TIMESTAMPTZ", .zonedMoment⟩,
  ⟨1186, "INTERVAL", .interval⟩, ⟨1231, "NUMERIC[]", .other⟩, ⟨1266, "TIMETZ", .other⟩,
  ⟨1560, "BIT", .other⟩, ⟨1700, "NUMERIC", .numeric⟩, ⟨2950, "UUID", .uuid⟩,
  ⟨3802, "JSONB", .jsonb⟩, ⟨3904, "INT4RANGE", .other⟩]

def typeOf? (t : TypeCode) : Option PgType := types.find? (·.oid = t.code)

def typeName (t : TypeCode) : String := ((typeOf? t).map (·.name)).getD "?"

def kindOf (t : TypeCode) : Kind := ((typeOf? t).map (·.kind)).getD .other

/-- Dates and moments are counted from the first of January 2000. -/
def origin : Int := 10957

/-- The digits in base 10000. -/
def numericDigits : Nat → Bytes → List Nat
  | 0, _ => []
  | n + 1, b => (b.part 0 2).big :: numericDigits n (b.rest 2)

/-- The number with the digits `ds`, the first of which counts `10000 ^ weight`. -/
def numericValue (negative : Bool) (weight : Int) (ds : List Nat) : Except Number.Fixed.Fault Number.Fixed :=
  let n := ds.foldl (fun n d => 10000 * n + d) 0
  let last := weight - (ds.length : Int) + 1
  if 0 ≤ last then Number.Fixed.fit 0 ⟨negative, n * Nat.pow 10000 last.toNat, 0⟩
  else if last < -7 then .error .tooLarge
  else Number.Fixed.fit (4 * last.natAbs) ⟨negative, n, 4 * last.natAbs⟩

def numeric (b : Bytes) : Except Number.Fixed.Fault Number.Fixed :=
  let count := (b.part 0 2).big
  let sign := (b.part 4 2).big
  if sign = 0xc000 then .error .notANumber
  else if count = 0 then .ok .zero
  else (numericValue (sign = 0x4000) (b.part 2 2).bigSigned (numericDigits count (b.rest 8))).map
    (.withPlaces (b.part 6 2).big)

def cents (n : Int) : Number.Fixed := ⟨n < 0, n.natAbs, 2⟩

def uuidText (b : Bytes) : String :=
  "-".intercalate [(b.part 0 4).hex, (b.part 4 2).hex, (b.part 6 2).hex, (b.part 8 2).hex,
    (b.rest 10).hex]

def intervalJson (b : Bytes) : Json := .object [
  ("months", .int (b.part 12 4).bigSigned),
  ("days", .int (b.part 8 4).bigSigned),
  ("microseconds", .int (b.part 0 8).bigSigned)]

/-- So many elements, each with its size in front; a negative size stands for null. -/
def elements (element : Bytes → Except String Json) : Nat → Bytes → Except String (List Json)
  | 0, _ => .ok []
  | n + 1, b => do
    let size := (b.part 0 4).bigSigned
    if size < 0 then .error unexpectedNull
    else
      let v ← element (b.part 4 size.toNat)
      let vs ← elements element n (b.rest (4 + size.toNat))
      .ok (v :: vs)

/-- Arrays of no dimension are empty; only those of one dimension that begin at one are read. -/
def array (element : Bytes → Except String Json) (b : Bytes) : Except String Json :=
  let dimensions := (b.part 0 4).bigSigned
  let lower := (b.part 16 4).bigSigned
  if dimensions = 0 then .ok (.list [])
  else if dimensions ≠ 1 then
    .error ("encountered an array of " ++ toString dimensions ++
      " dimensions; only one-dimensional arrays are supported")
  else if lower ≠ 1 then
    .error ("encountered an array with a lower bound of " ++ toString lower ++
      " in the first dimension; only arrays starting at one are supported")
  else (elements element (min (b.part 12 4).big b.length) (b.rest 20)).map .list

def contents : Kind → Bytes → Except String Json
  | .bool, b => .ok (.bool (b.head? |>.any (· ≠ 0)))
  | .int, b => .ok (.int b.bigSigned)
  | .single, b => .ok (Server.single b.big)
  | .double, b => .ok (Server.double b.big)
  | .numeric, b => ((numeric b).map fun x => .text x.text).mapError (·.message)
  | .money, b => .ok (.text (cents b.bigSigned).text)
  | .uuid, b =>
    if b.length = 16 then .ok (.text (uuidText b))
    else .error ("invalid length: expected 16 bytes, found " ++ toString b.length)
  | .json, b => embedded b.lossyText
  | .jsonb, b => embedded (b.rest 1).lossyText
  | .date, b => .ok (.text (Date.ofDays (origin + b.bigSigned)).text)
  | .time, b => .ok (.text (Moment.ofMicros origin b.bigSigned).time.text)
  | .moment, b => .ok (.text (Moment.ofMicros origin b.bigSigned).text)
  | .zonedMoment, b => .ok (.text (Moment.ofMicros origin b.bigSigned).offsetText)
  | .interval, b => .ok (intervalJson b)
  | .bytes, b => .ok (.text b.shown)
  | .array k, b => array (contents k) b
  | .text, b => b.text.map .text
  | .other, _ => .ok .null

def noMapping : CellFault := .unmapped "no JSON mapping for binary value"

/-- A text that is not well formed has no more of a JSON form than a type that is not known. -/
def cell (t : TypeCode) (b : Bytes) : Except CellFault Json :=
  match kindOf t with
  | .other => .error noMapping
  | .text => (contents .text b).mapError fun _ => noMapping
  | k => (contents k b).mapError .contents

def bind : Param → Bound
  | .null => ⟨25, none⟩
  | .bool b => ⟨16, some [if b then 1 else 0]⟩
  | .int n => ⟨20, some (.ofNatBig 8 (Bytes.word 8 n))⟩
  | .float x => ⟨701, some (.ofNatBig 8 x.toBits.toNat)⟩
  | .text s => ⟨25, some (.ofText s)⟩

/-- The state that tells that a statement was cancelled. -/
def cancelled : String := "57014"

def catalog (oneTable : Bool) : String :=
  "SELECT table_name::text, column_name::text, data_type::text, is_nullable::text, column_default::text " ++
  "FROM information_schema.columns WHERE table_schema = 'public'" ++
  (if oneTable then " AND table_name = $1" else "") ++ " ORDER BY table_name, ordinal_position"

end Postgres

open Postgres in
def postgres : Protocol where
  dialect := .postgres
  product := "PostgreSQL"
  header := 5
  bind := bind
  typeName := typeName
  cell := cell
  isText t := kindOf t = .text
  textType := "TEXT"
  refusalText r := "error returned from database: " ++ r.message
  badUrl reason := .configuration ("Invalid PostgreSQL URL: " ++ reason)
  timesOut r := r.code = cancelled
  affected a := a.affected.getD a.rows.length
  lastInsertId _ := none
  catalog := catalog

end Parlance.Server
