import Parlance.Bytes
import Parlance.Engine
import Parlance.Json.Reader

/-! A connection to a database server, seen from this side: the statements that are sent and
the replies that come back. What depends on the product is its protocol. -/

namespace Parlance.Server

/-- How a server describes the type of a column. -/
structure TypeCode where
  code : Nat
  flags : Nat
  length : Nat
  deriving DecidableEq, Repr

structure Described where
  name : String
  type : TypeCode
  deriving DecidableEq, Repr

structure Refusal where
  code : String
  state : String
  message : String
  deriving DecidableEq, Repr

structure Answer where
  columns : List Described
  rows : List (List (Option Bytes))
  affected : Option Nat
  lastInsertId : Nat
  deriving DecidableEq, Repr

def Answer.none : Answer := ⟨[], [], .none, 0⟩

inductive Reply
  | answer (a : Answer)
  | refusal (r : Refusal)
  | dropped
  deriving DecidableEq, Repr

structure Bound where
  type : Nat
  bytes : Option Bytes
  deriving DecidableEq, Repr

structure Sent where
  sql : String
  params : List Bound
  deriving DecidableEq, Repr

structure Link where
  /-- What the server will answer to the next statements. -/
  replies : List Reply
  /-- While set, the server answers the liveness test with it. -/
  probe : Option Refusal
  /-- Last first. -/
  sent : List Sent
  closed : Bool
  deriving DecidableEq, Repr

/-- Why a cell has no JSON form: a fault of its contents, told with its place in the row, or
a type that has none. -/
inductive CellFault
  | contents (reason : String)
  | unmapped (reason : String)
  deriving DecidableEq, Repr

def decodingColumn (index : Nat) (reason : String) : String :=
  "error occurred while decoding column " ++ toString index ++ ": " ++ reason

def CellFault.message (index : Nat) : CellFault → String
  | contents reason => decodingColumn index reason
  | unmapped reason => "error occurred while decoding: " ++ reason

/-- A double as JSON, where only a finite one has a number. -/
def number (x : Float) : Json := if Number.finite x then .float x else .null

def single (word : Nat) : Json := number (Float32.ofBits word.toUInt32).toFloat

def double (word : Nat) : Json := number (Float.ofBits word.toUInt64)

/-- A JSON text, the last of repeated keys taken. -/
def embedded (s : String) : Except String Json :=
  match Json.read s.toList with
  | .ok j => .ok j.distinct
  | .error f => .error (f.message s.toList)

def unexpectedNull : String := "unexpected null; try decoding as an `Option`"

structure Protocol where
  dialect : Dialect
  product : String
  /-- Size in bytes of what stands before every message. -/
  header : Nat
  bind : Param → Bound
  typeName : TypeCode → String
  cell : TypeCode → Bytes → Except CellFault Json
  /-- Cells of the type hold text. -/
  isText : TypeCode → Bool
  textType : String
  refusalText : Refusal → String
  /-- An address that is none, with the reason. -/
  badUrl : String → Error
  /-- The statement ran out of its time on the server. -/
  timesOut : Refusal → Bool
  affected : Answer → Nat
  lastInsertId : Answer → Option Int
  /-- Rows of table, column, type, whether null is allowed and default, for one table or all. -/
  catalog : Bool → String

inductive Failure
  | refused (r : Refusal)
  | dropped
  | closed
  deriving DecidableEq, Repr

def livenessTest : String := "SELECT 1"

namespace Link

def fresh : Link := ⟨[], .none, [], false⟩

def record (sql : String) (params : List Bound) (l : Link) : Link :=
  { l with sent := ⟨sql, params⟩ :: l.sent }

/-- The liveness test is answered at once and takes no reply from the queue. -/
def reply (sql : String) (l : Link) : Reply × Link :=
  if sql = livenessTest then
    match l.probe with
    | some r => (.refusal r, l)
    | none => (.answer .none, l)
  else match l.replies with
    | r :: rs => (r, { l with replies := rs })
    | [] => (.answer .none, l)

/-- Sends a statement and waits for the answer. A connection that was dropped is replaced by
a new one for the next statement. -/
def exchange (sql : String) (params : List Bound) (l : Link) : Except Failure Answer × Link :=
  if l.closed then (.error .closed, l)
  else match (l.record sql params).reply sql with
    | (.answer a, l) => (.ok a, l)
    | (.refusal r, l) => (.error (.refused r), l)
    | (.dropped, l) => (.error .dropped, l)

end Link

end Parlance.Server
