import Parlance.Sqlite.Function
import Parlance.Sqlite.Table

/-! Expressions given a meaning. Names are looked up once, against the columns that are in
scope; what remains is a function from a row, or a group of rows, to a value. -/

namespace Parlance.Sqlite

structure Runtime where
  database : Database
  params : List Value
  /-- Seconds since the beginning of 1970. -/
  now : Int
  /-- The number of rows that a recursive table may grow to. -/
  budget : Nat
  /-- The rows that recursive tables stand for at the moment. -/
  working : List (String × List (List Value))

structure Row where
  rowid : Value
  values : List Value

/-- The row at hand, and the rows that aggregates range over. -/
structure Frame where
  row : Row
  group : List Row

structure Term where
  /-- The affinity that the value brings into a comparison. -/
  affinity : Option Affinity
  /-- The name and declared type, if this is a column. -/
  column : Option (String × Option String)
  /-- The first aggregate in it. -/
  aggregate : Option Name
  value : Runtime → Frame → Value

structure ScopeColumn where
  table : Option String
  name : String
  type : Option String
  affinity : Option Affinity

structure Scope where
  columns : List ScopeColumn
  /-- The table whose rows have numbers, and the column that shows them. -/
  numbered : Option (String × Option String)
  /-- Names that results have been given. -/
  aliases : List (String × Term)
  /-- Results come before columns when a name is looked up. -/
  aliasesFirst : Bool
  allowsAggregates : Bool

def Scope.empty : Scope := ⟨[], none, [], false, false⟩

namespace Term

def constant (v : Value) : Term := ⟨none, none, none, fun _ _ => v⟩

def ofColumn (c : ScopeColumn) (i : Nat) : Term :=
  ⟨c.affinity, some (c.name, c.type), none, fun _ f => (f.row.values[i]?).getD .null⟩

def ofRowid (name : String) : Term :=
  ⟨some .integer, some (name, some "INTEGER"), none, fun _ f => f.row.rowid⟩

def map (f : Value → Value) (t : Term) : Term :=
  ⟨none, none, t.aggregate, fun rt fr => f (t.value rt fr)⟩

def map₂ (f : Value → Value → Value) (a b : Term) : Term :=
  ⟨none, none, a.aggregate.or b.aggregate, fun rt fr => f (a.value rt fr) (b.value rt fr)⟩

/-- The affinity under which two operands are compared. -/
def common : Option Affinity → Option Affinity → Affinity
  | some a, some b => if a.isNumeric || b.isNumeric then .numeric else .blob
  | some a, none | none, some a => if a.isNumeric then .numeric else a
  | none, none => .blob

/-- How two operands stand to each other. -/
def compare (a b : Term) (f : Value → Value → Value) : Term :=
  let affinity := common a.affinity b.affinity
  map₂ (fun v w => f (v.apply affinity) (w.apply affinity)) a b

def ordered (p : Ordering → Bool) (v w : Value) : Value :=
  if v.isNull || w.isNull then .null else .ofBool (p (v.order w))

def and (v w : Value) : Value :=
  .ofTruth (match v.truth, w.truth with
    | some false, _ | _, some false => some false
    | some true, some true => some true
    | _, _ => none)

def or (v w : Value) : Value :=
  .ofTruth (match v.truth, w.truth with
    | some true, _ | _, some true => some true
    | some false, some false => some false
    | _, _ => none)

def onInts (f : Int → Int → Int) (v w : Value) : Value :=
  if v.isNull || w.isNull then .null
  else .int (Int.bmod (f v.castInteger.toInt w.castInteger.toInt) (Nat.pow 2 64))

def bitwise (f : Nat → Nat → Nat) (a b : Int) : Int := f (a % (Nat.pow 2 64 : Nat)).toNat (b % (Nat.pow 2 64 : Nat)).toNat

def shiftLeft (a n : Int) : Int := if 0 ≤ n then a * (Nat.pow 2 (min n.toNat 64) : Nat) else a / (Nat.pow 2 (min n.natAbs 64) : Nat)

def binary (op : BinaryOp) (a b : Term) : Term :=
  match op with
  | .or => map₂ or a b
  | .and => map₂ and a b
  | .equal => compare a b (ordered (· == .eq))
  | .notEqual => compare a b (ordered (· != .eq))
  | .less => compare a b (ordered (· == .lt))
  | .lessEqual => compare a b (ordered (· != .gt))
  | .greater => compare a b (ordered (· == .gt))
  | .greaterEqual => compare a b (ordered (· != .lt))
  | .is => compare a b fun v w => .ofBool (v.order w == .eq)
  | .isNot => compare a b fun v w => .ofBool (v.order w != .eq)
  | .like => map₂ Value.like a b
  | .bitAnd => map₂ (onInts (bitwise (· &&& ·))) a b
  | .bitOr => map₂ (onInts (bitwise (· ||| ·))) a b
  | .shiftLeft => map₂ (onInts shiftLeft) a b
  | .shiftRight => map₂ (onInts fun a n => shiftLeft a (-n)) a b
  | .add => map₂ (Value.arithmetic (· + ·) (· + ·)) a b
  | .subtract => map₂ (Value.arithmetic (· - ·) (· - ·)) a b
  | .multiply => map₂ (Value.arithmetic (· * ·) (· * ·)) a b
  | .divide => map₂ Value.divide a b
  | .remainder => map₂ Value.remainder a b
  | .concat => map₂ Value.concat a b

def invert (v : Value) : Value := if v.isNull then .null else .int (-v.castInteger.toInt - 1)

def unary (op : UnaryOp) (a : Term) : Term :=
  match op with
  | .negate => map Value.negate a
  | .plus => { a with affinity := none, column := none }
  | .invert => map invert a
  | .not => map (fun v => .ofTruth (v.truth.map (!·))) a

def values (ts : List Term) (rt : Runtime) (f : Frame) : List Value := ts.map fun t => t.value rt f

def ofFunction (ts : List Term) (f : Runtime → List Value → Value) : Term :=
  ⟨none, none, ts.findSome? (·.aggregate), fun rt fr => f rt (values ts rt fr)⟩

/-- A function of the values that a term has in the rows of the group. -/
def overGroup (n : Name) (f : List Value → Value) (t : Term) : Term :=
  ⟨none, none, some n, fun rt fr => f (fr.group.map fun r => t.value rt ⟨r, []⟩)⟩

def aggregate? (name : String) : Option (List Value → Value) :=
  match name with
  | "count" => some fun vs => .int (vs.filter (!·.isNull)).length
  | "sum" => some Value.sum
  | "total" => some fun vs => .real (Value.total vs)
  | "avg" => some Value.average
  | "min" => some (Value.pick .lt)
  | "max" => some (Value.pick .gt)
  | _ => none

/-- A function by its name, with the least and the largest number of its arguments. -/
def scalar? (name : String) : Option (Nat × Option Nat × (Runtime → List Value → Value)) :=
  let one (f : Value → Value) : Option (Nat × Option Nat × (Runtime → List Value → Value)) :=
    some (1, some 1, fun _ vs => f (vs.headD .null))
  match name with
  | "lower" => one (Value.mapText (·.map Char.toLower))
  | "upper" => one (Value.mapText (·.map Char.toUpper))
  | "trim" => one (Value.mapText fun cs => Text.dropEndWhile (· = ' ') (cs.dropWhile (· = ' ')))
  | "length" => one Value.length
  | "abs" => one Value.abs
  | "typeof" => one Value.typeOf
  | "hex" => one fun v => .ofText (String.ofList (v.bytes.hex.toList.map Char.toUpper))
  | "coalesce" => some (2, none, fun _ vs => Value.coalesce vs)
  | "ifnull" => some (2, some 2, fun _ vs => Value.coalesce vs)
  | "nullif" => some (2, some 2, fun _ vs => match vs with
    | [v, w] => if !v.isNull && v.order w == .eq then .null else v
    | _ => .null)
  | "min" => some (2, none, fun _ vs => Value.extreme .lt vs)
  | "max" => some (2, none, fun _ vs => Value.extreme .gt vs)
  | "date" => some (0, none, fun rt vs => Clock.function rt.now Clock.dateText vs)
  | "time" => some (0, none, fun rt vs => Clock.function rt.now Clock.timeText vs)
  | "datetime" => some (0, none, fun rt vs => Clock.function rt.now Clock.text vs)
  | "changes" => some (0, some 0, fun rt _ => .int rt.database.changes)
  | "last_insert_rowid" => some (0, some 0, fun rt _ => .int rt.database.lastRowid)
  | _ => none

def call (scope : Scope) (n : Name) (args : List Term) : Except Fault Term :=
  let name := String.ofList (Text.asciiLower n.text.toList)
  match aggregate? name, args with
  | some f, [a] =>
    if !scope.allowsAggregates then .error (.misusedAggregate n.text n.offset)
    else
      match a.aggregate with
      | some inner => .error (.misusedAggregate inner.text inner.offset)
      | none => .ok (overGroup n f a)
  | aggregate, _ =>
    match scalar? name with
    | some (least, most, f) =>
      if args.length < least || most.any (· < args.length) then .error (.argumentCount n.text n.offset)
      else .ok (ofFunction args f)
    | none =>
      .error (if aggregate.isSome then .argumentCount n.text n.offset else .noFunction n.text n.offset)

end Term

namespace Scope

def findFrom (table : Option String) (name : String) (i : Nat) : List ScopeColumn → Option Term
  | [] => none
  | c :: cs =>
    if sameName c.name name && table.all (fun t => c.table.any (sameName t)) then some (.ofColumn c i)
    else findFrom table name (i + 1) cs

def isRowidName (name : String) : Bool := ["rowid", "oid", "_rowid_"].any (sameName name)

def rowid? (s : Scope) (table : Option String) (name : String) : Option Term := do
  let (own, column) ← s.numbered
  if isRowidName name && table.all (sameName own) then some (.ofRowid (column.getD "rowid")) else none

def label? (s : Scope) (table : Option String) (name : String) : Option Term :=
  if table.isSome then none else (s.aliases.find? fun a => sameName a.1 name).map (·.2)

/-- A name that is no column may still be a word for a truth value or, in double quotes, a text. -/
def word? (table : Option String) (n : Name) : Option Term :=
  if table.isSome then none
  else if n.doubtful then some (.constant (.ofText n.text))
  else if sameName n.text "true" then some (.constant (.int 1))
  else if sameName n.text "false" then some (.constant (.int 0))
  else none

def resolve (s : Scope) (table : Option String) (n : Name) : Except Fault Term :=
  let column := (findFrom table n.text 0 s.columns).orElse fun _ => s.rowid? table n.text
  let result := s.label? table n.text
  let found := if s.aliasesFirst then result.orElse fun _ => column else column.orElse fun _ => result
  match found.orElse fun _ => word? table n with
  | some t => .ok t
  | none => .error (.noColumn ((table.map (· ++ ".")).getD "" ++ n.text) n.offset)

end Scope

mutual

def Expr.term (s : Scope) : Expr → Except Fault Term
  | .literal v => .ok (.constant v)
  | .column table n => s.resolve table n
  | .param n => .ok ⟨none, none, none, fun rt _ => (rt.params[n - 1]?).getD .null⟩
  | .unary op e => do return .unary op (← e.term s)
  | .binary op a b => do return .binary op (← a.term s) (← b.term s)
  | .cast type e => do
    let a := Affinity.ofType type
    return { Term.map (Value.cast a) (← e.term s) with affinity := some a }
  | .call n args => do Term.call s n (← Expr.terms s args)
  | .countRows n =>
    if s.allowsAggregates then .ok ⟨none, none, some n, fun _ f => .int f.group.length⟩
    else .error (.misusedAggregate n.text n.offset)

def Expr.terms (s : Scope) : List Expr → Except Fault (List Term)
  | [] => .ok []
  | e :: es => do return (← e.term s) :: (← Expr.terms s es)

end

/-- The rows in which a condition holds; all of them if there is none. -/
def filterRows (condition : Option Term) (rt : Runtime) (rows : List Row) : List Row :=
  match condition with
  | none => rows
  | some t => rows.filter fun r => (t.value rt ⟨r, []⟩).truth = some true

end Parlance.Sqlite
