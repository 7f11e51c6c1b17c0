import Parlance.Sqlite.Term

/-! Queries given a meaning: from a query and a catalog to the columns of its result, and to a
function that finds the rows. Rows are found in order, so that a query whose source has no end
still has its first rows. -/

namespace Parlance.Sqlite

structure PlanColumn where
  name : String
  /-- The declared type of the column that is shown. -/
  type : Option String
  affinity : Option Affinity

/-- Rows as far as they were found, and whether these are all. -/
structure Found (α : Type) where
  rows : List α
  complete : Bool

structure Plan where
  columns : List PlanColumn
  run : Runtime → Except Fault (Found (List Value))

structure SourcePlan where
  scope : Scope
  run : Runtime → Except Fault (Found Row)

structure Catalog where
  database : Database
  commons : List (String × Plan)

namespace Found

def all {α : Type} (rows : List α) : Found α := ⟨rows, true⟩

def map {α β : Type} (f : α → β) (x : Found α) : Found β := ⟨x.rows.map f, x.complete⟩

/-- What is done with all rows at once has no result as long as they are not all there. -/
def whole {α β : Type} (f : List α → List β) (x : Found α) : Found β :=
  if x.complete then ⟨f x.rows, true⟩ else ⟨[], false⟩

/-- The rows behind the first `skip`, at most `count` of them. -/
def slice {α : Type} (skip : Nat) (count : Option Nat) (x : Found α) : Found α :=
  match count with
  | none => ⟨x.rows.drop skip, x.complete⟩
  | some n => ⟨(x.rows.drop skip).take n, x.complete || skip + n ≤ x.rows.length⟩

end Found

/-! ### Order and groups -/

structure SortKey where
  term : Term
  descending : Bool
  nullsFirst : Bool

/-- Nulls come first in ascending and last in descending order, unless it is said otherwise. -/
def SortKey.ofTerm (t : OrderTerm) (term : Term) : SortKey :=
  ⟨term, t.descending, t.nullsFirst.getD (!t.descending)⟩

def SortKey.order (k : SortKey) (v w : Value) : Ordering :=
  match v.isNull, w.isNull with
  | true, true => .eq
  | true, false => if k.nullsFirst then .lt else .gt
  | false, true => if k.nullsFirst then .gt else .lt
  | false, false => if k.descending then (v.order w).swap else v.order w

def orderValues (vs ws : List Value) : Ordering :=
  (List.zipWith Value.order vs ws).foldl Ordering.then .eq

def orderKeys (ks : List SortKey) (vs ws : List Value) : Ordering :=
  (List.zipWith (fun k (p : Value × Value) => k.order p.1 p.2) ks (vs.zip ws)).foldl Ordering.then .eq

/-- Sorts by computed keys; rows with equal keys keep their order. -/
def sortOn {α : Type} (key : α → List Value) (le : List Value → List Value → Bool) (xs : List α) : List α :=
  ((xs.map fun x => (key x, x)).mergeSort fun a b => le a.1 b.1).map (·.2)

def distinctOn {α : Type} (key : α → List Value) (xs : List α) : List α :=
  (xs.foldl (fun (acc : List (List Value × α)) x =>
    let k := key x
    if acc.any fun a => orderValues a.1 k == .eq then acc else (k, x) :: acc) []).reverse.map (·.2)

/-- Runs of rows with equal keys, in the order of the keys. -/
def runs : List (List Value × Row) → List (List Row)
  | [] => []
  | (k, r) :: rest =>
    match runs rest, rest with
    | g :: gs, (k', _) :: _ => if orderValues k k' == .eq then (r :: g) :: gs else [r] :: g :: gs
    | _, _ => [[r]]

/-- Outside of aggregates the first row of a group stands for it. -/
def frameOf (rows : List Row) : Frame := ⟨rows.headD ⟨.null, []⟩, rows⟩

def groupRows (keys : List Term) (rt : Runtime) (rows : List Row) : List Frame :=
  let keyed := rows.map fun r => (Term.values keys rt ⟨r, []⟩, r)
  let sorted := keyed.mergeSort fun a b => orderValues a.1 b.1 != .gt
  (runs sorted).map frameOf

/-! ### Limits -/

def countOf (t : Term) (rt : Runtime) : Except Fault Int :=
  match (t.value rt ⟨⟨.null, []⟩, []⟩).apply .integer with
  | .int n => .ok n
  | _ => .error .mismatch

/-- A negative limit is none, and a negative offset is zero. -/
def cut {α : Type} (limit : Option (Term × Option Term)) (rt : Runtime) (x : Found α) :
    Except Fault (Found α) :=
  match limit with
  | none => .ok x
  | some (count, offset) => do
    let n ← countOf count rt
    let skip ← match offset with
      | some t => countOf t rt
      | none => .ok 0
    return x.slice skip.toNat (if n < 0 then none else some n.toNat)

def limitTerms : Option Limit → Except Fault (Option (Term × Option Term))
  | none => .ok none
  | some l => do
    let count ← l.count.term .empty
    match l.offset with
    | none => return some (count, none)
    | some e => return some (count, some (← e.term .empty))

/-! ### One SELECT -/

structure ResultTerm where
  name : String
  label : Option String
  term : Term

def ResultTerm.column (r : ResultTerm) : PlanColumn :=
  ⟨r.name, r.term.column.bind (·.2), r.term.affinity⟩

def allColumns (s : Scope) : List ResultTerm :=
  s.columns.zipIdx.map fun p => ⟨p.1.name, none, .ofColumn p.1 p.2⟩

/-- A result is named by its label, or else as the column that it shows, or by its text. -/
def resultTerms (s : Scope) : List ResultColumn → Except Fault (List ResultTerm)
  | [] => .ok []
  | .all :: rest =>
    if s.columns.isEmpty then .error .nothingToSelect
    else do return allColumns s ++ (← resultTerms s rest)
  | .expr e label source :: rest => do
    let t ← e.term s
    let name := label.getD (((t.column).map (·.1)).getD source)
    return ⟨name, label, t⟩ :: (← resultTerms s rest)

/-- A whole number in place of an expression means the result of that place. -/
def placeTerm? (clause : String) (results : List Term) (n : Nat) : Expr → Option (Except Fault Term)
  | .literal (.int k) =>
    some (if 1 ≤ k && k ≤ results.length then .ok ((results[k.toNat - 1]?).getD (.constant .null))
      else .error (.placeRange clause n results.length))
  | _ => none

def sortKeys (s : Scope) (results : List Term) (n : Nat) : List OrderTerm → Except Fault (List SortKey)
  | [] => .ok []
  | t :: ts => do
    let s := { s with aliasesFirst := match t.expr with
      | .column none _ => true
      | _ => false }
    let term ← match placeTerm? "ORDER BY" results n t.expr with
      | some r => r
      | none => t.expr.term s
    return .ofTerm t term :: (← sortKeys s results (n + 1) ts)

def groupTerms (s : Scope) (results : List Term) (n : Nat) : List Expr → Except Fault (List Term)
  | [] => .ok []
  | e :: es => do
    let term ← match placeTerm? "GROUP BY" results n e with
      | some r => r
      | none => e.term s
    return term :: (← groupTerms s results (n + 1) es)

/-- No aggregate among terms of which each row has its own value. -/
def checkLone (ts : List Term) : Except Fault Unit :=
  match ts.findSome? (·.aggregate) with
  | some n => .error (.loneAggregate n.text n.offset)
  | none => .ok ()

def optionTerm (s : Scope) : Option Expr → Except Fault (Option Term)
  | none => .ok none
  | some e => do return some (← e.term s)

def keepFrames (condition : Option Term) (rt : Runtime) (fs : List Frame) : List Frame :=
  match condition with
  | none => fs
  | some t => fs.filter fun f => (t.value rt f).truth = some true

/-- Rows are filtered, grouped, sorted and shown, in this order. -/
def selectPlan (src : SourcePlan) (distinct : Bool) (result : List ResultColumn) (filter : Option Expr)
    (groups : List Expr) (having : Option Expr) (order : List OrderTerm) (limit : Option Limit) :
    Except Fault Plan := do
  let limit ← limitTerms limit
  let open_ := { src.scope with allowsAggregates := true }
  let results ← resultTerms open_ result
  let terms := results.map (·.term)
  let aliases := results.filterMap fun r => r.label.map fun a => (a, r.term)
  let withAliases := { open_ with aliases := aliases }
  let grouped := !groups.isEmpty || terms.any (·.aggregate.isSome)
  if having.isSome && !grouped then throw .ungroupedHaving
  let having ← optionTerm withAliases having
  let filter ← optionTerm { withAliases with allowsAggregates := false } filter
  let keys ← sortKeys withAliases terms 1 order
  let groups ← groupTerms withAliases terms 1 groups
  if groups.any (·.aggregate.isSome) then throw .groupedAggregate
  checkLone filter.toList
  unless grouped do checkLone (keys.map (·.term))
  let show_ (rt : Runtime) (f : Frame) : List Value := Term.values terms rt f
  let sorted (rt : Runtime) (fs : List Frame) : List Frame :=
    sortOn (Term.values (keys.map (·.term)) rt) (fun v w => orderKeys keys v w != .gt) fs
  return {
    columns := results.map (·.column)
    run := fun rt => do
      let found ← src.run rt
      let found : Found Row := ⟨filterRows filter rt found.rows, found.complete⟩
      let frames : Found Frame :=
        if !grouped then found.map fun r => ⟨r, []⟩
        else if groups.isEmpty then found.whole fun rows => keepFrames having rt [frameOf rows]
        else found.whole fun rows => keepFrames having rt (groupRows groups rt rows)
      let frames : Found Frame := if distinct then ⟨distinctOn (show_ rt) frames.rows, frames.complete⟩ else frames
      let frames : Found Frame := if keys.isEmpty then frames else frames.whole (sorted rt)
      return (← cut limit rt frames).map (show_ rt) }

/-! ### Sources -/

def scopeColumns (table : Option String) (cs : List PlanColumn) : List ScopeColumn :=
  cs.map fun c => ⟨table, c.name, c.type, c.affinity⟩

def Plan.source (p : Plan) (name : Option String) : SourcePlan where
  scope := { Scope.empty with columns := scopeColumns name p.columns }
  run rt := return (← p.run rt).map fun vs => ⟨.null, vs⟩

def StoredColumn.planColumn (c : StoredColumn) : PlanColumn :=
  ⟨c.name, if c.type.isEmpty then none else some c.type, some c.affinity⟩

def StoredTable.scope (t : StoredTable) (name : String) : Scope :=
  { Scope.empty with
    columns := scopeColumns (some name) (t.columns.map (·.planColumn))
    numbered := some (name, (t.rowidColumn.bind fun i => t.columns[i]?).map (·.name)) }

def Record.row (r : Record) : Row := ⟨.int r.rowid, r.values⟩

def StoredTable.rows (t : StoredTable) : List Row := t.records.map (·.row)

def StoredTable.source (t : StoredTable) (name : String) : SourcePlan where
  scope := t.scope name
  run rt := .ok (.all (((rt.database.find? t.name).map (·.rows)).getD []))

/-- One row without columns. -/
def noSource : SourcePlan := ⟨.empty, fun _ => .ok (.all [⟨.null, []⟩])⟩

def Catalog.source (c : Catalog) (name : String) (label : Option String) : Except Fault SourcePlan :=
  let shown := label.getD name
  match c.commons.find? fun p => sameName p.1 name with
  | some (_, plan) => .ok (plan.source (some shown))
  | none =>
    match c.database.find? name with
    | some t => .ok (t.source shown)
    | none => .error (.noTable name)

/-! ### Compounds -/

def CompoundOp.text : CompoundOp → String
  | unionAll => "UNION ALL"
  | union => "UNION"
  | except => "EXCEPT"
  | intersect => "INTERSECT"

def sortedDistinct (rows : List (List Value)) : List (List Value) :=
  distinctOn id (sortOn id (fun v w => orderValues v w != .gt) rows)

def among (rows : List (List Value)) (v : List Value) : Bool := rows.any fun w => orderValues v w == .eq

def combine (op : CompoundOp) (a b : Found (List Value)) : Found (List Value) :=
  match op with
  | .unionAll => if a.complete then ⟨a.rows ++ b.rows, b.complete⟩ else a
  | .union => Found.whole sortedDistinct ⟨a.rows ++ b.rows, a.complete && b.complete⟩
  | .except =>
    Found.whole (fun vs => (sortedDistinct vs).filter (!among b.rows ·)) ⟨a.rows, a.complete && b.complete⟩
  | .intersect =>
    Found.whole (fun vs => (sortedDistinct vs).filter (among b.rows)) ⟨a.rows, a.complete && b.complete⟩

def compoundPlan (op : CompoundOp) (a b : Plan) : Except Fault Plan :=
  if a.columns.length ≠ b.columns.length then .error (.unevenCompound op.text)
  else .ok ⟨a.columns, fun rt => do return combine op (← a.run rt) (← b.run rt)⟩

/-- Sorts and limits what has been put together; only its own columns can be named. -/
def finishPlan (p : Plan) (order : List OrderTerm) (limit : Option Limit) : Except Fault Plan :=
  if order.isEmpty && limit.isNone then .ok p
  else selectPlan (p.source none) false [.all] none [] none order limit

def valuesPlan (rows : List (List Expr)) : Except Fault Plan := do
  let terms ← rows.mapM (Expr.terms .empty)
  let width := (terms.headD []).length
  if terms.any (·.length ≠ width) then throw .unevenRows
  return {
    columns := (List.range width).map fun i => ⟨"column" ++ toString (i + 1), none, none⟩
    run := fun rt => .ok (.all (terms.map fun ts => Term.values ts rt ⟨⟨.null, []⟩, []⟩)) }

/-! ### Tables that refer to themselves -/

mutual

def Query.mentions (name : String) : Query → Bool
  | .mk _ body _ _ => body.mentions name

def Body.mentions (name : String) : Body → Bool
  | .select _ _ source _ _ _ => source.mentions name
  | .values _ => false
  | .compound _ a b => a.mentions name || b.mentions name

def Source.mentions (name : String) : Source → Bool
  | .nothing => false
  | .table t _ => sameName t name
  | .query q _ => q.mentions name

end

/-- Takes one row after the other from the queue and appends what follows from it, as long as
there is room. Rows that have come up before are left out if they are to be distinct. -/
def grow (step : List Value → Except Fault (List (List Value))) (distinct : Bool) :
    Nat → List (List Value) → List (List Value) → Except Fault (Found (List Value))
  | _, [], done => .ok ⟨done.reverse, true⟩
  | 0, queue, done => .ok ⟨done.reverse ++ queue, false⟩
  | budget + 1, row :: queue, done => do
    let next ← step row
    let next := if distinct then next.filter (!among (row :: queue ++ done) ·) else next
    grow step distinct budget (queue ++ next) (row :: done)

/-- The rows of the first part, and all that the second part makes of them, one at a time. -/
def recursivePlan (name : String) (distinct : Bool) (first second : Plan) : Plan where
  columns := first.columns
  run rt := do
    let start ← first.run rt
    let step (row : List Value) : Except Fault (List (List Value)) := do
      return (← second.run { rt with working := (name, [row]) :: rt.working }).rows
    grow step distinct rt.budget (if distinct then sortedDistinct start.rows else start.rows) []

def workingPlan (name : String) (columns : List PlanColumn) : Plan :=
  ⟨columns, fun rt => .ok (.all ((rt.working.lookup name).getD []))⟩

def renameColumns (names : List String) (cs : List PlanColumn) : List PlanColumn :=
  if names.isEmpty then cs else List.zipWith (fun n c => { c with name := n }) names cs

def Plan.named (p : Plan) (names : List String) : Plan := { p with columns := renameColumns names p.columns }

mutual

def Query.plan (c : Catalog) : Query → Except Fault Plan
  | .mk defs body order limit => do
    let c ← CommonTable.extend c defs
    body.plan c order limit

def Body.plan (c : Catalog) (order : List OrderTerm) (limit : Option Limit) : Body → Except Fault Plan
  | .select distinct result source filter groups having => do
    selectPlan (← source.plan c) distinct result filter groups having order limit
  | .values rows => do finishPlan (← valuesPlan rows) order limit
  | .compound op a b => do
    let a ← a.plan c [] none
    let b ← b.plan c [] none
    finishPlan (← compoundPlan op a b) order limit

def Source.plan (c : Catalog) : Source → Except Fault SourcePlan
  | .nothing => .ok noSource
  | .table name label => c.source name label
  | .query q label => do return (← q.plan c).source label

def CommonTable.plan (c : Catalog) : CommonTable → Except Fault Plan
  | .mk name columns (.mk [] (.compound op a b) order limit) => do
    if b.mentions name && (op = .unionAll || op = .union) then
      let first := (← a.plan c [] none).named columns
      let c := { c with commons := (name, workingPlan name first.columns) :: c.commons }
      let second ← b.plan c [] none
      if first.columns.length ≠ second.columns.length then throw (.unevenCompound op.text)
      finishPlan (recursivePlan name (op = .union) first second) order limit
    else
      let a ← a.plan c [] none
      let b ← b.plan c [] none
      return (← finishPlan (← compoundPlan op a b) order limit).named columns
  | .mk _ columns q => do return (← q.plan c).named columns

def CommonTable.extend (c : Catalog) : List CommonTable → Except Fault Catalog
  | [] => .ok c
  | .mk name columns q :: rest => do
    let p ← CommonTable.plan c (.mk name columns q)
    CommonTable.extend { c with commons := (name, p) :: c.commons } rest

end

end Parlance.Sqlite
