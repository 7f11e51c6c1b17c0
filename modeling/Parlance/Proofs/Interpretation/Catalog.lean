import Parlance.Proofs.Interpretation.Grounded
import Parlance.Proofs.Interpretation.Stages

/-! The columns of a known table. An interpretation that knows its table names no column that the
catalog does not list for it, but for the count by which a count is ordered and the column that is
configured to date the rows. -/

namespace Parlance

open Pattern (IsName)

namespace Schema

variable {schema : Schema} {table : Table}

theorem find?_name {w : List Char} (h : schema.find? w = some table) :
    schema.find? table.name.toList = some table := by
  have hw := sameWord_of_find? h
  simp only [Text.sameWord, beq_iff_eq] at hw
  simpa only [find?, Text.sameWord, ← hw] using h

theorem columns?_of_find? (h : schema.find? table.name.toList = some table) :
    schema.columns? table.name = some table.columns := by
  rw [columns?, h, Option.map_some]

theorem mem_of_findColumn? (h : schema.find? table.name.toList = some table) {w : List Char}
    {c : String} (hc : schema.findColumn? table.name w = some c) : c ∈ table.columns.map (·.name) := by
  simp only [findColumn?, columns?_of_find? h, Option.bind_eq_bind, Option.bind_some,
    Option.map_eq_some_iff] at hc
  obtain ⟨column, hcolumn, rfl⟩ := hc
  exact List.mem_map_of_mem (List.mem_of_find?_eq_some hcolumn)

theorem mem_of_timestampColumn? (h : schema.find? table.name.toList = some table) {c : String}
    (hc : schema.timestampColumn? table.name = some c) : c ∈ table.columns.map (·.name) := by
  simp only [timestampColumn?, columns?_of_find? h, Option.bind_eq_bind, Option.bind_some,
    Option.map_eq_some_iff, Option.or_eq_some_iff] at hc
  obtain ⟨column, hcolumn | ⟨-, hcolumn⟩, rfl⟩ := hc
  · exact List.mem_map_of_mem (List.mem_of_find?_eq_some hcolumn)
  · exact List.mem_map_of_mem (List.mem_of_find?_eq_some hcolumn)

end Schema

namespace Interpretation

variable {schema : Schema}

theorem find?_of_lookupTable? {w : List Char} {name : String} (h : lookupTable? schema w = some name) :
    ∃ table, schema.find? name.toList = some table ∧ table.name = name := by
  obtain ⟨form, -, hform⟩ := List.exists_of_findSome?_eq_some h
  obtain ⟨table, htable, rfl⟩ := Option.map_eq_some_iff.mp hform
  exact ⟨table, Schema.find?_name htable, rfl⟩

theorem find?_of_knownMatch? {ms : List Mention} {m : TableMatch} (h : knownMatch? schema ms = some m) :
    ∃ table, schema.find? m.name.toList = some table ∧ table.name = m.name := by
  obtain ⟨mention, -, hm⟩ := List.exists_of_findSome?_eq_some h
  obtain ⟨name, hname, rfl⟩ := Option.map_eq_some_iff.mp hm
  exact find?_of_lookupTable? hname

/-- A table that is known is one of the schema, and its name leads to it. -/
theorem find?_of_resolveTable? {ws : Workspace} {verbEnd : Nat} {m : TableMatch}
    (h : resolveTable? ws verbEnd schema = some m) (hk : m.known = true) :
    ∃ table, schema.find? m.name.toList = some table ∧ table.name = m.name := by
  simp only [resolveTable?] at h
  split at h
  · next hm =>
    cases h
    exact find?_of_knownMatch? hm
  · split at h
    · next hm =>
      cases h
      exact find?_of_knownMatch? hm
    · obtain ⟨mention, -, rfl⟩ := Option.map_eq_some_iff.mp h
      cases hk

end Interpretation

namespace Interpreter

open Interpretation

variable {t : Interpreter} {s : Subject} {table : Table}

/-- Where the order of a read comes from: a column of the text, the count of a count, or, if the
latest rows are asked for, the column that dates them. -/
def OrderedBy (t : Interpreter) (s : Subject) (count : Bool) (limit : Option Nat) (o : SortOrder) : Prop :=
  s.Names o.column ∨ (count = true ∧ o.column = "count") ∨
    (t.timestampColumn? s = some o.column ∧ o.descending = true ∧ limit.isSome = true)

theorem gives_orderColumn (count : Bool) {w : List Char} (h : IsName w) :
    Gives s.Refuses (fun c => s.Names c ∨ (count = true ∧ c = "count")) (orderColumn s count w) := by
  simp only [orderColumn]
  split
  · next hc => exact .inr ⟨(Bool.and_eq_true_iff.mp hc).1, rfl⟩
  · exact (Subject.gives_resolve h).mono (fun _ he => he) fun _ hc => .inl hc

theorem orderedBy_takeOrderBy (count : Bool) (ws : Workspace) :
    Gives s.Refuses (fun r => ∀ o, r = some o → s.Names o.column ∨ (count = true ∧ o.column = "count"))
      (takeOrderBy s count ws).1 := by
  simp only [takeOrderBy]
  split
  · intro o ho
    cases ho
  · next h hh =>
    have hp := Pattern.find?_of hh
    have hc := gives_orderColumn (s := s) count (isName_of_hit hp namesIn_orderBy.1 namesIn_orderBy.2)
    split
    · next c he =>
      rw [he] at hc
      intro o ho
      cases ho
      exact hc
    · next e he =>
      rw [he] at hc
      exact hc

theorem orderedBy_applyLatest {count : Bool} {latest limit : Option Nat} {order : Option SortOrder}
    (h : ∀ o, order = some o → s.Names o.column ∨ (count = true ∧ o.column = "count")) {o : SortOrder}
    (ho : (t.applyLatest s latest limit order).2.1 = some o) :
    OrderedBy t s count (t.applyLatest s latest limit order).1 o := by
  have hgiven (limit : Option Nat) (ho : order = some o) : OrderedBy t s count limit o := by
    rcases h o ho with hn | hc
    · exact .inl hn
    · exact .inr (.inl hc)
  cases latest with
  | none => exact hgiven limit ho
  | some n =>
    cases order with
    | some o' => exact hgiven _ ho
    | none =>
      cases hc : t.timestampColumn? s with
      | none => simp [applyLatest, hc] at ho
      | some c =>
        simp only [applyLatest, hc, Option.some.injEq] at ho ⊢
        subst ho
        exact .inr (.inr ⟨hc, rfl, by cases limit <;> rfl⟩)

theorem orderedBy_takeRead (count : Bool) (id recency : Option Predicate) (ws : Workspace) :
    Gives (fun _ => True) (fun r => ∀ o, r.1.orderBy = some o → OrderedBy t s count r.1.limit o)
      (t.takeRead s count id recency ws) := by
  have hany {α : Type} (x : Except Error α) : Gives (fun _ => True) (fun _ => True) x := by
    cases x <;> trivial
  refine (hany _).bind fun f _ => ?_
  refine (hany _).bind fun g _ => ?_
  refine ((orderedBy_takeOrderBy count g.2).mono (fun _ _ => trivial) fun _ h => h).kept.bind fun o ho => ?_
  exact fun _ => orderedBy_applyLatest ho

/-! ### Listed columns -/

/-- The catalog lists the column for the table. -/
def Lists (table : Table) (c : String) : Prop := c ∈ table.columns.map (·.name)

/-- The column is configured to date the rows of the table. -/
def Configured (t : Interpreter) (table : Table) (c : String) : Prop :=
  t.timestamps.lookup (lowerKey table.name) = some c

def ListedPredicate (t : Interpreter) (table : Table) : Predicate → Prop
  | .compare c _ _ | .like c _ _ | .isNull c _ => Lists table c
  | .recency c _ => Lists table c ∨ Configured t table c
  | .group _ => False

/-- A count may be ordered by itself, and the latest rows by the column that is configured. -/
def ListedOrder (t : Interpreter) (table : Table) (count : Bool) (limit : Option Nat) (o : SortOrder) : Prop :=
  Lists table o.column ∨ (count = true ∧ o.column = "count") ∨
    (Configured t table o.column ∧ o.descending = true ∧ limit.isSome = true)

structure ListedClauses (t : Interpreter) (table : Table) (count : Bool) (c : ReadClauses) : Prop where
  filter : Filter.Each (ListedPredicate t table) c.filter
  groupBy : ∀ column, c.groupBy = some column → Lists table column
  orderBy : ∀ o, c.orderBy = some o → ListedOrder t table count c.limit o

/-- Every column that the intent names is one of the table's. -/
def Listed (t : Interpreter) (table : Table) : Intent → Prop
  | .select name columns clauses =>
    name = table.name ∧ (∀ c ∈ columns, Lists table c) ∧ ListedClauses t table false clauses
  | .count name clauses => name = table.name ∧ ListedClauses t table true clauses
  | .insert name values => name = table.name ∧ ∀ a ∈ values, Lists table a.column
  | .update name assignments filter =>
    name = table.name ∧ (∀ a ∈ assignments, Lists table a.column) ∧
      Filter.Each (ListedPredicate t table) filter
  | .delete name filter => name = table.name ∧ Filter.Each (ListedPredicate t table) filter

variable {schema : Schema}

theorem lists_of_resolve (h : schema.find? table.name.toList = some table) {w : List Char} {c : String}
    (hc : Subject.resolve ⟨schema, table.name, true⟩ w = .ok c) : Lists table c := by
  have hfound := Subject.resolve_known rfl hc
  exact Schema.mem_of_findColumn? h hfound

theorem lists_of_names (h : schema.find? table.name.toList = some table) {c : String}
    (hc : Subject.Names ⟨schema, table.name, true⟩ c) : Lists table c := by
  obtain ⟨w, -, hr⟩ := hc
  exact lists_of_resolve h hr

theorem lists_of_assigns (h : schema.find? table.name.toList = some table) {a : Assignment}
    (ha : Subject.Assigns ⟨schema, table.name, true⟩ a) : Lists table a.column := by
  obtain ⟨w, -, -, hr⟩ := ha.column
  exact lists_of_resolve h hr

theorem lists_or_configured (h : schema.find? table.name.toList = some table) {c : String}
    (hc : t.timestampColumn? ⟨schema, table.name, true⟩ = some c) : Lists table c ∨ Configured t table c := by
  simp only [timestampColumn?] at hc
  split at hc
  · next c' hl =>
    cases hc
    exact .inr hl
  · exact .inl (Schema.mem_of_timestampColumn? h hc)

theorem listed_of_sourced (h : schema.find? table.name.toList = some table) {p : Predicate}
    (hp : Sourced t ⟨schema, table.name, true⟩ p) : ListedPredicate t table p := by
  cases p with
  | compare c op v => exact lists_of_names h hp.1
  | like c mode pattern => exact lists_of_names h hp
  | isNull c negated => exact lists_of_names h hp
  | recency c window => exact lists_or_configured h hp
  | group terms => exact hp

theorem listed_of_orderedBy (h : schema.find? table.name.toList = some table) {count : Bool}
    {limit : Option Nat} {o : SortOrder} (ho : OrderedBy t ⟨schema, table.name, true⟩ count limit o) :
    ListedOrder t table count limit o := by
  rcases ho with hn | hc | ⟨hd, hlatest⟩
  · exact .inl (lists_of_names h hn)
  · exact .inr (.inl hc)
  · rcases lists_or_configured h hd with hl | hc
    · exact .inl hl
    · exact .inr (.inr ⟨hc, hlatest⟩)

theorem listed_takeRead (h : schema.find? table.name.toList = some table) {id recency : Option Predicate}
    (hi : SourcedOption t ⟨schema, table.name, true⟩ id)
    (hr : SourcedOption t ⟨schema, table.name, true⟩ recency) {count : Bool} {ws : Workspace}
    {r : ReadClauses × List String × Workspace}
    (hread : t.takeRead ⟨schema, table.name, true⟩ count id recency ws = .ok r) :
    ListedClauses t table count r.1 := by
  have hc := gives_takeRead hi hr count ws
  have ho := orderedBy_takeRead (t := t) (s := ⟨schema, table.name, true⟩) count id recency ws
  rw [hread] at hc ho
  refine ⟨hc.filter.mono fun p => listed_of_sourced h, fun c hg => lists_of_names h (hc.groupBy c hg), ?_⟩
  exact fun o hso => listed_of_orderedBy h (ho o hso)

theorem listed_takeIntent (h : schema.find? table.name.toList = some table) {id recency : Option Predicate}
    (hi : SourcedOption t ⟨schema, table.name, true⟩ id)
    (hr : SourcedOption t ⟨schema, table.name, true⟩ recency) {o : Operation} {verbEnd tableEnd : Nat}
    {ws : Workspace} {r : Intent × List String}
    (hintent : t.takeIntent ⟨schema, table.name, true⟩ o verbEnd tableEnd id recency ws = .ok r) :
    Listed t table r.1 := by
  have hs := gives_takeIntent hi hr o verbEnd tableEnd ws
  rw [hintent] at hs
  obtain ⟨hs, ho⟩ := hs
  cases o with
  | insert =>
    obtain ⟨values, -, he⟩ := bind_eq_ok hintent
    cases he
    exact ⟨rfl, fun a ha => lists_of_assigns h (hs.2 a ha)⟩
  | update =>
    obtain ⟨values, -, hintent⟩ := bind_eq_ok hintent
    obtain ⟨filter, -, he⟩ := bind_eq_ok hintent
    cases he
    exact ⟨rfl, fun a ha => lists_of_assigns h (hs.2.1 a ha), hs.2.2.mono fun p => listed_of_sourced h⟩
  | delete =>
    obtain ⟨filter, -, he⟩ := bind_eq_ok hintent
    cases he
    exact ⟨rfl, hs.2.mono fun p => listed_of_sourced h⟩
  | count =>
    obtain ⟨clauses, hread, he⟩ := bind_eq_ok hintent
    cases he
    exact ⟨rfl, listed_takeRead h hi hr hread⟩
  | select =>
    obtain ⟨clauses, hread, he⟩ := bind_eq_ok hintent
    cases he
    exact ⟨rfl, fun c hc => lists_of_names h (hs.2.1 c hc), listed_takeRead h hi hr hread⟩

/-- An interpretation on a known table is about a table of the schema, found by the name that the
interpretation has for it, and names no columns but those that the catalog lists. -/
theorem interpret_listed {text : String} {i : Interpretation} (hi : t.interpret text schema = .ok i)
    (hk : i.known = true) : i.table ∈ schema.names ∧
      ∃ table, schema.find? i.table.toList = some table ∧ table.name = i.table ∧ Listed t table i.intent := by
  obtain ⟨v, window, ws, m, id, warnings, hs, hname, hknown⟩ := stages_of_interpret hi
  rw [hknown] at hk
  obtain ⟨table, htable, hm⟩ := find?_of_resolveTable? hs.table_eq hk
  have hmem : table ∈ schema.tables := List.mem_of_find?_eq_some htable
  have hsubject : subject schema m = ⟨schema, table.name, true⟩ := by rw [subject, hm, hk]
  have hid := sourced_idFor (t := t) (s := ⟨schema, table.name, true⟩) v.1 m.span.stop (ws.take m.span)
  have hrecency := sourced_recencyOf (t := t) (s := ⟨schema, table.name, true⟩) window
  have hintent := hs.intent_eq
  rw [← hs.id_eq, hsubject] at hintent
  rw [hname, ← hm]
  rw [← hm] at htable
  exact ⟨List.mem_map_of_mem hmem, table, htable, rfl, listed_takeIntent htable hid hrecency hintent⟩

/-- A nested filter, a window and an order by the configured column. -/
theorem interpret_listed_latest :
    let schema : Schema := ⟨[⟨"t", [.ofType "x" "int", .ofType "y" "int"]⟩]⟩
    let t := (ofDialect .postgres).withTimestamps [("t", "z")]
    ∃ i, t.interpret "last 3 t with x>1 or Y=2 today" schema = .ok i ∧ i.known = true ∧
      i.table ∈ schema.names ∧
      ∃ table, schema.find? i.table.toList = some table ∧ table.name = i.table ∧ Listed t table i.intent := by
  intro schema t
  have hok : (t.interpret "last 3 t with x>1 or Y=2 today" schema).toOption.any (·.known) = true := by
    decide +kernel
  cases hi : t.interpret "last 3 t with x>1 or Y=2 today" schema with
  | error e =>
    rw [hi] at hok
    cases hok
  | ok i =>
    rw [hi] at hok
    have hk : i.known = true := hok
    exact ⟨i, rfl, hk, interpret_listed hi hk⟩

end Interpreter

end Parlance
