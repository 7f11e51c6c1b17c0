import Parlance.Proofs.Interpretation.Stages
import Parlance.Proofs.Statement.Rendering

/-! A statement as a template in which no dialect has a part: text, with a hole for every predicate
on recent time. A dialect fills the holes with its own rendering. Neither the rest of the statement
nor anything else in the interpretation of a request depends on the dialect. -/

namespace Parlance

/-- Text of a statement, or the place of a predicate on recent time. -/
inductive Piece
  | text (s : String)
  | recency (column : String) (window : TimeWindow)
  deriving DecidableEq, Repr

abbrev Template := List Piece

namespace Template

/-- The statement, with a rendering of what belongs in the holes. -/
def fill (render : String → TimeWindow → String) : Template → String
  | [] => ""
  | .text s :: t => s ++ fill render t
  | .recency column window :: t => render column window ++ fill render t

/-- What belongs in the holes, from left to right. -/
def holes : Template → List (String × TimeWindow)
  | [] => []
  | .text _ :: t => holes t
  | .recency column window :: t => (column, window) :: holes t

end Template

mutual

def Predicate.template : Predicate → Template
  | .compare column op value => [.text (column ++ " " ++ op.sql ++ " " ++ value.sql)]
  | .like column mode pattern => [.text (column ++ " LIKE '" ++ mode.sql pattern ++ "'")]
  | .isNull column negated => [.text (column ++ " IS " ++ (if negated then "NOT " else "") ++ "NULL")]
  | .recency column window => [.recency column window]
  | .group terms => .text "(" :: (chainTemplate terms ++ [.text ")"])

def chainTemplate : List (Connective × Predicate) → Template
  | [] => []
  | (_, p) :: terms => p.template ++ restTemplate terms

def restTemplate : List (Connective × Predicate) → Template
  | [] => []
  | (c, p) :: terms => .text c.sql :: (p.template ++ restTemplate terms)

end

mutual

/-- The predicates on recent time, also those in groups, from left to right. -/
def Predicate.recencies : Predicate → List (String × TimeWindow)
  | .recency column window => [(column, window)]
  | .group terms => Filter.recencies terms
  | .compare .. | .like .. | .isNull .. => []

def Filter.recencies : List (Connective × Predicate) → List (String × TimeWindow)
  | [] => []
  | (_, p) :: terms => p.recencies ++ Filter.recencies terms

end

def whereTemplate (f : Filter) : Template :=
  if f.isEmpty then [] else .text " WHERE " :: chainTemplate f

/-- The clauses of a read that stand behind its filter. -/
def ReadClauses.tail (c : ReadClauses) : String :=
  (match c.groupBy with | some column => " GROUP BY " ++ column | none => "")
    ++ (match c.orderBy with
        | some o => " ORDER BY " ++ o.column ++ (if o.descending then " DESC" else " ASC")
        | none => "")
    ++ (match c.limit with | some n => " LIMIT " ++ toString n | none => "")

def ReadClauses.template (c : ReadClauses) : Template := whereTemplate c.filter ++ [.text c.tail]

namespace Intent

def template : Intent → Template
  | select table columns clauses =>
    .text ("SELECT " ++ projection clauses.groupBy columns ++ " FROM " ++ table) :: clauses.template
  | count table clauses =>
    .text ("SELECT " ++ countProjection clauses.groupBy ++ " FROM " ++ table) :: clauses.template
  | insert table [] => [.text ("INSERT INTO " ++ table ++ " (columns) VALUES (values)")]
  | insert table values =>
    [.text ("INSERT INTO " ++ table ++ " (" ++ commaList (values.map (·.column)) ++ ") VALUES ("
      ++ commaList (values.map (·.value.sql)) ++ ")")]
  | update table assignments filter =>
    .text ("UPDATE " ++ table ++ " SET "
      ++ (if assignments.isEmpty then "column = value" else commaList (assignments.map (·.sql))))
      :: whereTemplate filter
  | delete table filter => .text ("DELETE FROM " ++ table) :: whereTemplate filter

/-- What restricts the rows that a statement is about. -/
def filter : Intent → Filter
  | select _ _ clauses | count _ clauses => clauses.filter
  | update _ _ filter | delete _ filter => filter
  | insert .. => []

end Intent

/-! ### Filling the holes -/

namespace Template

variable {render : String → TimeWindow → String}

@[simp] theorem fill_append (a b : Template) : fill render (a ++ b) = fill render a ++ fill render b := by
  induction a with
  | nil => simp [fill]
  | cons p a ih => cases p <;> simp [fill, ih, String.append_assoc]

@[simp] theorem holes_append (a b : Template) : holes (a ++ b) = holes a ++ holes b := by
  induction a with
  | nil => rfl
  | cons p a ih => cases p <;> simp [holes, ih]

end Template

open Template (fill holes)

mutual

theorem Predicate.sql_eq_fill (d : Dialect) : ∀ p : Predicate, p.sql d = fill d.recency p.template
  | .compare column op value => by simp [Predicate.sql, Predicate.template, fill]
  | .like column mode pattern => by simp [Predicate.sql, Predicate.template, fill]
  | .isNull column negated => by simp [Predicate.sql, Predicate.template, fill]
  | .recency column window => by simp [Predicate.sql, Predicate.template, fill]
  | .group terms => by
    have h := chainSql_eq_fill d terms
    simp [Predicate.sql, Predicate.template, fill, h, String.append_assoc]

theorem chainSql_eq_fill (d : Dialect) :
    ∀ terms : List (Connective × Predicate), chainSql d terms = fill d.recency (chainTemplate terms)
  | [] => rfl
  | (c, p) :: terms => by
    have hp := Predicate.sql_eq_fill d p
    have hrest := restSql_eq_fill d terms
    simp [chainSql, chainTemplate, hp, hrest]

theorem restSql_eq_fill (d : Dialect) :
    ∀ terms : List (Connective × Predicate), restSql d terms = fill d.recency (restTemplate terms)
  | [] => rfl
  | (c, p) :: terms => by
    have hp := Predicate.sql_eq_fill d p
    have hrest := restSql_eq_fill d terms
    simp [restSql, restTemplate, fill, hp, hrest, String.append_assoc]

end

mutual

theorem Predicate.holes_template : ∀ p : Predicate, holes p.template = p.recencies
  | .compare .. | .like .. | .isNull .. | .recency .. => rfl
  | .group terms => by
    have h := holes_chainTemplate terms
    simp [Predicate.template, Predicate.recencies, holes, h]

theorem holes_chainTemplate :
    ∀ terms : List (Connective × Predicate), holes (chainTemplate terms) = Filter.recencies terms
  | [] => rfl
  | (c, p) :: terms => by
    have hp := Predicate.holes_template p
    have hrest := holes_restTemplate terms
    simp [chainTemplate, Filter.recencies, hp, hrest]

theorem holes_restTemplate :
    ∀ terms : List (Connective × Predicate), holes (restTemplate terms) = Filter.recencies terms
  | [] => rfl
  | (c, p) :: terms => by
    have hp := Predicate.holes_template p
    have hrest := holes_restTemplate terms
    simp [restTemplate, Filter.recencies, holes, hp, hrest]

end

theorem whereSql_eq_fill (d : Dialect) (f : Filter) :
    whereSql d f = fill d.recency (whereTemplate f) := by
  rw [whereSql, whereTemplate]
  split
  · rfl
  · rw [fill, chainSql_eq_fill]

theorem holes_whereTemplate (f : Filter) : holes (whereTemplate f) = Filter.recencies f := by
  rw [whereTemplate]
  split
  · next h =>
    rw [List.isEmpty_iff.mp h]
    rfl
  · rw [holes, holes_chainTemplate]

theorem ReadClauses.sql_eq_tail (d : Dialect) (c : ReadClauses) : c.sql d = whereSql d c.filter ++ c.tail := by
  rw [ReadClauses.tail, ← String.append_assoc, ← String.append_assoc]
  rfl

theorem ReadClauses.sql_eq_fill (d : Dialect) (c : ReadClauses) :
    c.sql d = fill d.recency c.template := by
  rw [ReadClauses.sql_eq_tail, ReadClauses.template, Template.fill_append, whereSql_eq_fill, fill, fill,
    String.append_empty]

theorem ReadClauses.holes_template (c : ReadClauses) :
    holes c.template = Filter.recencies c.filter := by
  simp [ReadClauses.template, holes_whereTemplate, holes]

namespace Intent

/-- A dialect has a part in a statement only where a predicate on recent time stands. -/
theorem sql_eq_fill (d : Dialect) (i : Intent) : i.sql d = fill d.recency i.template := by
  cases i with
  | select table columns clauses => simp [sql, template, fill, ReadClauses.sql_eq_fill]
  | count table clauses => simp [sql, template, fill, ReadClauses.sql_eq_fill]
  | insert table values =>
    cases values with
    | nil => simp [sql, template, fill]
    | cons a values => simp [sql, template, fill]
  | update table assignments filter => simp [sql, template, fill, whereSql_eq_fill]
  | delete table filter => simp [sql, template, fill, whereSql_eq_fill]

theorem holes_template (i : Intent) : holes i.template = Filter.recencies i.filter := by
  cases i with
  | select table columns clauses => exact clauses.holes_template
  | count table clauses => exact clauses.holes_template
  | insert table values => cases values <;> rfl
  | update table assignments filter => exact holes_whereTemplate filter
  | delete table filter => exact holes_whereTemplate filter

end Intent

/-! ### Where two dialects part -/

/-- From some place on the texts have different characters. -/
def Parted (a b : String) : Prop :=
  ∃ u x v y w, a.toList = u ++ x :: v ∧ b.toList = u ++ y :: w ∧ x ≠ y

namespace Parted

variable {a b : String}

theorem symm (h : Parted a b) : Parted b a := by
  obtain ⟨u, x, v, y, w, ha, hb, hne⟩ := h
  exact ⟨u, y, w, x, v, hb, ha, hne.symm⟩

theorem ne (h : Parted a b) : a ≠ b := by
  rintro rfl
  obtain ⟨u, x, v, y, w, ha, hb, hne⟩ := h
  have he := List.append_cancel_left (ha.symm.trans hb)
  exact hne (List.cons.inj he).1

/-- Neither what stands before nor what stands behind brings them together again. -/
theorem extend (h : Parted a b) (p q r : String) : Parted (p ++ a ++ q) (p ++ b ++ r) := by
  obtain ⟨u, x, v, y, w, ha, hb, hne⟩ := h
  refine ⟨p.toList ++ u, x, v ++ q.toList, y, w ++ r.toList, ?_, ?_, hne⟩
  · simp [ha]
  · simp [hb]

end Parted

namespace Dialect

theorem parted_of {f : Dialect → String} (hpm : Parted (f postgres) (f mysql))
    (hps : Parted (f postgres) (f sqlite)) (hms : Parted (f mysql) (f sqlite)) {d e : Dialect}
    (h : d ≠ e) : Parted (f d) (f e) := by
  cases d <;> cases e
  case postgres.mysql => exact hpm
  case postgres.sqlite => exact hps
  case mysql.sqlite => exact hms
  case mysql.postgres => exact hpm.symm
  case sqlite.postgres => exact hps.symm
  case sqlite.mysql => exact hms.symm
  all_goals exact absurd rfl h

theorem startOfToday_parted {d e : Dialect} (h : d ≠ e) : Parted d.startOfToday e.startOfToday := by
  refine parted_of ?_ ?_ ?_ h
  · exact ⟨"CUR".toList, 'R', "ENT_DATE".toList, 'D', "ATE()".toList, by rfl, by rfl, by decide⟩
  · exact ⟨[], 'C', "URRENT_DATE".toList, 'd', "ate('now')".toList, by rfl, by rfl, by decide⟩
  · exact ⟨[], 'C', "URDATE()".toList, 'd', "ate('now')".toList, by rfl, by rfl, by decide⟩

theorem startOfYesterday_parted {d e : Dialect} (h : d ≠ e) :
    Parted d.startOfYesterday e.startOfYesterday := by
  refine parted_of ?_ ?_ ?_ h
  · exact ⟨"CUR".toList, 'R', "ENT_DATE - INTERVAL '1 day'".toList, 'D', "ATE() - INTERVAL 1 DAY".toList,
      by rfl, by rfl, by decide⟩
  · exact ⟨[], 'C', "URRENT_DATE - INTERVAL '1 day'".toList, 'd', "ate('now', '-1 day')".toList,
      by rfl, by rfl, by decide⟩
  · exact ⟨[], 'C', "URDATE() - INTERVAL 1 DAY".toList, 'd', "ate('now', '-1 day')".toList,
      by rfl, by rfl, by decide⟩

/-- Only two dialects begin alike, and one of them quotes the number. -/
theorem ago_parted {d e : Dialect} (h : d ≠ e) (amount : Nat) (unit : TimeUnit) :
    Parted (ago amount unit d) (ago amount unit e) := by
  obtain ⟨c, cs, hc⟩ := List.exists_cons_of_ne_nil (Nat.toDigits_ne_nil (n := amount) (b := 10))
  have hquote : c ≠ '\'' := by
    have hd := Nat.isDigit_of_mem_toDigits (by decide) (by decide) (hc ▸ List.mem_cons_self)
    rintro rfl
    cases hd
  have hp : ago amount unit postgres = "NOW() - INTERVAL '" ++ quantity amount unit ++ "'" := rfl
  have hm : ago amount unit mysql = "NOW() - INTERVAL " ++ toString amount ++ " " ++ upperUnit unit := rfl
  have hs : ago amount unit sqlite = "datetime('now', '-" ++ quantity amount unit ++ "')" := rfl
  refine parted_of ?_ ?_ ?_ h
  · exact ⟨"NOW() - INTERVAL ".toList, '\'', (quantity amount unit ++ "'").toList, c,
      cs ++ (" " ++ upperUnit unit).toList, by simp [hp], by simp [hm, hc], hquote.symm⟩
  · exact ⟨[], 'N', ("OW() - INTERVAL '" ++ quantity amount unit ++ "'").toList, 'd',
      ("atetime('now', '-" ++ quantity amount unit ++ "')").toList, by simp [hp], by simp [hs], by decide⟩
  · exact ⟨[], 'N', ("OW() - INTERVAL " ++ toString amount ++ " " ++ upperUnit unit).toList, 'd',
      ("atetime('now', '-" ++ quantity amount unit ++ "')").toList, by simp [hm], by simp [hs], by decide⟩

/-- No two dialects render a predicate on recent time alike. -/
theorem recency_parted {d e : Dialect} (h : d ≠ e) (column : String) (window : TimeWindow) :
    Parted (d.recency column window) (e.recency column window) := by
  cases window with
  | today =>
    have hx := (startOfToday_parted h).extend (column ++ " >= ") "" ""
    simpa [recency] using hx
  | yesterday =>
    have hx := (startOfYesterday_parted h).extend (column ++ " >= ")
      (" AND " ++ column ++ " < " ++ d.startOfToday) (" AND " ++ column ++ " < " ++ e.startOfToday)
    simpa [recency, String.append_assoc] using hx
  | last amount unit =>
    have hx := (ago_parted h amount unit).extend (column ++ " >= ") "" ""
    simpa [recency] using hx

end Dialect

theorem Template.fill_parted {d e : Dialect} (h : d ≠ e) {t : Template} (ht : holes t ≠ []) :
    Parted (fill d.recency t) (fill e.recency t) := by
  induction t with
  | nil => exact absurd rfl ht
  | cons p t ih =>
    cases p with
    | text s =>
      have hx := (ih ht).extend s "" ""
      simpa [fill] using hx
    | recency column window =>
      have hx := (Dialect.recency_parted h column window).extend "" (fill d.recency t) (fill e.recency t)
      simpa [fill] using hx

theorem Template.fill_eq_of_holes_nil {t : Template} (ht : holes t = [])
    (f g : String → TimeWindow → String) : fill f t = fill g t := by
  induction t with
  | nil => rfl
  | cons p t ih =>
    cases p with
    | text s => rw [fill, fill, ih ht]
    | recency column window => cases ht

theorem Intent.sql_eq_iff (i : Intent) (d e : Dialect) :
    i.sql d = i.sql e ↔ d = e ∨ Filter.recencies i.filter = [] := by
  rw [sql_eq_fill, sql_eq_fill, ← holes_template]
  constructor
  · intro h
    by_cases hd : d = e
    · exact .inl hd
    · exact .inr (Classical.byContradiction fun ht => (Template.fill_parted hd ht).ne h)
  · rintro (rfl | h)
    · rfl
    · exact Template.fill_eq_of_holes_nil h _ _

/-! ### Interpretations -/

namespace Interpreter

open Interpretation (Subject Workspace)

/-- The dialect of an interpreter shows in the SQL that it writes and nowhere else. -/
theorem interpret_dialect (t : Interpreter) (e : Dialect) (text : String) (schema : Schema) :
    { t with dialect := e }.interpret text schema =
      (t.interpret text schema).map fun i => { i with sql := i.intent.sql e } := by
  -- The window, the table and the rest of the intent are found without the dialect.
  have hrecency (s : Subject) (w : Option TimeWindow) :
      { t with dialect := e }.recencyOf s w = t.recencyOf s w := rfl
  have hintent (s : Subject) (o : Operation) (m n : Nat) (id recency : Option Predicate) (ws : Workspace) :
      { t with dialect := e }.takeIntent s o m n id recency ws = t.takeIntent s o m n id recency ws := by
    cases o <;> rfl
  simp only [interpret, hrecency, hintent]
  split
  · rfl
  · generalize (windowFor _ _).kept = window
    cases window with
    | error err => rfl
    | ok w =>
      simp only [ok_bind]
      cases subjectOf _ _ _ with
      | error err => rfl
      | ok m =>
        simp only [ok_bind]
        cases t.takeIntent _ _ _ _ _ _ _ with
        | error err => rfl
        | ok i => rfl

/-- Under two dialects a request is refused alike or understood alike, and the two statements are one
template with each hole filled in the dialect's way: they are equal if there is no hole in it, and
only then. -/
theorem interpret_template (t : Interpreter) (d e : Dialect) :
    (∀ text schema, { t with dialect := e }.interpret text schema =
      ({ t with dialect := d }.interpret text schema).map
        fun i : Interpretation => { i with sql := i.intent.sql e }) ∧
    ∀ i : Intent, i.sql d = fill d.recency i.template ∧ i.sql e = fill e.recency i.template ∧
      holes i.template = Filter.recencies i.filter ∧
      (i.sql d = i.sql e ↔ d = e ∨ Filter.recencies i.filter = []) :=
  ⟨interpret_dialect { t with dialect := d } e, fun i =>
    ⟨i.sql_eq_fill d, i.sql_eq_fill e, i.holes_template, i.sql_eq_iff d e⟩⟩

end Interpreter

end Parlance
