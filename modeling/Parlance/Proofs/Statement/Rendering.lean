import Parlance.Proofs.Intent.Classified
import Parlance.Proofs.Interpretation.Grounded
import Parlance.Proofs.Statement.Fragment

/-! The SQL of an interpretation is a fragment, whatever the text of the request and the names in
the schema: values stand in literals or are numerals, and every name was matched against a word of
the text. Only the columns that date rows come from elsewhere, and have to be names. -/

namespace Parlance.Intent

/-! ### The words of a statement

Each kind of statement, cut where its words end. -/

/-- What an INSERT lists behind its table. -/
def insertList : List Assignment → String
  | [] => "(columns) VALUES (values)"
  | values =>
    "(" ++ commaList (values.map (·.column)) ++ ") VALUES (" ++ commaList (values.map (·.value.sql)) ++ ")"

/-- What an UPDATE lists behind SET. -/
def setList (assignments : List Assignment) : String :=
  if assignments.isEmpty then "column = value" else commaList (assignments.map (·.sql))

variable (d : Dialect) (table : String)

theorem toList_sql_select (columns : List String) (clauses : ReadClauses) :
    (sql d (.select table columns clauses)).toList = "SELECT".toList ++ ' ' ::
      ((projection clauses.groupBy columns).toList ++ ' ' ::
        ("FROM ".toList ++ table.toList ++ (clauses.sql d).toList)) := by
  simp [sql]

theorem toList_sql_count (clauses : ReadClauses) :
    (sql d (.count table clauses)).toList = "SELECT".toList ++ ' ' ::
      ((countProjection clauses.groupBy).toList ++ ' ' ::
        ("FROM ".toList ++ table.toList ++ (clauses.sql d).toList)) := by
  simp [sql]

theorem toList_sql_insert (values : List Assignment) :
    (sql d (.insert table values)).toList = "INSERT".toList ++ ' ' ::
      ("INTO".toList ++ ' ' :: (table.toList ++ ' ' :: (insertList values).toList)) := by
  cases values <;> simp [sql, insertList]

theorem toList_sql_update (assignments : List Assignment) (filter : Filter) :
    (sql d (.update table assignments filter)).toList = "UPDATE".toList ++ ' ' ::
      (table.toList ++ ' ' :: ("SET".toList ++ ' ' :: (setList assignments).toList)) ++ (whereSql d filter).toList := by
  simp [sql, setList]

theorem toList_sql_delete (filter : Filter) :
    (sql d (.delete table filter)).toList =
      "DELETE".toList ++ ' ' :: ("FROM".toList ++ ' ' :: table.toList) ++ (whereSql d filter).toList := by
  simp [sql]

end Parlance.Intent

namespace Parlance.Statement

open Pattern (IsName)
open Interpretation (Subject Sourced Orders)
open Interpreter (SourcedIntent SourcedClauses Grounded)

variable {d : Dialect}

/-! ### Values -/

theorem isDigit_of_mem_toString {n : Nat} {c : Char} (hc : c ∈ (toString n).toList) :
    Text.isDigit c = true := by
  rw [Nat.toString_eq_repr, Nat.toList_repr] at hc
  have hd := Nat.isDigit_of_mem_toDigits (by decide) (by decide) hc
  simp only [Char.isDigit, Bool.and_eq_true, decide_eq_true_eq] at hd
  simp only [Text.isDigit, Text.isAsciiDigit, Bool.or_eq_true, Bool.and_eq_true, decide_eq_true_eq]
  exact .inl hd

theorem fragment_nat (n : Nat) : Fragment (toString n) :=
  Fragment.of_isDigit fun _ => isDigit_of_mem_toString

/-- Behind the sign a numeral has no hyphen, so that no two of them meet. -/
theorem noHyphens_of_numeral {cs : List Char} (h : Number.Numeral cs) : noHyphens cs = true := by
  have hunsigned {body : List Char} (hb : Number.Unsigned body) : '-' ∉ body := by
    intro hm
    rcases hb.chars _ hm with hd | hd
    · exact absurd hd (by decide)
    · exact absurd hd (by decide)
  cases h with
  | plain h => exact noHyphens_of_not_mem (hunsigned h)
  | @negative body h =>
    cases body with
    | nil => exact absurd rfl h.ne_nil
    | cons d body =>
      have hd : d ≠ '-' := fun hd => hunsigned h (by rw [hd]; exact List.mem_cons_self)
      rw [noHyphens, noHyphens_of_not_mem (hunsigned h), Bool.and_true]
      simp [hd]

theorem fragment_plainNumber {s : String} (h : Literal.isPlainNumber s.toList = true) : Fragment s := by
  have hn := Literal.isPlainNumber_iff.mp h
  have hplain := hn.lacks (p := fun c => !isPlain c || c = '(' || c = ')') (by decide) (by decide) (by decide)
  refine Fragment.of_plain (fun c hc => ?_) (noHyphens_of_numeral hn)
  simpa [and_assoc] using hplain c hc

theorem fragment_literal {v : Literal} (h : v.WellFormed) : Fragment v.sql := by
  cases v with
  | number digits =>
    rcases h with h | ⟨-, h⟩
    · exact fragment_plainNumber h
    · exact Fragment.of_isDigit h
  | text content => exact Fragment.quoted (Within.doubled content)
  | boolean value => cases value <;> decide

/-! ### Windows of time -/

theorem quote_not_mem_quantity (amount : Nat) (unit : TimeUnit) :
    '\'' ∉ (Dialect.quantity amount unit).toList := by
  simp only [Dialect.quantity, String.toList_append, List.mem_append, not_or]
  refine ⟨⟨⟨fun hc => ?_, by decide⟩, ?_⟩, ?_⟩
  · exact absurd (isDigit_of_mem_toString hc) (by decide)
  · cases unit <;> decide
  · split <;> decide

theorem within_quantity (amount : Nat) (unit : TimeUnit) : Within (Dialect.quantity amount unit).toList :=
  Within.of_not_mem (quote_not_mem_quantity amount unit)

/-- A literal whose quotes belong to the texts around it. -/
theorem Fragment.around {a b s : String} (ha : Fragment a) (hb : Fragment b) (hs : Within s.toList) :
    Fragment (a ++ "'" ++ s ++ ("'" ++ b)) := by
  have h := (ha.append (Fragment.quoted hs)).append hb
  simpa only [String.append_assoc] using h

theorem fragment_ago (amount : Nat) (unit : TimeUnit) : Fragment (d.ago amount unit) := by
  have hq := within_quantity amount unit
  cases d with
  | postgres => exact Fragment.around (a := "NOW() - INTERVAL ") (b := "") (by decide) (by decide) hq
  | mysql =>
    have hu : Fragment (Dialect.upperUnit unit) := by cases unit <;> decide
    have hn := fragment_nat amount
    have hi : Fragment "NOW() - INTERVAL " := by decide
    have hs : Fragment " " := by decide
    exact ((hi.append hn).append hs).append hu
  | sqlite =>
    have hp : Within ("-" ++ Dialect.quantity amount unit).toList := by
      rw [String.toList_append]
      exact (Within.of_not_mem (by decide)).append hq
    have harguments := Fragment.around (a := "'now', ") (b := "") (by decide) (by decide) hp
    have hcall : Fragment "datetime" := by decide
    have heq (q : String) : "datetime('now', '-" ++ q ++ "')" =
        "datetime" ++ ("(" ++ ("'now', " ++ "'" ++ ("-" ++ q) ++ ("'" ++ "")) ++ ")") := by
      refine String.toList_inj.mp ?_
      simp
    change Fragment ("datetime('now', '-" ++ Dialect.quantity amount unit ++ "')")
    rw [heq]
    exact hcall.append harguments.parenthesized

theorem fragment_recency {c : String} (hc : IsName c.toList) (w : TimeWindow) :
    Fragment (d.recency c w) := by
  have hcol := Fragment.of_isName hc
  have hge : Fragment " >= " := by decide
  have htoday : Fragment d.startOfToday := by cases d <;> decide
  cases w with
  | today => exact (hcol.append hge).append htoday
  | yesterday =>
    have hyesterday : Fragment d.startOfYesterday := by cases d <;> decide
    have hand : Fragment " AND " := by decide
    have hlt : Fragment " < " := by decide
    exact (((((hcol.append hge).append hyesterday).append hand).append hcol).append hlt).append htoday
  | last amount unit => exact (hcol.append hge).append (fragment_ago amount unit)

/-! ### Filters -/

mutual

theorem fragment_predicate :
    ∀ {p : Predicate}, p.Each (fun q => Fragment (q.sql d)) → Fragment (p.sql d)
  | .group _, h => (fragment_chain h).parenthesized
  | .compare .., h => h
  | .like .., h => h
  | .isNull .., h => h
  | .recency .., h => h

theorem fragment_chain : ∀ {f : List (Connective × Predicate)},
    Filter.Each (fun q => Fragment (q.sql d)) f → Fragment (chainSql d f)
  | [], _ => Fragment.empty
  | _ :: _, h => (fragment_predicate h.1).append (fragment_rest h.2)

theorem fragment_rest : ∀ {f : List (Connective × Predicate)},
    Filter.Each (fun q => Fragment (q.sql d)) f → Fragment (restSql d f)
  | [], _ => Fragment.empty
  | (c, _) :: _, h => by
    have hc : Fragment c.sql := by cases c <;> decide
    exact (hc.append (fragment_predicate h.1)).append (fragment_rest h.2)

end

theorem fragment_where {f : Filter} (h : Filter.Each (fun q => Fragment (q.sql d)) f) :
    Fragment (whereSql d f) := by
  have hw : Fragment " WHERE " := by decide
  simp only [whereSql]
  split
  · decide
  · exact hw.append (fragment_chain h)

/-! ### Statements -/

/-- Whatever dates the rows of a table is a name. -/
def NamesDates (t : Interpreter) (schema : Schema) : Prop :=
  (∀ e ∈ t.timestamps, IsName e.2.toList) ∧
    ∀ table c, schema.timestampColumn? table = some c → IsName c.toList

variable {t : Interpreter} {s : Subject}

theorem isName_of_timestampColumn? (h : NamesDates t s.schema) {c : String}
    (hc : t.timestampColumn? s = some c) : IsName c.toList := by
  have hcreated : IsName "created_at".toList := ⟨'c', _, rfl, by decide, by decide⟩
  simp only [Interpreter.timestampColumn?] at hc
  split at hc
  · next c' hl =>
    cases hc
    obtain ⟨before, after, hm, -⟩ := List.lookup_eq_some_iff.mp hl
    exact h.1 (Interpreter.lowerKey s.table, c) (by simp [hm])
  · split at hc
    · exact h.2 _ c hc
    · cases hc
      exact hcreated

theorem fragment_sourced (h : NamesDates t s.schema) {p : Predicate} (hp : Sourced t s p) :
    Fragment (p.sql d) := by
  cases p with
  | compare c op v =>
    have hc := Fragment.of_isName hp.1.isName
    have hs : Fragment " " := by decide
    have hop : Fragment op.sql := by cases op <;> decide
    exact (((hc.append hs).append hop).append hs).append (fragment_literal hp.2)
  | like c mode pattern =>
    have hc := Fragment.of_isName (Subject.Names.isName hp)
    have hl : Fragment " LIKE " := by decide
    have h := hc.append (hl.around (b := "") (by decide) (Within.like mode pattern))
    have heq (m : String) : c ++ " LIKE '" ++ m ++ "'" = c ++ (" LIKE " ++ "'" ++ m ++ ("'" ++ "")) := by
      refine String.toList_inj.mp ?_
      simp
    change Fragment (c ++ " LIKE '" ++ mode.sql pattern ++ "'")
    rw [heq]
    exact h
  | isNull c negated =>
    have hc := Fragment.of_isName (Subject.Names.isName hp)
    have his : Fragment " IS " := by decide
    have hn : Fragment (if negated then "NOT " else "") := by cases negated <;> decide
    have hnull : Fragment "NULL" := by decide
    exact ((hc.append his).append hn).append hnull
  | recency c w => exact fragment_recency (isName_of_timestampColumn? h hp) w
  | group terms => exact hp.elim

theorem each_fragment (h : NamesDates t s.schema) {f : Filter} (hf : Filter.Each (Sourced t s) f) :
    Filter.Each (fun q => Fragment (q.sql d)) f :=
  hf.mono fun _ => fragment_sourced h

theorem isName_of_orders (h : NamesDates t s.schema) {c : String} (hc : Orders t s c) :
    IsName c.toList := by
  have hcount : IsName "count".toList := ⟨'c', _, rfl, by decide, by decide⟩
  rcases hc with hc | hc | rfl
  · exact hc.isName
  · exact isName_of_timestampColumn? h hc
  · exact hcount

theorem fragment_clauses (h : NamesDates t s.schema) {c : ReadClauses} (hc : SourcedClauses t s c) :
    Fragment (c.sql d) := by
  obtain ⟨filter, groupBy, orderBy, limit⟩ := c
  obtain ⟨hf, hg, ho⟩ := hc
  refine (((fragment_where (each_fragment h hf)).append ?_).append ?_).append ?_
  · cases groupBy with
    | none => exact Fragment.empty
    | some column =>
      have hk : Fragment " GROUP BY " := by decide
      exact hk.append (Fragment.of_isName (hg column rfl).isName)
  · cases orderBy with
    | none => exact Fragment.empty
    | some o =>
      have hk : Fragment " ORDER BY " := by decide
      have hd : Fragment (if o.descending then " DESC" else " ASC") := by cases o.descending <;> decide
      exact (hk.append (Fragment.of_isName (isName_of_orders h (ho o rfl)))).append hd
  · cases limit with
    | none => exact Fragment.empty
    | some n =>
      have hk : Fragment " LIMIT " := by decide
      exact hk.append (fragment_nat n)

theorem fragment_commaList {parts : List String} (h : ∀ p ∈ parts, Fragment p) :
    Fragment (commaList parts) :=
  Fragment.intercalate (by decide) h

theorem fragment_projection {groupBy : Option String} {columns : List String}
    (hg : ∀ c, groupBy = some c → s.Names c) (hc : ∀ c ∈ columns, s.Names c) :
    Fragment (Intent.projection groupBy columns) := by
  have hall : Fragment "*" := by decide
  have hcolumns := fragment_commaList fun c hm => Fragment.of_isName (hc c hm).isName
  cases groupBy with
  | none =>
    cases columns with
    | nil => exact hall
    | cons c columns => exact hcolumns
  | some column =>
    cases columns with
    | nil => exact Fragment.of_isName (hg column rfl).isName
    | cons c columns => exact hcolumns

theorem fragment_countProjection {groupBy : Option String} (hg : ∀ c, groupBy = some c → s.Names c) :
    Fragment (Intent.countProjection groupBy) := by
  cases groupBy with
  | none =>
    change Fragment "COUNT(*) as count"
    decide
  | some column =>
    have hk : Fragment ", COUNT(*) as count" := by decide
    exact (Fragment.of_isName (hg column rfl).isName).append hk

theorem isName_of_assigns {a : Assignment} (h : s.Assigns a) : IsName a.column.toList := by
  obtain ⟨w, hw, -, hr⟩ := h.column
  exact Subject.Names.isName ⟨w, hw, hr⟩

theorem fragment_assignment {a : Assignment} (h : s.Assigns a) : Fragment a.sql := by
  have heq : Fragment " = " := by decide
  exact ((Fragment.of_isName (isName_of_assigns h)).append heq).append (fragment_literal h.value)

theorem fragment_insertList {values : List Assignment} (h : ∀ a ∈ values, s.Assigns a) :
    Fragment (Intent.insertList values) := by
  cases values with
  | nil =>
    change Fragment "(columns) VALUES (values)"
    decide
  | cons a values =>
    have hcolumns : Fragment (commaList ((a :: values).map (·.column))) :=
      fragment_commaList (List.forall_mem_map.mpr fun b hb => Fragment.of_isName (isName_of_assigns (h b hb)))
    have hliterals : Fragment (commaList ((a :: values).map (·.value.sql))) :=
      fragment_commaList (List.forall_mem_map.mpr fun b hb => fragment_literal (h b hb).value)
    have hkey : Fragment " VALUES " := by decide
    have heq (names literals : String) : "(" ++ names ++ ") VALUES (" ++ literals ++ ")" =
        "(" ++ names ++ ")" ++ (" VALUES " ++ ("(" ++ literals ++ ")")) := by
      refine String.toList_inj.mp ?_
      simp
    rw [Intent.insertList, heq]
    · exact hcolumns.parenthesized.append (hkey.append hliterals.parenthesized)
    · exact List.cons_ne_nil a values

theorem fragment_setList {assignments : List Assignment} (h : ∀ a ∈ assignments, s.Assigns a) :
    Fragment (Intent.setList assignments) := by
  rw [Intent.setList]
  split
  · decide
  · exact fragment_commaList (List.forall_mem_map.mpr fun a ha => fragment_assignment (h a ha))

theorem fragment_intent (h : NamesDates t s.schema) (htable : IsName s.table.toList) {i : Intent}
    (hi : SourcedIntent t s i) : Fragment (i.sql d) := by
  have ht := Fragment.of_isName htable
  cases i with
  | select table columns clauses =>
    obtain ⟨rfl, hcolumns, hclauses⟩ := hi
    have hselect : Fragment "SELECT " := by decide
    have hfrom : Fragment " FROM " := by decide
    have hp := fragment_projection hclauses.groupBy hcolumns
    exact (((hselect.append hp).append hfrom).append ht).append (fragment_clauses h hclauses)
  | count table clauses =>
    obtain ⟨rfl, hclauses⟩ := hi
    have hselect : Fragment "SELECT " := by decide
    have hfrom : Fragment " FROM " := by decide
    have hp := fragment_countProjection hclauses.groupBy
    exact (((hselect.append hp).append hfrom).append ht).append (fragment_clauses h hclauses)
  | insert table values =>
    obtain ⟨rfl, hvalues⟩ := hi
    have hinsert : Fragment "INSERT INTO " := by decide
    have hspace : Fragment " " := by decide
    have hsql : Intent.sql d (.insert s.table values) =
        "INSERT INTO " ++ s.table ++ " " ++ Intent.insertList values := by
      refine String.toList_inj.mp ?_
      rw [Intent.toList_sql_insert]
      simp
    rw [hsql]
    exact ((hinsert.append ht).append hspace).append (fragment_insertList hvalues)
  | update table assignments filter =>
    obtain ⟨rfl, hassign, hf⟩ := hi
    have hupdate : Fragment "UPDATE " := by decide
    have hset : Fragment " SET " := by decide
    have hvalues := fragment_setList hassign
    exact (((hupdate.append ht).append hset).append hvalues).append (fragment_where (each_fragment h hf))
  | delete table filter =>
    obtain ⟨rfl, hf⟩ := hi
    have hdelete : Fragment "DELETE FROM " := by decide
    exact (hdelete.append ht).append (fragment_where (each_fragment h hf))

/-- Nothing in a request breaks out of the SQL that is written for it: every literal is closed, and
what stands outside the literals is harmless. -/
theorem interpret_contained (text : String) (schema : Schema) (h : NamesDates t schema)
    {i : Interpretation} (hi : t.interpret text schema = .ok i) :
    ∃ rest, bare? i.sql.toList = some rest ∧ Contained rest := by
  have hg := Interpreter.grounded_of_interpret hi
  have hf : Fragment i.sql := by
    rw [hg.sql]
    exact fragment_intent (s := ⟨schema, i.table, i.known⟩) h hg.table hg.intent
  exact ⟨_, bare?_of_closed hf.closed, hf.contained⟩

/-- A table that dates its rows. -/
def datedTable : Schema := ⟨[⟨"t", [.ofType "a" "TEXT", .ofType "seen_at" "DATE"]⟩]⟩

theorem namesDates_datedTable : NamesDates (.ofDialect .sqlite) datedTable := by
  have hseen : IsName "seen_at".toList := ⟨'s', _, rfl, by decide, by decide⟩
  refine ⟨fun e he => (nomatch he), fun table c hc => ?_⟩
  simp only [Schema.timestampColumn?, Option.bind_eq_bind, Option.bind_eq_some_iff] at hc
  obtain ⟨columns, hcolumns, hc⟩ := hc
  obtain ⟨u, hu, rfl⟩ := Schema.columns?_eq_some hcolumns
  rw [List.mem_singleton.mp hu] at hc
  cases hc
  exact hseen

/-- The value of `a` is a quote and a semicolon. -/
theorem interpret_contained_quote : ∃ i,
    (Interpreter.ofDialect .sqlite).interpret "get t where a=\"';\"" datedTable = .ok i ∧
      ∃ rest, bare? i.sql.toList = some rest ∧ Contained rest := by
  have hok : ((Interpreter.ofDialect .sqlite).interpret "get t where a=\"';\"" datedTable).isOk = true := by
    decide +kernel
  cases hi : (Interpreter.ofDialect .sqlite).interpret "get t where a=\"';\"" datedTable with
  | error e =>
    rw [hi] at hok
    cases hok
  | ok i => exact ⟨i, rfl, interpret_contained _ _ namesDates_datedTable hi⟩

end Parlance.Statement
