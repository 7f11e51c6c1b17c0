import Parlance.Proofs.Filter.Reading
import Parlance.Proofs.Filter.Tokens

/-! The SQL of a filter says what the filter says. In every dialect the reader takes the whole text,
and the condition that it reads has the truth of the filter, whatever the truth of the atoms. -/

namespace Parlance

/-! ### What the predicates say -/

/-- What a text that is like the pattern has to be, `%` standing for anything. -/
def LikeMode.content (pattern : String) : LikeMode → String
  | contains => "%" ++ pattern ++ "%"
  | startsWith => pattern ++ "%"
  | endsWith => "%" ++ pattern

theorem LikeMode.quoted_content (mode : LikeMode) (pattern : String) :
    quoted (mode.content pattern) = "'" ++ mode.sql pattern ++ "'" := by
  cases mode <;> simp [content, sql, quoted, doubled, Text.substitute, String.append_assoc]

namespace Dialect

open Where (Operand)

def today : Dialect → Operand
  | postgres => ⟨.name "CURRENT_DATE", none⟩
  | mysql => ⟨.call "CURDATE" [], none⟩
  | sqlite => ⟨.call "date" ["now"], none⟩

def yesterday : Dialect → Operand
  | postgres => ⟨.name "CURRENT_DATE", some (.text "1 day")⟩
  | mysql => ⟨.call "CURDATE" [], some (.units "1" "DAY")⟩
  | sqlite => ⟨.call "date" ["now", "-1 day"], none⟩

def before (amount : Nat) (unit : TimeUnit) : Dialect → Operand
  | postgres => ⟨.call "NOW" [], some (.text (quantity amount unit))⟩
  | mysql => ⟨.call "NOW" [], some (.units (toString amount) (upperUnit unit))⟩
  | sqlite => ⟨.call "datetime" ["now", "-" ++ quantity amount unit], none⟩

/-- The bounds of a window of time, all of which have to hold. -/
def bounds (d : Dialect) : TimeWindow → List (Comparison × Operand)
  | .today => [(.greaterEqual, d.today)]
  | .yesterday => [(.greaterEqual, d.yesterday), (.less, d.today)]
  | .last amount unit => [(.greaterEqual, d.before amount unit)]

end Dialect

namespace Where

open Pattern (IsName)

/-- The truth of a predicate where the atoms have theirs; groups are valued by their terms. -/
def meaning (d : Dialect) (v : Atom → Truth) : Predicate → Truth
  | .compare column op value => v (.compare column op ⟨.literal value, none⟩)
  | .like column mode pattern => v (.like column (mode.content pattern))
  | .isNull column negated => v (.isNull column negated)
  | .recency column window => .all ((d.bounds window).map fun b => v (.compare column b.1 b.2))
  | .group _ => .yes

/-- A name that is no word of the grammar. -/
def IsColumn (column : String) : Prop := IsName column.toList ∧ isReserved column.toList = false

end Where

def Literal.Readable : Literal → Prop
  | number digits => Where.isNumeral digits.toList = true
  | text _ => True
  | boolean _ => True

def Literal.token : Literal → Where.Token
  | number digits => .number digits
  | text content => .text content
  | boolean value => .boolean value

mutual

def Predicate.Readable : Predicate → Prop
  | .compare column _ value => Where.IsColumn column ∧ value.Readable
  | .like column _ _ => Where.IsColumn column
  | .isNull column _ => Where.IsColumn column
  | .recency column _ => Where.IsColumn column
  | .group terms => terms ≠ [] ∧ Filter.Readable terms

def Filter.Readable : List (Connective × Predicate) → Prop
  | [] => True
  | (_, p) :: terms => p.Readable ∧ Filter.Readable terms

end

namespace Where

variable {d : Dialect} {column s t : String} {ts us : List Token} {a b : Meaning} {f : Filter}

/-! ### Operands

A text writes an operand or a condition if its tokens do. -/

theorem Follows.forall {P : List Token → Prop} (nil : P []) (closing : ∀ ts, P (.closing :: ts))
    (and : ∀ ts, P (.and :: ts)) (or : ∀ ts, P (.or :: ts)) (rest : List Token) (h : Follows rest) :
    P rest := by
  cases rest with
  | nil => exact nil
  | cons t rest =>
    rcases h t rfl with rfl | rfl | rfl
    · exact closing rest
    · exact and rest
    · exact or rest

def IsOperand (s : String) (x : Operand) : Prop :=
  ∃ ts, tokens? s.toList = some ts ∧ ∀ rest, Follows rest → operand? (ts ++ rest) = some (x, rest)

theorem tokens?_literal {v : Literal} (h : v.Readable) : tokens? v.sql.toList = some [v.token] := by
  cases v with
  | number digits => exact tokens?_numeral h
  | text content => exact tokens?_quoted content
  | boolean value => cases value <;> decide

theorem isOperand_literal {v : Literal} (h : v.Readable) : IsOperand v.sql ⟨.literal v, none⟩ := by
  refine ⟨[v.token], tokens?_literal h, ?_⟩
  cases v <;> exact Follows.forall rfl (fun _ => rfl) (fun _ => rfl) (fun _ => rfl)

theorem isOperand_startOfToday (d : Dialect) : IsOperand d.startOfToday d.today := by
  cases d with
  | postgres =>
    refine ⟨[.name "CURRENT_DATE"], by decide, Follows.forall rfl ?_ ?_ ?_⟩ <;> exact fun _ => rfl
  | mysql =>
    refine ⟨[.name "CURDATE", .opening, .closing], by decide, Follows.forall rfl ?_ ?_ ?_⟩ <;>
      exact fun _ => rfl
  | sqlite =>
    refine ⟨[.name "date", .opening, .text "now", .closing], by decide,
      Follows.forall rfl ?_ ?_ ?_⟩ <;> exact fun _ => rfl

theorem isOperand_startOfYesterday (d : Dialect) : IsOperand d.startOfYesterday d.yesterday := by
  cases d with
  | postgres =>
    refine ⟨[.name "CURRENT_DATE", .minus, .interval, .text "1 day"], by decide,
      Follows.forall rfl ?_ ?_ ?_⟩ <;> exact fun _ => rfl
  | mysql =>
    refine ⟨[.name "CURDATE", .opening, .closing, .minus, .interval, .number "1", .name "DAY"],
      by decide, Follows.forall rfl ?_ ?_ ?_⟩ <;> exact fun _ => rfl
  | sqlite =>
    refine ⟨[.name "date", .opening, .text "now", .comma, .text "-1 day", .closing], by decide,
      Follows.forall rfl ?_ ?_ ?_⟩ <;> exact fun _ => rfl

theorem quoted_of_not_mem (h : '\'' ∉ s.toList) : quoted s = "'" ++ s ++ "'" := by
  rw [quoted, doubled, Statement.substitute_of_not_mem h, String.ofList_toList]

theorem tokens?_closed (h : tokens? s.toList = some ts) :
    tokens? (s ++ ")").toList = some (ts ++ [.closing]) := by
  rw [String.toList_append]
  exact tokens?_append (b := [')']) h (by decide) (by simp [Ends])

theorem tokens?_spaced (hs : tokens? s.toList = some ts) (ht : tokens? t.toList = some us) :
    tokens? (s ++ (" " ++ t)).toList = some (ts ++ us) := by
  have heq : (s ++ (" " ++ t)).toList = s.toList ++ ' ' :: t.toList := by simp
  rw [heq]
  exact tokens?_append hs (tokens?_space ht) (by simp [Ends])

theorem isOperand_ago (d : Dialect) (amount : Nat) (unit : TimeUnit) :
    IsOperand (d.ago amount unit) (d.before amount unit) := by
  have hq := Statement.quote_not_mem_quantity amount unit
  have hnow : tokens? "NOW() - INTERVAL".toList =
      some [.name "NOW", .opening, .closing, .minus, .interval] := by decide
  cases d with
  | postgres =>
    have heq (q : String) : "NOW() - INTERVAL '" ++ q ++ "'" =
        "NOW() - INTERVAL" ++ (" " ++ ("'" ++ q ++ "'")) := String.toList_inj.mp (by simp)
    have ht := tokens?_spaced hnow (tokens?_quoted (Dialect.quantity amount unit))
    rw [quoted_of_not_mem hq, ← heq] at ht
    refine ⟨_, ht, Follows.forall rfl ?_ ?_ ?_⟩ <;> exact fun _ => rfl
  | mysql =>
    have heq (n u : String) : "NOW() - INTERVAL " ++ n ++ " " ++ u =
        "NOW() - INTERVAL" ++ (" " ++ (n ++ (" " ++ u))) := String.toList_inj.mp (by simp)
    have hunit : tokens? (Dialect.upperUnit unit).toList = some [.name (Dialect.upperUnit unit)] := by
      cases unit <;> decide
    have ht := tokens?_spaced hnow (tokens?_spaced (tokens?_numeral (isNumeral_toString amount)) hunit)
    rw [← heq] at ht
    refine ⟨_, ht, Follows.forall rfl ?_ ?_ ?_⟩ <;> exact fun _ => rfl
  | sqlite =>
    have heq (q : String) : "datetime('now', '-" ++ q ++ "')" =
        "datetime('now'," ++ (" " ++ ("'" ++ ("-" ++ q) ++ "'")) ++ ")" := String.toList_inj.mp (by simp)
    have hcall : tokens? "datetime('now',".toList =
        some [.name "datetime", .opening, .text "now", .comma] := by decide
    have hminus : '\'' ∉ ("-" ++ Dialect.quantity amount unit).toList := by
      rw [String.toList_append]
      exact fun h => (List.mem_append.mp h).elim (by decide) hq
    have ht := tokens?_closed (tokens?_spaced hcall (tokens?_quoted ("-" ++ Dialect.quantity amount unit)))
    rw [quoted_of_not_mem hminus, ← heq] at ht
    refine ⟨_, ht, Follows.forall rfl ?_ ?_ ?_⟩ <;> exact fun _ => rfl

/-! ### Conditions -/

def IsConjunction (s : String) (a : Meaning) : Prop :=
  ∃ ts, tokens? s.toList = some ts ∧ Conjunction ts a

def IsCondition (s : String) (a : Meaning) : Prop :=
  ∃ ts, tokens? s.toList = some ts ∧ Disjunction ts a

theorem tokens?_column (h : IsColumn column) : tokens? column.toList = some [.name column] :=
  tokens?_name h.1 h.2

theorem isConjunction_compare (hc : IsColumn column) (op : Comparison) {x : Operand} (hs : IsOperand s x) :
    IsConjunction (column ++ " " ++ op.sql ++ " " ++ s) fun v => v (.compare column op x) := by
  obtain ⟨ts, hts, hx⟩ := hs
  have hop : tokens? op.sql.toList = some [.operator op] := by cases op <;> decide
  have ht := tokens?_spaced (tokens?_column hc) (tokens?_spaced hop hts)
  refine ⟨.name column :: .operator op :: ts, by simpa [String.append_assoc] using ht, ?_⟩
  exact .one <| Factor.of_atom fun rest hrest => by simp [atom?, hx rest hrest]

theorem isConjunction_like (hc : IsColumn column) (mode : LikeMode) (pattern : String) :
    IsConjunction (column ++ " LIKE '" ++ mode.sql pattern ++ "'")
      fun v => v (.like column (mode.content pattern)) := by
  have heq (m : String) : column ++ " LIKE '" ++ m ++ "'" =
      column ++ (" " ++ ("LIKE" ++ (" " ++ ("'" ++ m ++ "'")))) := String.toList_inj.mp (by simp)
  have hlike : tokens? "LIKE".toList = some [.like] := by decide
  have ht := tokens?_spaced (tokens?_column hc) (tokens?_spaced hlike (tokens?_quoted (mode.content pattern)))
  rw [mode.quoted_content, ← heq] at ht
  exact ⟨_, ht, .one <| Factor.of_atom fun rest _ => rfl⟩

theorem isConjunction_isNull (hc : IsColumn column) (negated : Bool) :
    IsConjunction (column ++ " IS " ++ (if negated then "NOT " else "") ++ "NULL")
      fun v => v (.isNull column negated) := by
  have heq (w : String) : column ++ " IS " ++ w ++ "NULL" = column ++ (" " ++ ("IS " ++ w ++ "NULL")) :=
    String.toList_inj.mp (by simp)
  rw [heq]
  cases negated with
  | true =>
    have hnull : tokens? "IS NOT NULL".toList = some [.is, .not, .null] := by decide
    have ht := tokens?_spaced (tokens?_column hc) hnull
    exact ⟨_, ht, .one <| Factor.of_atom fun rest _ => rfl⟩
  | false =>
    have hnull : tokens? "IS NULL".toList = some [.is, .null] := by decide
    have ht := tokens?_spaced (tokens?_column hc) hnull
    exact ⟨_, ht, .one <| Factor.of_atom fun rest _ => rfl⟩

def connective : Connective → Token
  | .and => .and
  | .or => .or

theorem tokens?_joined (c : Connective) (hs : tokens? s.toList = some ts) (ht : tokens? t.toList = some us) :
    tokens? (s ++ c.sql ++ t).toList = some (ts ++ connective c :: us) := by
  have hc : ∃ w, c.sql = " " ++ w ++ " " ∧ tokens? w.toList = some [connective c] := by
    cases c with
    | and => exact ⟨"AND", by decide, by decide⟩
    | or => exact ⟨"OR", by decide, by decide⟩
  obtain ⟨w, hw, hc⟩ := hc
  rw [hw]
  simpa [String.append_assoc] using tokens?_spaced hs (tokens?_spaced hc ht)

theorem IsConjunction.and (hs : IsConjunction s a) (ht : IsConjunction t b) :
    IsConjunction (s ++ Connective.and.sql ++ t) fun v => (a v).and (b v) := by
  obtain ⟨ts, hts, ha⟩ := hs
  obtain ⟨us, hus, hb⟩ := ht
  exact ⟨_, tokens?_joined .and hts hus, ha.append hb⟩

theorem IsConjunction.or (hs : IsConjunction s a) (ht : IsCondition t b) :
    IsCondition (s ++ Connective.or.sql ++ t) fun v => (a v).or (b v) := by
  obtain ⟨ts, hts, ha⟩ := hs
  obtain ⟨us, hus, hb⟩ := ht
  exact ⟨_, tokens?_joined .or hts hus, .more ha hb⟩

theorem IsCondition.parenthesized (h : IsCondition s a) : IsConjunction ("(" ++ s ++ ")") a := by
  obtain ⟨ts, hts, ha⟩ := h
  have heq : ("(" ++ s ++ ")").toList = '(' :: (s ++ ")").toList := by simp
  refine ⟨_, ?_, .one (Factor.parenthesized ha)⟩
  rw [heq]
  exact tokens?_cons (by decide) rfl (tokens?_closed hts)

theorem isConjunction_bound (hc : IsColumn column) {op : Comparison} {between : String}
    (hb : " " ++ op.sql ++ " " = between) {x : Operand} (hs : IsOperand s x) :
    IsConjunction (column ++ between ++ s) fun v => v (.compare column op x) := by
  subst hb
  simpa [String.append_assoc] using isConjunction_compare hc op hs

theorem isConjunction_recency (hc : IsColumn column) (d : Dialect) (window : TimeWindow) :
    IsConjunction (d.recency column window) fun v => meaning d v (.recency column window) := by
  have hge : " " ++ Comparison.greaterEqual.sql ++ " " = " >= " := by decide
  have hlt : " " ++ Comparison.less.sql ++ " " = " < " := by decide
  have htoday := isOperand_startOfToday d
  cases window <;> simp only [meaning, Dialect.bounds, List.map_cons, List.map_nil, Truth.all_cons,
    Truth.all_nil, Truth.and_yes]
  case today => exact isConjunction_bound hc hge htoday
  case last amount unit => exact isConjunction_bound hc hge (isOperand_ago d amount unit)
  case yesterday =>
    -- A conjunction without parentheses: AND binds the two bounds before an OR beside them is read.
    have hlower := isConjunction_bound hc hge (isOperand_startOfYesterday d)
    have hupper := isConjunction_bound hc hlt htoday
    have heq (l between r : String) : l ++ Connective.and.sql ++ (column ++ between ++ r) =
        l ++ Connective.and.sql ++ column ++ between ++ r := by simp [String.append_assoc]
    have h := hlower.and hupper
    rw [heq] at h
    exact h

/-! ### Filters -/

/-- What stands behind a conjunction goes on with it or begins another one. -/
theorem isCondition_behind (hs : IsConjunction s a)
    (hf : ∀ t ∈ f, IsConjunction (t.2.sql d) fun v => t.2.value (meaning d v)) :
    IsCondition (s ++ restSql d f) fun v => Filter.valueBehind (meaning d v) (a v) f := by
  induction f generalizing s a with
  | nil =>
    obtain ⟨ts, hts, ha⟩ := hs
    exact ⟨ts, by simpa [restSql] using hts, .one ha⟩
  | cons t f ih =>
    obtain ⟨c, p⟩ := t
    obtain ⟨hp, hrest⟩ := List.forall_mem_cons.mp hf
    have heq : s ++ restSql d ((c, p) :: f) = s ++ c.sql ++ (p.sql d ++ restSql d f) := by
      simp [restSql, String.append_assoc]
    rw [heq]
    cases c with
    | and =>
      -- The conjunction read so far grows; behind an OR a new one begins.
      rw [← String.append_assoc]
      exact ih (hs.and hp) hrest
    | or => exact hs.or (ih hp hrest)

theorem isCondition_chain (hne : f ≠ [])
    (hf : ∀ t ∈ f, IsConjunction (t.2.sql d) fun v => t.2.value (meaning d v)) :
    IsCondition (chainSql d f) fun v => Filter.value (meaning d v) f := by
  cases f with
  | nil => exact absurd rfl hne
  | cons t f =>
    obtain ⟨hp, hf⟩ := List.forall_mem_cons.mp hf
    exact isCondition_behind hp hf

mutual

theorem isConjunction_predicate (d : Dialect) : ∀ {p : Predicate}, p.Readable →
    IsConjunction (p.sql d) fun v => p.value (meaning d v)
  | .compare _ op _, h => isConjunction_compare h.1 op (isOperand_literal h.2)
  | .like _ mode pattern, h => isConjunction_like h mode pattern
  | .isNull _ negated, h => isConjunction_isNull h negated
  | .recency _ window, h => isConjunction_recency h d window
  | .group _, h => (isCondition_chain h.1 (isConjunction_terms d h.2)).parenthesized

theorem isConjunction_terms (d : Dialect) : ∀ {f : List (Connective × Predicate)}, Filter.Readable f →
    ∀ t ∈ f, IsConjunction (t.2.sql d) fun v => t.2.value (meaning d v)
  | [], _ => fun _ ht => nomatch ht
  | _ :: _, h => List.forall_mem_cons.mpr ⟨isConjunction_predicate d h.1, isConjunction_terms d h.2⟩

end

theorem isCondition_filter (d : Dialect) (hne : f ≠ []) (h : Filter.Readable f) :
    IsCondition (chainSql d f) fun v => Filter.value (meaning d v) f :=
  isCondition_chain hne (isConjunction_terms d h)

/-- A lone group that may stand in parentheses may also stand without. -/
theorem readable_flattened (hne : f ≠ []) (h : Filter.Readable f) :
    f.flattened ≠ [] ∧ Filter.Readable f.flattened := by
  unfold Filter.flattened
  split
  · exact h.1
  · exact ⟨hne, h⟩

/-- The text of a filter is read to its end, with or without the parentheses around a lone group, and
the condition read has the truth of the filter under every valuation of its atoms. -/
theorem read?_chainSql (d : Dialect) (f : Filter) (hne : f ≠ []) (h : Filter.Readable f) :
    ∃ e e', read? (chainSql d f).toList = some e ∧ read? (chainSql d f.flattened).toList = some e' ∧
      ∀ v, e.value v = Filter.value (meaning d v) f ∧ e'.value v = Filter.value (meaning d v) f ∧
        Filter.value (meaning d v) f.flattened = Filter.value (meaning d v) f := by
  obtain ⟨hne', h'⟩ := readable_flattened hne h
  obtain ⟨ts, hts, hd⟩ := isCondition_filter d hne h
  obtain ⟨ts', hts', hd'⟩ := isCondition_filter d hne' h'
  obtain ⟨e, he, hv⟩ := read?_of_disjunction hts hd
  obtain ⟨e', he', hv'⟩ := read?_of_disjunction hts' hd'
  refine ⟨e, e', he, he', fun v => ?_⟩
  have hflat := Filter.value_flattened (meaning d v) f
  exact ⟨hv v, (hv' v).trans hflat, hflat⟩

/-- Yesterday's two bounds stay together in front of an OR, and a quoted text may look like SQL. -/
def nestedConditions : Filter := [(.and, .group [
  (.and, .recency "created_at" .yesterday),
  (.or, .compare "name" .notEqual (.text "O'Hara (AND 50%)")),
  (.and, .group [(.and, .like "note" .contains "it's"), (.or, .compare "total" .less (.number "-2.5"))])])]

theorem read?_nestedConditions : nestedConditions ≠ [] ∧ Filter.Readable nestedConditions ∧
    ∃ e e', read? (chainSql .sqlite nestedConditions).toList = some e ∧
      read? (chainSql .sqlite nestedConditions.flattened).toList = some e' ∧
      ∀ v, e.value v = Filter.value (meaning .sqlite v) nestedConditions ∧
        e'.value v = Filter.value (meaning .sqlite v) nestedConditions ∧
        Filter.value (meaning .sqlite v) nestedConditions.flattened =
          Filter.value (meaning .sqlite v) nestedConditions := by
  have hne : nestedConditions ≠ [] := by simp [nestedConditions]
  have hcreated : IsColumn "created_at" := ⟨⟨'c', _, rfl, by decide, by decide⟩, by decide⟩
  have hname : IsColumn "name" := ⟨⟨'n', _, rfl, by decide, by decide⟩, by decide⟩
  have hnote : IsColumn "note" := ⟨⟨'n', _, rfl, by decide, by decide⟩, by decide⟩
  have htotal : IsColumn "total" := ⟨⟨'t', _, rfl, by decide, by decide⟩, by decide⟩
  have hnumber : isNumeral "-2.5".toList = true := by decide
  have hinner : Predicate.Readable (.group [(.and, .like "note" .contains "it's"),
      (.or, .compare "total" .less (.number "-2.5"))]) :=
    ⟨by simp, hnote, ⟨htotal, hnumber⟩, trivial⟩
  have h : Filter.Readable nestedConditions :=
    ⟨⟨by simp, hcreated, ⟨hname, trivial⟩, hinner, trivial⟩, trivial⟩
  exact ⟨hne, h, read?_chainSql .sqlite nestedConditions hne h⟩

end Where

end Parlance
