import Parlance.Engine.Statement
import Parlance.Proofs.Interpretation.Grounded
import Parlance.Proofs.Statement.Template
import Parlance.Proofs.Validation.Destructive
import Parlance.Sqlite.Engine

/-! Which statements are run for their rows. That is judged from the text alone: a statement is, if it
begins as a SELECT or holds the word RETURNING. A write that was interpreted holds no word but
keywords, the names that it is about and what its values hold. -/

namespace Parlance

/-! ### Parts of a write -/

/-- What a literal holds. -/
def Literal.Holds (value : List Char → Prop) : Literal → Prop
  | number s | text s => value s.toList
  | boolean _ => True

/-- The column of a predicate, and what it is compared with. -/
def Predicate.Holds (name value : List Char → Prop) : Predicate → Prop
  | compare column _ l => name column.toList ∧ l.Holds value
  | like column _ pattern => name column.toList ∧ value pattern.toList
  | isNull column _ | recency column _ => name column.toList
  | group _ => True

def Intent.assignments : Intent → List Assignment
  | insert _ values | update _ values _ => values
  | select .. | count .. | delete .. => []

/-- The names that a write is about, and what its values hold. -/
structure Intent.Holds (name value : List Char → Prop) (i : Intent) : Prop where
  table : name i.table.toList
  assignments : ∀ a ∈ i.assignments, name a.column.toList ∧ a.value.Holds value
  filter : Filter.Each (Predicate.Holds name value) i.filter

theorem Predicate.holds_iff {name value : List Char → Prop} {p : Predicate} :
    p.Holds name value ↔ (p.Holds name fun _ => True) ∧ p.Holds (fun _ => True) value := by
  cases p with
  | compare column op l => cases l <;> simp [Predicate.Holds, Literal.Holds]
  | _ => simp [Predicate.Holds]

/-- Names and values can be looked at one after the other. -/
theorem Intent.holds_iff {name value : List Char → Prop} {i : Intent} :
    i.Holds name value ↔ (i.Holds name fun _ => True) ∧ i.Holds (fun _ => True) value := by
  have htrue (l : Literal) : l.Holds fun _ => True := by cases l <;> trivial
  constructor
  · intro h
    exact ⟨⟨h.table, fun a ha => ⟨(h.assignments a ha).1, htrue a.value⟩,
        h.filter.mono fun p hp => (Predicate.holds_iff.mp hp).1⟩,
      ⟨trivial, fun a ha => ⟨trivial, (h.assignments a ha).2⟩,
        h.filter.mono fun p hp => (Predicate.holds_iff.mp hp).2⟩⟩
  · rintro ⟨hn, hv⟩
    exact ⟨hn.table, fun a ha => ⟨(hn.assignments a ha).1, (hv.assignments a ha).2⟩,
      (hn.filter.and hv.filter).mono fun p hp => Predicate.holds_iff.mpr hp⟩

namespace Statement

open Text (hasWord isWord isBlank sameWord trim trimStart upper upperChar asciiLower words)
open Validation (Quotation)

/-! ### Texts -/

theorem returnsRows_eq (cs : List Char) : returnsRows cs = (isSelect cs || hasWord "returning" cs) := by
  have hword : returning = Validation.wholeWord "returning" := rfl
  rw [returnsRows, hword, Validation.holds_wholeWord (by decide) (by decide)]

/-- The longest run of word characters that a statement begins with, blanks apart. -/
def leadingWord (cs : List Char) : List Char := (trimStart cs).takeWhile isWord

theorem upper_of_sameWord {m w : List Char} (hw : ∀ l ∈ w, l.toNat < 128) (h : sameWord m w = true) :
    upper m = upper w := by
  have hlower : m.map Char.toLower = w.map Char.toLower := by simpa [sameWord, asciiLower] using h
  have hascii : ∀ c ∈ m, c.toNat < 128 := by
    intro c hc
    obtain ⟨l, hl, he⟩ := List.mem_map.mp (hlower ▸ List.mem_map_of_mem hc : c.toLower ∈ w.map Char.toLower)
    have hl' := Text.forall_ascii (P := fun l => l.toLower.toNat < 128) (by decide) (hw l hl)
    refine Classical.byContradiction fun hn => hn ?_
    rwa [he, Text.toLower_of_not_ascii (Nat.le_of_not_lt hn)] at hl'
  have hback {cs : List Char} (hcs : ∀ c ∈ cs, c.toNat < 128) :
      upper cs = (cs.map Char.toLower).map Char.toUpper := by
    rw [Text.upper_ascii hcs, List.map_map]
    refine List.map_congr_left fun c hc => ?_
    exact Text.forall_ascii (P := fun c => c.toUpper = (Char.toUpper ∘ Char.toLower) c) (by decide) (hcs c hc)
  rw [hback hascii, hback hw, hlower]

theorem isSelect_of_leadingWord {cs : List Char} (h : sameWord (leadingWord cs) "select".toList = true) :
    isSelect cs = true := by
  obtain ⟨es, hes, hblank⟩ := Text.dropEndWhile_append isBlank (trimStart cs)
  have hlead : leadingWord cs = (trim cs).takeWhile isWord := by
    rw [leadingWord, hes]
    exact Validation.takeWhile_append_of_forall (fun c hc => Text.isWord_of_isBlank (hblank c hc)) _
  have hsplit : leadingWord cs ++ (trim cs).dropWhile isWord = trim cs := by
    rw [hlead, List.takeWhile_append_dropWhile]
  have hupper : upper (leadingWord cs) = "SELECT".toList := upper_of_sameWord (by decide) h
  rw [isSelect, ← hsplit, Text.upper_append, hupper]
  exact List.isPrefixOf_iff_prefix.mpr (List.prefix_append _ _)

/-- The statement with spaces for all that stands between quotation marks, and for the marks. -/
def unquotedFrom : Option Char → List Char → List Char
  | _, [] => []
  | some close, c :: cs => ' ' :: unquotedFrom (if c = close then none else some close) cs
  | none, c :: cs =>
    match Quotation.all.lookup c with
    | some close => ' ' :: unquotedFrom (some close) cs
    | none => c :: unquotedFrom none cs

def unquoted (cs : List Char) : List Char := unquotedFrom none cs

/-- No quotation mark is part of a word. -/
theorem isWord_mark {c close : Char} (h : Quotation.all.lookup c = some close) :
    isWord c = false ∧ isWord close = false := by
  have hall : ∀ p ∈ Quotation.all, isWord p.1 = false ∧ isWord p.2 = false := by decide
  obtain ⟨before, after, hmem, -⟩ := List.lookup_eq_some_iff.mp h
  exact hall (c, close) (by simp [hmem])

variable {w : String}

/-- Blanking quoted text out makes no words: the marks at its ends are no part of any. -/
theorem hasWord_of_unquotedFrom (hw : w ≠ "") (cs : List Char) :
    (∀ u, hasWord w (u ++ unquotedFrom none cs) = true → hasWord w (u ++ cs) = true) ∧
    ∀ close, isWord close = false → hasWord w (unquotedFrom (some close) cs) = true →
      ∀ u, hasWord w (u ++ cs) = true := by
  have hspace (cs : List Char) : hasWord w (' ' :: cs) = hasWord w cs :=
    Text.hasWord_cons (by decide) cs (Text.hasWord_nil hw)
  induction cs with
  | nil =>
    refine ⟨fun u h => h, fun close _ h => ?_⟩
    rw [unquotedFrom, Text.hasWord_nil hw] at h
    cases h
  | cons c cs ih =>
    obtain ⟨hopen, hquoted⟩ := ih
    constructor
    · intro u h
      unfold unquotedFrom at h
      split at h
      · next close hmark =>
        obtain ⟨hc, hclose⟩ := isWord_mark hmark
        rw [Text.hasWord_append (by decide), Bool.or_eq_true] at h
        rw [Text.hasWord_append hc, Bool.or_eq_true]
        exact h.imp id fun h => hquoted close hclose h []
      · have hrest := hopen (u ++ [c])
        rw [List.append_assoc, List.append_assoc, List.singleton_append, List.singleton_append] at hrest
        exact hrest h
    · intro close hclose h u
      rw [unquotedFrom, hspace] at h
      split at h
      · next hc =>
        have hrest : hasWord w cs = true := hopen [] h
        rw [hc, Text.hasWord_append hclose, hrest, Bool.or_true]
      · have hrest := hquoted close hclose h (u ++ [c])
        rwa [List.append_assoc, List.singleton_append] at hrest

theorem hasWord_of_unquoted (hw : w ≠ "") {cs : List Char} (h : hasWord w (unquoted cs) = true) :
    hasWord w cs = true :=
  (hasWord_of_unquotedFrom hw cs).1 [] h

/-! ### The word in the SQL of a write -/

/-- The word RETURNING is not in the text. -/
abbrev Clear (cs : List Char) : Prop := hasWord "returning" cs = false

namespace Clear

variable {a b cs : List Char}

theorem append_iff {c : Char} (hc : isWord c = false) : Clear (a ++ c :: b) ↔ Clear a ∧ Clear b := by
  rw [Clear, Text.hasWord_append hc, Bool.or_eq_false_iff]

theorem space_iff : Clear (a ++ ' ' :: b) ↔ Clear a ∧ Clear b := append_iff (by decide)

theorem cons_iff {c : Char} (hc : isWord c = false) : Clear (c :: b) ↔ Clear b := by
  rw [Clear, Text.hasWord_cons hc b (Text.hasWord_nil (by decide))]

theorem of_no_letter (h : ∀ c ∈ cs, c.toLower ≠ 'g') : Clear cs := by
  rw [Clear, Bool.eq_false_iff]
  intro hw
  obtain ⟨m, u, v, rfl, hm, -⟩ := Text.hasWord_iff.mp hw
  have hlower : m.map Char.toLower = "returning".toList := by simpa [sameWord, asciiLower] using hm
  obtain ⟨c, hc, hg⟩ := List.mem_map.mp (hlower ▸ (by decide : 'g' ∈ "returning".toList))
  exact h c (by simp [hc]) hg

/-- Doubling a quote adds a character that is no part of a word. -/
theorem substitute_iff (cs : List Char) : Clear (Text.substitute '\'' ['\'', '\''] cs) ↔ Clear cs := by
  suffices h : ∀ u, Clear (u ++ Text.substitute '\'' ['\'', '\''] cs) ↔ Clear (u ++ cs) from h []
  induction cs with
  | nil => exact fun u => Iff.rfl
  | cons c cs ih =>
    intro u
    rw [Text.substitute, List.flatMap_cons, ← Text.substitute]
    split
    · next hc =>
      have hquote : isWord '\'' = false := by decide
      have hrest := ih []
      rw [hc, List.cons_append, List.singleton_append, append_iff hquote, cons_iff hquote, append_iff hquote]
      rw [List.nil_append, List.nil_append] at hrest
      rw [hrest]
    · have hrest := ih (u ++ [c])
      rwa [List.append_assoc, List.append_assoc, List.singleton_append] at hrest

theorem doubled_iff (s : String) : Clear (doubled s).toList ↔ Clear s.toList := by
  rw [doubled, String.toList_ofList]
  exact substitute_iff s.toList

theorem nil : Clear [] := by decide

theorem quoted_iff (s : String) : Clear (quoted s).toList ↔ Clear s.toList := by
  have hs : (quoted s).toList = '\'' :: ((doubled s).toList ++ '\'' :: []) := by simp [quoted]
  have hquote : isWord '\'' = false := by decide
  rw [hs, cons_iff hquote, append_iff hquote, doubled_iff]
  exact and_iff_left nil

theorem like_iff (mode : LikeMode) (s : String) : Clear (mode.sql s).toList ↔ Clear s.toList := by
  have hpercent : isWord '%' = false := by decide
  have hdoubled := doubled_iff s
  cases mode with
  | contains =>
    have hs : (LikeMode.sql s .contains).toList = '%' :: ((doubled s).toList ++ '%' :: []) := by simp [LikeMode.sql]
    rw [hs, cons_iff hpercent, append_iff hpercent, hdoubled]
    exact and_iff_left nil
  | startsWith =>
    have hs : (LikeMode.sql s .startsWith).toList = (doubled s).toList ++ '%' :: [] := by simp [LikeMode.sql]
    rw [hs, append_iff hpercent, hdoubled]
    exact and_iff_left nil
  | endsWith =>
    have hs : (LikeMode.sql s .endsWith).toList = '%' :: (doubled s).toList := by simp [LikeMode.sql]
    rw [hs, cons_iff hpercent, hdoubled]

end Clear

theorem clear_literal (l : Literal) : Clear l.sql.toList ↔ l.Holds Clear := by
  cases l with
  | number digits => exact Iff.rfl
  | text content => exact Clear.quoted_iff content
  | boolean value => cases value <;> exact iff_of_true (by decide) trivial

theorem no_letter_ago (d : Dialect) (amount : Nat) (unit : TimeUnit) :
    ∀ c ∈ (d.ago amount unit).toList, c.toLower ≠ 'g' := by
  have hdigits : ∀ c ∈ (toString amount).toList, c.toLower ≠ 'g' := by
    intro c hc
    rw [Nat.toString_eq_repr, Nat.toList_repr] at hc
    have hdigit := Nat.isDigit_of_mem_toDigits (by decide) (by decide) hc
    have hascii : c.toNat < 128 := Nat.lt_of_le_of_lt (Char.isDigit_iff_toNat.mp hdigit).2 (by decide)
    exact Text.forall_ascii (P := fun c => c.isDigit = true → c.toLower ≠ 'g') (by decide) hascii hdigit
  have hquantity : ∀ c ∈ (Dialect.quantity amount unit).toList, c.toLower ≠ 'g' := by
    have hunit : ∀ c ∈ unit.text.toList, c.toLower ≠ 'g' := by cases unit <;> decide
    have hplural : ∀ c ∈ (if amount = 1 then "" else "s").toList, c.toLower ≠ 'g' := by split <;> decide
    simp only [Dialect.quantity, String.toList_append, List.forall_mem_append]
    exact ⟨⟨⟨hdigits, by decide⟩, hunit⟩, hplural⟩
  cases d with
  | postgres =>
    have hsql : Dialect.ago amount unit .postgres = "NOW() - INTERVAL '" ++ Dialect.quantity amount unit ++ "'" := rfl
    simp only [hsql, String.toList_append, List.forall_mem_append]
    exact ⟨⟨by decide, hquantity⟩, by decide⟩
  | mysql =>
    have hsql : Dialect.ago amount unit .mysql =
      "NOW() - INTERVAL " ++ toString amount ++ " " ++ Dialect.upperUnit unit := rfl
    have hunit : ∀ c ∈ (Dialect.upperUnit unit).toList, c.toLower ≠ 'g' := by cases unit <;> decide
    simp only [hsql, String.toList_append, List.forall_mem_append]
    exact ⟨⟨⟨by decide, hdigits⟩, by decide⟩, hunit⟩
  | sqlite =>
    have hsql : Dialect.ago amount unit .sqlite = "datetime('now', '-" ++ Dialect.quantity amount unit ++ "')" := rfl
    simp only [hsql, String.toList_append, List.forall_mem_append]
    exact ⟨⟨by decide, hquantity⟩, by decide⟩

theorem clear_recency (d : Dialect) (column : String) (w : TimeWindow) :
    Clear (d.recency column w).toList ↔ Clear column.toList := by
  have htoday : Clear (">= " ++ d.startOfToday).toList := by cases d <;> decide
  cases w with
  | today =>
    have hsql : (d.recency column .today).toList = column.toList ++ ' ' :: (">= " ++ d.startOfToday).toList := by
      simp [Dialect.recency]
    rw [hsql, Clear.space_iff]
    exact and_iff_left htoday
  | yesterday =>
    have hyesterday : Clear (">= " ++ d.startOfYesterday ++ " AND").toList := by cases d <;> decide
    have hend : Clear ("< " ++ d.startOfToday).toList := by cases d <;> decide
    have hsql : (d.recency column .yesterday).toList = column.toList ++ ' ' ::
        ((">= " ++ d.startOfYesterday ++ " AND").toList ++ ' ' ::
          (column.toList ++ ' ' :: ("< " ++ d.startOfToday).toList)) := by
      simp [Dialect.recency]
    rw [hsql, Clear.space_iff, Clear.space_iff, Clear.space_iff]
    exact ⟨fun h => h.1, fun h => ⟨h, hyesterday, h, hend⟩⟩
  | last amount unit =>
    have hago : Clear (">= " ++ d.ago amount unit).toList := by
      refine Clear.of_no_letter ?_
      rw [String.toList_append, List.forall_mem_append]
      exact ⟨by decide, no_letter_ago d amount unit⟩
    have hsql : (d.recency column (.last amount unit)).toList =
        column.toList ++ ' ' :: (">= " ++ d.ago amount unit).toList := by
      simp [Dialect.recency]
    rw [hsql, Clear.space_iff]
    exact and_iff_left hago

mutual

theorem clear_predicate (d : Dialect) : ∀ p : Predicate,
    Clear (p.sql d).toList ↔ p.Each (Predicate.Holds Clear Clear)
  | .compare column op value => by
    have hop : Clear op.sql.toList := by cases op <;> decide
    have hsql : (Predicate.sql d (.compare column op value)).toList =
        column.toList ++ ' ' :: (op.sql.toList ++ ' ' :: value.sql.toList) := by
      simp [Predicate.sql]
    rw [hsql, Clear.space_iff, Clear.space_iff, clear_literal]
    exact and_congr_right fun _ => and_iff_right hop
  | .like column mode pattern => by
    have hquote : isWord '\'' = false := by decide
    have hlike : Clear "LIKE ".toList := by decide
    have hsql : (Predicate.sql d (.like column mode pattern)).toList =
        column.toList ++ ' ' :: ("LIKE ".toList ++ '\'' :: ((mode.sql pattern).toList ++ '\'' :: [])) := by
      simp [Predicate.sql]
    rw [hsql, Clear.space_iff, Clear.append_iff hquote, Clear.append_iff hquote, Clear.like_iff]
    exact and_congr_right fun _ => (and_iff_right hlike).trans (and_iff_left Clear.nil)
  | .isNull column negated => by
    have hnull : Clear ("IS " ++ (if negated then "NOT " else "") ++ "NULL").toList := by cases negated <;> decide
    have hsql : (Predicate.sql d (.isNull column negated)).toList =
        column.toList ++ ' ' :: ("IS " ++ (if negated then "NOT " else "") ++ "NULL").toList := by
      simp [Predicate.sql]
    rw [hsql, Clear.space_iff]
    exact and_iff_left hnull
  | .recency column window => clear_recency d column window
  | .group terms => by
    have hopen : isWord '(' = false := by decide
    have hclose : isWord ')' = false := by decide
    have hsql : (Predicate.sql d (.group terms)).toList = '(' :: ((chainSql d terms).toList ++ ')' :: []) := by
      simp [Predicate.sql]
    rw [hsql, Clear.cons_iff hopen, Clear.append_iff hclose, clear_chain d terms]
    exact and_iff_left Clear.nil

theorem clear_chain (d : Dialect) : ∀ terms : List (Connective × Predicate),
    Clear (chainSql d terms).toList ↔ Filter.Each (Predicate.Holds Clear Clear) terms
  | [] => iff_of_true Clear.nil trivial
  | (c, p) :: terms => by
    have hsql : (chainSql d ((c, p) :: terms)).toList = (p.sql d).toList ++ (restSql d terms).toList := by
      simp [chainSql]
    rw [hsql, clear_rest d terms, clear_predicate d p]
    rfl

theorem clear_rest (d : Dialect) : ∀ (terms : List (Connective × Predicate)) {u : List Char},
    Clear (u ++ (restSql d terms).toList) ↔ Clear u ∧ Filter.Each (Predicate.Holds Clear Clear) terms
  | [], u => by simp [restSql, Filter.Each]
  | (c, p) :: terms, u => by
    obtain ⟨k, hk, hclear⟩ : ∃ k, c.sql.toList = ' ' :: (k ++ ' ' :: []) ∧ Clear k := by
      cases c with
      | and => exact ⟨"AND".toList, rfl, by decide⟩
      | or => exact ⟨"OR".toList, rfl, by decide⟩
    have hsql : u ++ (restSql d ((c, p) :: terms)).toList =
        u ++ ' ' :: (k ++ ' ' :: ((p.sql d).toList ++ (restSql d terms).toList)) := by
      simp [restSql, hk]
    rw [hsql, Clear.space_iff, Clear.space_iff, clear_rest d terms, clear_predicate d p]
    exact and_congr_right fun _ => and_iff_right hclear

end

theorem clear_where (d : Dialect) (f : Filter) {u : List Char} :
    Clear (u ++ (whereSql d f).toList) ↔ Clear u ∧ Filter.Each (Predicate.Holds Clear Clear) f := by
  cases f with
  | nil => simp [whereSql, Filter.Each]
  | cons t f =>
    have hwhere : Clear "WHERE".toList := by decide
    have hsql : u ++ (whereSql d (t :: f)).toList =
        u ++ ' ' :: ("WHERE".toList ++ ' ' :: (chainSql d (t :: f)).toList) := by
      simp [whereSql]
    rw [hsql, Clear.space_iff, Clear.space_iff, clear_chain]
    exact and_congr_right fun _ => and_iff_right hwhere

theorem clear_commaList (parts : List String) :
    Clear (commaList parts).toList ↔ ∀ p ∈ parts, Clear p.toList := by
  induction parts with
  | nil => exact iff_of_true Clear.nil (by simp)
  | cons p parts ih =>
    cases parts with
    | nil => simp [commaList]
    | cons q parts =>
      have hsql : (commaList (p :: q :: parts)).toList = p.toList ++ ',' :: ' ' :: (commaList (q :: parts)).toList := by
        simp [commaList, String.intercalate_cons_cons]
      rw [hsql, Clear.append_iff (by decide), Clear.cons_iff (by decide), ih, List.forall_mem_cons (a := p)]

theorem clear_assignment (a : Assignment) :
    Clear a.sql.toList ↔ Clear a.column.toList ∧ a.value.Holds Clear := by
  have hsign : Clear "=".toList := by decide
  have hsql : a.sql.toList = a.column.toList ++ ' ' :: ("=".toList ++ ' ' :: a.value.sql.toList) := by
    simp [Assignment.sql]
  rw [hsql, Clear.space_iff, Clear.space_iff, clear_literal]
  exact and_congr_right fun _ => and_iff_right hsign

/-- The statements that are run for what they change. -/
def writes : List Operation := [.insert, .update, .delete]

theorem clear_insertList (values : List Assignment) :
    Clear (Intent.insertList values).toList ↔ ∀ a ∈ values, Clear a.column.toList ∧ a.value.Holds Clear := by
  cases values with
  | nil => exact iff_of_true (by decide) (by simp)
  | cons a values =>
    have hopen : isWord '(' = false := by decide
    have hclose : isWord ')' = false := by decide
    have hvalues : Clear " VALUES ".toList := by decide
    have hsql : (Intent.insertList (a :: values)).toList = '(' :: ((commaList ((a :: values).map (·.column))).toList ++
        ')' :: (" VALUES ".toList ++ '(' :: ((commaList ((a :: values).map (·.value.sql))).toList ++ ')' :: []))) := by
      simp [Intent.insertList]
    rw [hsql, Clear.cons_iff hopen, Clear.append_iff hclose, Clear.append_iff hopen, Clear.append_iff hclose,
      clear_commaList, clear_commaList, List.forall_mem_map, List.forall_mem_map]
    simp only [clear_literal]
    constructor
    · rintro ⟨hcolumns, -, hliterals, -⟩
      exact fun b hb => ⟨hcolumns b hb, hliterals b hb⟩
    · intro h
      exact ⟨fun b hb => (h b hb).1, hvalues, fun b hb => (h b hb).2, Clear.nil⟩

theorem clear_setList (assignments : List Assignment) : Clear (Intent.setList assignments).toList ↔
    ∀ a ∈ assignments, Clear a.column.toList ∧ a.value.Holds Clear := by
  cases assignments with
  | nil => exact iff_of_true (by decide) (by simp)
  | cons a assignments =>
    rw [Intent.setList, if_neg (by simp), clear_commaList, List.forall_mem_map]
    simp only [clear_assignment]

/-- The SQL of a write has the word where one of its names or values has it. -/
theorem clear_write (d : Dialect) {i : Intent} (h : i.operation ∈ writes) :
    Clear (i.sql d).toList ↔ i.Holds Clear Clear := by
  cases i with
  | select | count => simp [Intent.operation, writes] at h
  | insert table values =>
    have hinsert : Clear "INSERT".toList := by decide
    have hinto : Clear "INTO".toList := by decide
    rw [Intent.toList_sql_insert, Clear.space_iff, Clear.space_iff, Clear.space_iff, clear_insertList]
    constructor
    · rintro ⟨-, -, htable, hvalues⟩
      exact ⟨htable, hvalues, trivial⟩
    · intro h
      exact ⟨hinsert, hinto, h.table, h.assignments⟩
  | update table assignments filter =>
    have hupdate : Clear "UPDATE".toList := by decide
    have hset : Clear "SET".toList := by decide
    rw [Intent.toList_sql_update, clear_where, Clear.space_iff, Clear.space_iff, Clear.space_iff, clear_setList]
    constructor
    · rintro ⟨⟨-, htable, -, hassignments⟩, hfilter⟩
      exact ⟨htable, hassignments, hfilter⟩
    · intro h
      exact ⟨⟨hupdate, h.table, hset, h.assignments⟩, h.filter⟩
  | delete table filter =>
    have hdelete : Clear "DELETE".toList := by decide
    have hfrom : Clear "FROM".toList := by decide
    rw [Intent.toList_sql_delete, clear_where, Clear.space_iff, Clear.space_iff]
    constructor
    · rintro ⟨⟨-, -, htable⟩, hfilter⟩
      exact ⟨htable, by simp [Intent.assignments], hfilter⟩
    · intro h
      exact ⟨⟨hdelete, hfrom, h.table⟩, h.filter⟩

/-! ### Beginnings of writes -/

theorem sql_begins (d : Dialect) {i : Intent} (h : i.operation ∈ writes) :
    ∃ rest, (i.sql d).toList = i.operation.text.toList ++ ' ' :: rest := by
  cases i with
  | select | count => simp [Intent.operation, writes] at h
  | insert table values => exact ⟨_, Intent.toList_sql_insert d table values⟩
  | update table assignments filter =>
    rw [Intent.toList_sql_update, List.append_assoc, List.cons_append]
    exact ⟨_, rfl⟩
  | delete table filter =>
    rw [Intent.toList_sql_delete, List.append_assoc, List.cons_append]
    exact ⟨_, rfl⟩

theorem isSelect_eq_false {c d : Char} (hblank : isBlank c = false) (hupper : upperChar c = [d]) (hd : d ≠ 'S')
    (cs : List Char) : isSelect (c :: cs) = false := by
  obtain ⟨bs, es, hcs, hbs, hes⟩ := Text.trim_append (c :: cs)
  rw [isSelect]
  generalize trim (c :: cs) = x at hcs ⊢
  cases bs with
  | cons b bs =>
    obtain ⟨rfl, -⟩ := List.cons.inj hcs
    rw [hbs c (by simp)] at hblank
    cases hblank
  | nil =>
    cases x with
    | nil => rfl
    | cons y x =>
      obtain ⟨rfl, -⟩ := List.cons.inj hcs
      have hhead : upper (c :: x) = d :: upper x := by rw [upper, List.flatMap_cons, hupper]; rfl
      rw [hhead]
      simp [List.isPrefixOf, Ne.symm hd]

theorem isSelect_write (d : Dialect) {i : Intent} (h : i.operation ∈ writes) :
    isSelect (i.sql d).toList = false := by
  obtain ⟨rest, hsql⟩ := sql_begins d h
  rw [hsql]
  generalize i.operation = o at h
  simp only [writes, List.mem_cons, List.not_mem_nil, or_false] at h
  rcases h with rfl | rfl | rfl
  · exact isSelect_eq_false (c := 'I') (d := 'I') (by decide) (by decide) (by decide) _
  · exact isSelect_eq_false (c := 'U') (d := 'U') (by decide) (by decide) (by decide) _
  · exact isSelect_eq_false (c := 'D') (d := 'D') (by decide) (by decide) (by decide) _

/-- A write is told from its first word. -/
theorem ofStatement?_write (d : Dialect) {i : Intent} (h : i.operation ∈ writes) :
    Operation.ofStatement? (i.sql d).toList = some i.operation := by
  obtain ⟨rest, hsql⟩ := sql_begins d h
  have hall : ∀ o ∈ writes, words o.text.toList = [o.text.toList] ∧
      (Operation.ofText? (String.ofList (upper o.text.toList))).filter (· ≠ .count) = some o := by
    decide
  obtain ⟨hwords, hfirst⟩ := hall i.operation h
  rw [hsql, Operation.ofStatement?, Text.words_append_blank (by decide), hwords]
  exact hfirst

/-! ### The two ways -/

abbrev NamesClear (i : Intent) : Prop := i.Holds Clear fun _ => True
abbrev ValuesClear (i : Intent) : Prop := i.Holds (fun _ => True) Clear

/-- A write whose values lack the word is run for its rows just where a name has it; if none has, what it
changed is told of it. -/
theorem returnsRows_write (d : Dialect) {i : Intent} (h : i.operation ∈ writes) (hvalues : ValuesClear i) :
    (returnsRows (i.sql d).toList = false ↔ NamesClear i) ∧
    (NamesClear i → ∀ db, Sqlite.resultOf (i.sql d).toList db .done =
      .ok (.affected db.changes (if i.operation = .insert then some db.lastRowid else none))) := by
  have hrows : returnsRows (i.sql d).toList = false ↔ NamesClear i := by
    rw [returnsRows_eq, isSelect_write d h, Bool.false_or]
    exact (clear_write d h).trans (Intent.holds_iff.trans (and_iff_left hvalues))
  refine ⟨hrows, fun hnames db => ?_⟩
  rw [Sqlite.resultOf, hrows.mpr hnames, Sqlite.writeResult, ofStatement?_write d h]
  simp

/-- Whatever begins with the word SELECT or has RETURNING outside quotation marks is run for its rows. Unless
RETURNING stands within the marks alone, nothing else is but what goes on from SELECT without a break; so a
write that was interpreted is told of by what it changed. -/
theorem returnsRows_dispatch :
    (∀ cs, sameWord (leadingWord cs) "select".toList = true ∨ hasWord "returning" (unquoted cs) = true →
      returnsRows cs = true) ∧
    (∀ cs, (hasWord "returning" cs = true → hasWord "returning" (unquoted cs) = true) →
      (returnsRows cs = true ↔
        "SELECT".toList <+: upper (trim cs) ∨ hasWord "returning" (unquoted cs) = true)) ∧
    ∀ (t : Interpreter) (text : String) (schema : Schema) (r : Interpretation),
      t.interpret text schema = .ok r → r.intent.operation ∈ writes → ValuesClear r.intent →
      (returnsRows r.sql.toList = false ↔ NamesClear r.intent) ∧
      (NamesClear r.intent → ∀ db, Sqlite.resultOf r.sql.toList db .done =
        .ok (.affected db.changes (if r.intent.operation = .insert then some db.lastRowid else none))) := by
  have hne : "returning" ≠ "" := by decide
  refine ⟨fun cs h => ?_, fun cs hshown => ?_, fun t text schema r hr hwrite hvalues => ?_⟩
  · rw [returnsRows_eq, Bool.or_eq_true]
    exact h.imp isSelect_of_leadingWord (hasWord_of_unquoted hne)
  · rw [returnsRows_eq, Bool.or_eq_true, isSelect, List.isPrefixOf_iff_prefix]
    exact or_congr_right ⟨hshown, hasWord_of_unquoted hne⟩
  · rw [(Interpreter.grounded_of_interpret hr).sql]
    exact returnsRows_write t.dialect hwrite hvalues

/-- A read, a write that returns what it changed beside a quoted text, and a write that was interpreted. -/
theorem returnsRows_dispatch_update :
    returnsRows " Select 1".toList = true ∧
    (returnsRows "DELETE FROM t WHERE a = 'b' returning *".toList = true ↔
      "SELECT".toList <+: upper (trim "DELETE FROM t WHERE a = 'b' returning *".toList) ∨
        hasWord "returning" (unquoted "DELETE FROM t WHERE a = 'b' returning *".toList) = true) ∧
    ∃ r, (Interpreter.ofDialect .sqlite).interpret "change t set x=b" .empty = .ok r ∧
      r.intent.operation ∈ writes ∧ ValuesClear r.intent ∧ NamesClear r.intent ∧
      (returnsRows r.sql.toList = false ↔ NamesClear r.intent) ∧
      ∀ db, Sqlite.resultOf r.sql.toList db .done =
        .ok (.affected db.changes (if r.intent.operation = .insert then some db.lastRowid else none)) := by
  obtain ⟨hrows, hexact, hwrites⟩ := returnsRows_dispatch
  have hok : ((Interpreter.ofDialect .sqlite).interpret "change t set x=b" .empty).toOption.any
      (fun r => decide (r.intent.operation ∈ writes) && !hasWord "returning" r.sql.toList) = true := by
    decide +kernel
  obtain ⟨r, hr, hsql⟩ := exists_ok_of_any hok
  simp only [Bool.and_eq_true, decide_eq_true_eq, Bool.not_eq_true'] at hsql
  rw [(Interpreter.grounded_of_interpret hr).sql, ← Clear, clear_write _ hsql.1, Intent.holds_iff] at hsql
  obtain ⟨hwrite, hnames, hvalues⟩ := hsql
  have hresult := hwrites _ _ _ r hr hwrite hvalues
  exact ⟨hrows _ (.inl (by decide +kernel)), hexact _ (by decide +kernel), r, hr, hwrite, hvalues, hnames,
    hresult.1, hresult.2 hnames⟩

/-- A first word that goes on from SELECT. Whether a statement reads is told from how it begins, so this one
does, though its first word is another. -/
theorem returnsRows_selected : returnsRows "SELECTED".toList = true ∧
    ¬(sameWord (leadingWord "SELECTED".toList) "select".toList = true ∨
      hasWord "returning" (unquoted "SELECTED".toList) = true) := by
  decide +kernel

-- A write whose value is the word RETURNING: between the marks alone nothing is promised of it.
example : ((Interpreter.ofDialect .sqlite).interpret "change t set x=returning" .empty).toOption.any
    (fun r => returnsRows r.sql.toList && !hasWord "returning" (unquoted r.sql.toList)) = true := by
  decide +kernel

end Statement

end Parlance
