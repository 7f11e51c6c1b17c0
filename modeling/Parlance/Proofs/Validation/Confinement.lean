import Parlance.Proofs.Interpretation.Cues
import Parlance.Proofs.Sentence.Segment
import Parlance.Proofs.Validation.Tables

/-! The SQL of a request names its table where the validator looks for one. Only a column can stand in
the way: the last one of the selection, if it is itself a word that introduces a table, and then the validator
takes the FROM behind it for a table. A request therefore stays within the allowed tables, unless "from" is one. -/

namespace Parlance

open Pattern
open Interpretation (Subject)
open Interpreter (SourcedIntent)
open Text (isBlank isWord isWordAt Lacks)
open Sentence (Spaced)

namespace Text

theorem head?_trimEnd {x : List Char} (hx : ∀ c ∈ x.head?, isBlank c = true) :
    ∀ c ∈ (trimEnd x).head?, isBlank c = true := by
  intro c hc
  obtain ⟨es, hes, -⟩ := dropEndWhile_append isBlank x
  apply hx c
  rw [trimEnd] at hc
  rw [hes, List.head?_append, Option.mem_def.mp hc, Option.some_or]
  rfl

end Text

namespace Validation

variable {t x : List Char}

/-- The validator sees the table, or else it takes the word FROM for one. -/
def Shows (t cs : List Char) : Prop := lowered t ∈ referencedTables cs ∨ "from" ∈ referencedTables cs

theorem mem_referencedTables {k : String} (hk : k ∈ referenceWords) {m pre : List Char} (hm : Spelled k.toList m)
    (hpre : Lacks referenceWords pre) (hend : isWordAt pre.getLast? = false) (ht : IsName t)
    (hx : ∀ c ∈ x.head?, isBlank c = true) : lowered t ∈ referencedTables (pre ++ (m ++ ' ' :: t) ++ x) := by
  have hwhole (cs : List Char) : referencedTables cs = referencesBehind [] cs := rfl
  have hsplit : pre ++ (m ++ ' ' :: t) ++ x = pre ++ (m ++ ([' '] ++ t) ++ x) := by simp
  rw [hwhole, hsplit, referencesBehind_skip hpre hend, List.nil_append,
    referencesBehind_reference hk hend hm (List.cons_ne_nil _ _) (by decide) ht hx]
  exact List.mem_cons_self

/-- What stands before a comma hides nothing behind it. -/
theorem Shows.comma {cs : List Char} (h : Shows t cs) (pre : List Char) : Shows t (pre ++ ',' :: cs) := by
  rw [Shows, referencedTables_comma]
  exact h.imp (List.mem_append_right _) (List.mem_append_right _)

theorem shows_from {pre : List Char} (hpre : Lacks referenceWords pre) (ht : IsName t)
    (hx : ∀ c ∈ x.head?, isBlank c = true) : Shows t (pre ++ ' ' :: ("FROM ".toList ++ t ++ x)) := by
  have hsplit : pre ++ ' ' :: ("FROM ".toList ++ t ++ x) =
      (pre ++ [' ']) ++ ("FROM".toList ++ ' ' :: t) ++ x := by simp
  rw [hsplit]
  refine .inl (mem_referencedTables (List.mem_cons_self : "from" ∈ referenceWords) (by decide) ?_ ?_ ht hx)
  · exact Lacks.append_space.mpr ⟨hpre, .nil⟩
  · rw [List.getLast?_concat]
    decide

/-- A name between the opening and FROM is passed over, unless it introduces a table itself. -/
theorem shows_behind_name {pre n : List Char} (hpre : Lacks referenceWords pre) (hn : IsName n) (ht : IsName t)
    (hx : ∀ c ∈ x.head?, isBlank c = true) :
    Shows t (pre ++ ' ' :: (n ++ ' ' :: ("FROM ".toList ++ t ++ x))) := by
  by_cases hkey : ∃ k ∈ referenceWords, Spelled k.toList n
  · obtain ⟨k, hk, hspelled⟩ := hkey
    have hfrom : IsName "FROM".toList := ⟨'F', _, rfl, by decide, by decide⟩
    have hsplit : pre ++ ' ' :: (n ++ ' ' :: ("FROM ".toList ++ t ++ x)) =
        (pre ++ [' ']) ++ (n ++ ' ' :: "FROM".toList) ++ (' ' :: t ++ x) := by simp
    have hlowered : lowered "FROM".toList = "from" := by decide
    rw [hsplit, Shows, ← hlowered]
    refine .inr (mem_referencedTables hk hspelled (Lacks.append_space.mpr ⟨hpre, .nil⟩) ?_ hfrom ?_)
    · rw [List.getLast?_concat]
      decide
    · intro c hc
      cases hc
      exact Text.isBlank_space
  · have hlacks : Lacks referenceWords n :=
      .of_word (fun c hc => isWord_of_isNameChar (hn.isNameChar c hc)) fun k hk h => hkey ⟨k, hk, h⟩
    have hsplit : pre ++ ' ' :: (n ++ ' ' :: ("FROM ".toList ++ t ++ x)) =
        (pre ++ ' ' :: n) ++ ' ' :: ("FROM ".toList ++ t ++ x) := by simp
    rw [hsplit]
    exact shows_from (Lacks.append_space.mpr ⟨hpre, hlacks⟩) ht hx

theorem shows_behind_columns {columns : List String} (hne : columns ≠ []) (hnames : ∀ c ∈ columns, IsName c.toList)
    {pre : List Char} (hpre : Lacks referenceWords pre) (ht : IsName t) (hx : ∀ c ∈ x.head?, isBlank c = true) :
    Shows t (pre ++ ' ' :: ((commaList columns).toList ++ ' ' :: ("FROM ".toList ++ t ++ x))) := by
  induction columns generalizing pre with
  | nil => exact absurd rfl hne
  | cons c columns ih =>
    obtain ⟨hc, hrest⟩ := List.forall_mem_cons.mp hnames
    cases columns with
    | nil =>
      rw [commaList, String.intercalate_singleton]
      exact shows_behind_name hpre hc ht hx
    | cons d columns =>
      have hlist : (commaList (c :: d :: columns)).toList =
          c.toList ++ ',' :: ' ' :: (commaList (d :: columns)).toList := by
        rw [commaList, String.intercalate_cons_cons]
        simp [commaList]
      have hsplit : pre ++ ' ' :: ((commaList (c :: d :: columns)).toList ++ ' ' :: ("FROM ".toList ++ t ++ x)) =
          (pre ++ ' ' :: c.toList) ++ ',' :: ([] ++ ' ' :: ((commaList (d :: columns)).toList ++
            ' ' :: ("FROM ".toList ++ t ++ x))) := by
        simp [hlist]
      rw [hsplit]
      exact (ih (List.cons_ne_nil d columns) hrest .nil).comma _

/-! ### Statements -/

/-- The statement opens in such a way that its table shows, whatever follows the table. -/
def Exposes (t cs : List Char) : Prop :=
  ∃ head x, cs = head ++ t ++ x ∧ (∃ c hs, head = c :: hs ∧ isBlank c = false) ∧ Spaced x ∧
    ∀ y, (∀ c ∈ y.head?, isBlank c = true) → Shows t (head ++ t ++ y)

/-- Trimming takes away blanks behind the table only. -/
theorem Exposes.shows_trim {cs : List Char} (h : Exposes t cs) (ht : IsName t) : Shows t (Text.trim cs) := by
  obtain ⟨head, x, rfl, ⟨c, hs, rfl, hc⟩, hx, hshows⟩ := h
  have hblank : ∀ d ∈ x.head?, isBlank d = true := by
    intro d hd
    rw [hx d hd]
    exact Text.isBlank_space
  have hvisible : ∀ d ∈ (c :: hs ++ t).head?, isBlank d = false := by
    intro d hd
    cases hd
    exact hc
  have hne : c :: hs ++ t ≠ [] := List.cons_ne_nil _ _
  rw [Text.trim_append_tail hne hvisible (endsVisibly_name (c :: hs) ht)]
  exact hshows _ (Text.head?_trimEnd hblank)

theorem spaced_append {s : String} (hs : s.toList.head? = some ' ') (r : String) : Spaced (s ++ r).toList := by
  intro c hc
  rw [String.toList_append, List.head?_append, hs, Option.some_or] at hc
  exact (Option.some.inj hc).symm

theorem spaced_whereSql (d : Dialect) (f : Filter) : Spaced (whereSql d f).toList := by
  rw [whereSql]
  split
  · exact .nil
  · exact spaced_append (by decide) _

theorem spaced_clauses (d : Dialect) (c : ReadClauses) : Spaced (c.sql d).toList := by
  obtain ⟨filter, groupBy, orderBy, limit⟩ := c
  rw [ReadClauses.sql, String.toList_append, String.toList_append, String.toList_append]
  refine (((spaced_whereSql d filter).append ?group).append ?order).append ?limit
  case group =>
    cases groupBy with
    | none => exact .nil
    | some column => exact spaced_append (by decide) column
  case order =>
    cases orderBy with
    | none => exact .nil
    | some o =>
      have h := spaced_append (s := " ORDER BY ") (by decide) (o.column ++ if o.descending then " DESC" else " ASC")
      rwa [← String.append_assoc] at h
  case limit =>
    cases limit with
    | none => exact .nil
    | some n => exact spaced_append (by decide) _

section Selections

variable {columns : List String} {groupBy : Option String}

theorem shows_behind_projection (hcolumns : ∀ c ∈ columns, IsName c.toList)
    (hgroup : ∀ c, groupBy = some c → IsName c.toList) (ht : IsName t) (hx : ∀ c ∈ x.head?, isBlank c = true) :
    Shows t ("SELECT".toList ++ ' ' :: ((Intent.projection groupBy columns).toList ++ ' ' ::
      ("FROM ".toList ++ t ++ x))) := by
  have hopen : Lacks referenceWords "SELECT".toList := by decide
  cases columns with
  | nil =>
    cases groupBy with
    | some c => exact shows_behind_name hopen (hgroup c rfl) ht hx
    | none =>
      have hstar : Lacks referenceWords "SELECT *".toList := by decide
      exact shows_from hstar ht hx
  | cons c columns =>
    have hlist : Intent.projection groupBy (c :: columns) = commaList (c :: columns) := by
      cases groupBy <;> rfl
    rw [hlist]
    exact shows_behind_columns (List.cons_ne_nil c columns) hcolumns hopen ht hx

theorem shows_behind_countProjection (groupBy : Option String) (ht : IsName t)
    (hx : ∀ c ∈ x.head?, isBlank c = true) :
    Shows t ("SELECT".toList ++ ' ' :: ((Intent.countProjection groupBy).toList ++ ' ' ::
      ("FROM ".toList ++ t ++ x))) := by
  cases groupBy with
  | none =>
    have hcount : Lacks referenceWords "SELECT COUNT(*) as count".toList := by decide
    exact shows_from hcount ht hx
  | some c =>
    -- The comma behind the column keeps it apart.
    have hcount : Lacks referenceWords " COUNT(*) as count".toList := by decide
    have hsplit : "SELECT".toList ++ ' ' :: ((Intent.countProjection (some c)).toList ++ ' ' ::
        ("FROM ".toList ++ t ++ x)) = ("SELECT".toList ++ ' ' :: c.toList) ++ ',' ::
          (" COUNT(*) as count".toList ++ ' ' :: ("FROM ".toList ++ t ++ x)) := by
      simp [Intent.countProjection]
    rw [hsplit]
    exact (shows_from hcount ht hx).comma _

end Selections

/-- A statement that opens with a word and a blank, and then with a word that introduces its table. -/
theorem exposes_behind_word {k : String} (hk : k ∈ referenceWords) {m pre : List Char} (hm : Spelled k.toList m)
    (hpre : Lacks referenceWords pre) (hend : isWordAt pre.getLast? = false)
    (hhead : ∃ c hs, pre ++ m ++ [' '] = c :: hs ∧ isBlank c = false) (ht : IsName t) (hx : Spaced x) :
    Exposes t (pre ++ (m ++ ' ' :: t) ++ x) := by
  have hsplit (y : List Char) : pre ++ (m ++ ' ' :: t) ++ y = pre ++ m ++ [' '] ++ t ++ y := by simp
  refine ⟨_, x, hsplit x, hhead, hx, fun y hy => ?_⟩
  rw [← hsplit]
  exact .inl (mem_referencedTables hk hm hpre hend ht hy)

theorem exposes_behind_selection {selection : List Char} (hx : Spaced x)
    (h : ∀ y, (∀ c ∈ y.head?, isBlank c = true) →
      Shows t ("SELECT".toList ++ ' ' :: (selection ++ ' ' :: ("FROM ".toList ++ t ++ y)))) :
    Exposes t ("SELECT".toList ++ ' ' :: (selection ++ ' ' :: ("FROM ".toList ++ t ++ x))) := by
  have hsplit (y : List Char) : "SELECT".toList ++ ' ' :: (selection ++ ' ' :: ("FROM ".toList ++ t ++ y)) =
      ("SELECT ".toList ++ selection ++ " FROM ".toList) ++ t ++ y := by simp
  have hhead : "SELECT ".toList ++ selection ++ " FROM ".toList =
      'S' :: ("ELECT ".toList ++ selection ++ " FROM ".toList) := by
    simp
  refine ⟨_, x, hsplit x, ⟨'S', _, hhead, by decide⟩, hx, fun y hy => ?_⟩
  rw [← hsplit]
  exact h y hy

/-- Whatever else it holds, the SQL of an intent exposes the table. -/
theorem exposes_intent {t : Interpreter} {s : Subject} (d : Dialect) (htable : IsName s.table.toList) {i : Intent}
    (hi : SourcedIntent t s i) : Exposes s.table.toList (i.sql d).toList := by
  have hinto : "into" ∈ referenceWords := by decide
  have hupdate : "update" ∈ referenceWords := by decide
  have hfrom : "from" ∈ referenceWords := by decide
  cases i with
  | select table columns clauses =>
    obtain ⟨rfl, hcolumns, hclauses⟩ := hi
    rw [Intent.toList_sql_select]
    refine exposes_behind_selection (spaced_clauses d clauses) fun y hy => ?_
    exact shows_behind_projection (fun c hc => (hcolumns c hc).isName) (fun c hc => (hclauses.groupBy c hc).isName)
      htable hy
  | count table clauses =>
    obtain ⟨rfl, -⟩ := hi
    rw [Intent.toList_sql_count]
    exact exposes_behind_selection (spaced_clauses d clauses) fun y hy => shows_behind_countProjection _ htable hy
  | insert table values =>
    obtain ⟨rfl, -⟩ := hi
    have hsql : (Intent.sql d (.insert s.table values)).toList =
        "INSERT ".toList ++ ("INTO".toList ++ ' ' :: s.table.toList) ++ ' ' :: (Intent.insertList values).toList := by
      rw [Intent.toList_sql_insert]
      simp
    rw [hsql]
    exact exposes_behind_word hinto (by decide) (by decide) (by decide) ⟨'I', _, rfl, by decide⟩ htable (.cons _)
  | update table assignments filter =>
    obtain ⟨rfl, -⟩ := hi
    have hsql : (Intent.sql d (.update s.table assignments filter)).toList = [] ++ ("UPDATE".toList ++ ' ' ::
        s.table.toList) ++ ' ' :: ("SET ".toList ++ (Intent.setList assignments).toList ++ (whereSql d filter).toList) := by
      rw [Intent.toList_sql_update]
      simp
    rw [hsql]
    exact exposes_behind_word hupdate (by decide) .nil (by decide) ⟨'U', _, rfl, by decide⟩ htable (.cons _)
  | delete table filter =>
    obtain ⟨rfl, -⟩ := hi
    have hsql : (Intent.sql d (.delete s.table filter)).toList =
        "DELETE ".toList ++ ("FROM".toList ++ ' ' :: s.table.toList) ++ (whereSql d filter).toList := by
      rw [Intent.toList_sql_delete]
      simp
    rw [hsql]
    exact exposes_behind_word hfrom (by decide) (by decide) (by decide) ⟨'D', _, rfl, by decide⟩ htable
      (spaced_whereSql d filter)

/-- A request whose SQL is accepted is about an allowed table, whatever its columns and values are. -/
theorem interpret_confined {t : Interpreter} {text : String} {schema : Schema} {i : Interpretation}
    (h : t.interpret text schema = .ok i) {v : Validator} (hv : v.allowedTables ≠ [])
    (hfrom : "from" ∉ v.allowedTables) {confirm : Bool} (hok : (v.validate i.sql.toList confirm).accepted = true) :
    lowered i.table.toList ∈ v.allowedTables := by
  have hg := Interpreter.grounded_of_interpret h
  have hshows : Shows i.table.toList (Text.trim i.sql.toList) := by
    rw [hg.sql]
    exact (exposes_intent (s := ⟨schema, i.table, i.known⟩) t.dialect hg.table hg.intent).shows_trim hg.table
  have hallowed := mem_allowedTables_of_accepted hv hok
  rcases hshows with hmem | hmem
  · exact hallowed _ hmem
  · exact absurd (hallowed _ hmem) hfrom

/-- One of the columns is named like a word that introduces a table. -/
theorem interpret_confined_update :
    let schema : Schema := ⟨[⟨"T", [.ofType "update" "text", .ofType "x" "int"]⟩]⟩
    let v := Validator.new false 100 ["t"]
    ∃ i, (Interpreter.ofDialect .mysql).interpret "get update and x of t" schema = .ok i ∧
      v.allowedTables ≠ [] ∧ "from" ∉ v.allowedTables ∧ (v.validate i.sql.toList false).accepted = true ∧
      lowered i.table.toList ∈ v.allowedTables := by
  intro schema v
  have hok : ((Interpreter.ofDialect .mysql).interpret "get update and x of t" schema).toOption.any
      (fun i => (v.validate i.sql.toList false).accepted) = true := by
    decide +kernel
  obtain ⟨i, h, haccepted⟩ := exists_ok_of_any hok
  have hv : v.allowedTables ≠ [] := by decide
  have hfrom : "from" ∉ v.allowedTables := by decide
  exact ⟨i, h, hv, hfrom, haccepted, interpret_confined h hv hfrom haccepted⟩

end Validation
end Parlance
