import Parlance.Proofs.Statement.Rendering
import Parlance.Proofs.Validation.Destructive

/-! The validator reads from the SQL of an interpretation what its intent says: which kind of
statement it is, and whether anything restricts the rows that it changes. Whatever the values hold,
the word WHERE shows only in front of a filter. -/

namespace Parlance

open Pattern (IsName isNameChar)

namespace Text

/-- Only the kelvin sign becomes another letter in lower case. -/
theorem toLower_of_lowerChar {c d : Char} (h : isNameChar c = true) (hd : lowerChar c = [d]) :
    d.toLower = c.toLower ∨ d = 'k' := by
  rcases Pattern.isNameChar_cases h with hc | rfl | rfl
  · rw [lowerChar, if_pos hc] at hd
    cases hd
    exact .inl (forall_ascii (P := fun c => c.toLower.toLower = c.toLower) (by decide) hc)
  · have hs : lowerChar (Char.ofNat 0x17f) = [Char.ofNat 0x17f] := by decide
    rw [hs] at hd
    cases hd
    exact .inl rfl
  · have hk : lowerChar (Char.ofNat 0x212a) = ['k'] := by decide
    rw [hk] at hd
    cases hd
    exact .inr rfl

theorem map_toLower_of_lowerAfter {cs v : List Char} (h : ∀ c ∈ cs, isNameChar c = true) (hk : 'k' ∉ v)
    {before : List Char} (hv : (lowerAfter before cs).map Char.toLower = v) :
    cs.map Char.toLower = v := by
  induction cs generalizing before v with
  | nil => exact hv
  | cons c cs ih =>
    obtain ⟨hc, hcs⟩ := List.forall_mem_cons.mp h
    obtain ⟨d, hd, -, -⟩ := Pattern.lowerChar_of_isNameChar hc
    rw [lowerAfter, if_neg (Pattern.ne_capitalSigma hc), hd, List.singleton_append, List.map_cons] at hv
    subst hv
    have hrest := ih hcs (List.not_mem_of_not_mem_cons hk) rfl
    rw [List.map_cons, hrest]
    -- A kelvin sign would have become a k, and the word has none.
    rcases toLower_of_lowerChar hc hd with he | rfl
    · rw [he]
    · exact absurd rfl (List.ne_of_not_mem_cons hk)

theorem sameWord_lower {w v : List Char} (h : IsName w) (hk : 'k' ∉ asciiLower v)
    (hv : sameWord (lower w) v = true) : sameWord w v = true := by
  rw [sameWord, beq_iff_eq] at hv ⊢
  exact map_toLower_of_lowerAfter h.isNameChar hk hv

end Text

namespace Validation

open Text (hasWord sameWord isWord)
open Statement (Within)
open Interpretation (Subject)
open Interpreter (SourcedIntent)

/-- A text behind which the scan is outside again, and which shows no WHERE. -/
structure Quiet (cs : List Char) : Prop where
  stays : Nesting.outer.run cs = .outer
  silent : hasWord "where" (topLevel cs) = false

namespace Quiet

variable {a b : List Char}

theorem append {c : Char} (ha : Quiet a) (hn : Neutral c) (hc : isWord c = false) (hb : Quiet b) :
    Quiet (a ++ c :: b) := by
  have hstep : Nesting.outer.step c = .outer := step_plain hn 0
  constructor
  · rw [Nesting.run_append, ha.stays, Nesting.run, List.foldl_cons, hstep]
    exact hb.stays
  · rw [topLevel, maskFrom_append, ha.stays, maskFrom, shows_outer hn, if_pos rfl, hstep,
      Text.hasWord_append hc, ← topLevel, ← topLevel, ha.silent, hb.silent]
    rfl

theorem space (ha : Quiet a) (hb : Quiet b) : Quiet (a ++ ' ' :: b) :=
  ha.append (by decide) (by decide) hb

/-- Without the letter w there is no WHERE. -/
theorem of_no_letter {cs : List Char} (h : ∀ c ∈ cs, Neutral c ∧ c.toLower ≠ 'w') : Quiet cs := by
  obtain ⟨hmask, hrun⟩ := maskFrom_outer fun c hc => (h c hc).1
  refine ⟨hrun, ?_⟩
  rw [topLevel, hmask, Bool.eq_false_iff]
  intro hw
  obtain ⟨m, u, v, rfl, hm, -⟩ := Text.hasWord_iff.mp hw
  cases m with
  | nil => cases hm
  | cons c m =>
    refine (h c (by simp)).2 ?_
    simp only [sameWord, Text.asciiLower, beq_iff_eq, List.map_cons] at hm
    exact (List.cons.inj hm).1

theorem of_isName {s : List Char} (h : IsName s) (hw : sameWord s "where".toList = false) : Quiet s := by
  have hn : ∀ c ∈ s, Neutral c := fun c hc => neutral_of_holds (by decide) (h.isNameChar c hc)
  have hword : ∀ c ∈ s, (!isWord c) = false := by
    intro c hc
    simp [Pattern.isWord_of_isNameChar (h.isNameChar c hc)]
  obtain ⟨hmask, hrun⟩ := maskFrom_outer hn
  refine ⟨hrun, ?_⟩
  rw [topLevel, hmask, hasWord, Text.pieces_of_forall hword, List.any_cons, hw]
  rfl

end Quiet

/-- Doubled quotes leave the scan between the quotes around them. -/
theorem masked_doubled (n : Nat) (cs : List Char) :
    Nesting.run ⟨some '\'', n⟩ (Text.substitute '\'' ['\'', '\''] cs) = ⟨some '\'', n⟩ ∧
      ∀ c ∈ maskFrom ⟨some '\'', n⟩ (Text.substitute '\'' ['\'', '\''] cs), c = ' ' := by
  induction cs with
  | nil => exact ⟨rfl, by simp [Text.substitute, maskFrom]⟩
  | cons c cs ih =>
    have hhead : Nesting.run ⟨some '\'', n⟩ (if c = '\'' then ['\'', '\''] else [c]) = ⟨some '\'', n⟩ ∧
        ∀ d ∈ maskFrom ⟨some '\'', n⟩ (if c = '\'' then ['\'', '\''] else [c]), d = ' ' := by
      split
      · have hq : isQuote '\'' = true := by decide
        refine ⟨rfl, ?_⟩
        simp [maskFrom, shows_quote hq]
      · next hc =>
        constructor
        · simp [Nesting.run, step_quoted, hc]
        · simp [maskFrom, shows_quoted]
    rw [Text.substitute, List.flatMap_cons, ← Text.substitute]
    constructor
    · rw [Nesting.run_append, hhead.1, ih.1]
    · rw [maskFrom_append, hhead.1]
      exact List.forall_mem_append.mpr ⟨hhead.2, ih.2⟩

theorem quiet_quoted (s : String) : Quiet (quoted s).toList := by
  obtain ⟨hrun, hmask⟩ := masked_doubled 0 s.toList
  have hd : (doubled s).toList = Text.substitute '\'' ['\'', '\''] s.toList := by
    rw [doubled, String.toList_ofList]
  have ho : Nesting.run .outer "'".toList = ⟨some '\'', 0⟩ := rfl
  rw [← hd] at hrun hmask
  constructor
  · simp only [quoted, String.toList_append, Nesting.run_append, ho, hrun]
    rfl
  · have hword : ∀ c ∈ maskFrom ⟨some '\'', 0⟩ (doubled s).toList, isWord c = false := by
      intro c hc
      rw [hmask c hc]
      decide
    have hopen : ∀ c ∈ maskFrom .outer "'".toList, isWord c = false := by decide
    have hclose : ∀ c ∈ maskFrom ⟨some '\'', 0⟩ "'".toList, isWord c = false := by decide
    simp only [topLevel, quoted, String.toList_append, Nesting.run_append, maskFrom_append, ho, hrun]
    refine Text.hasWord_of_no_word (by decide) ?_
    exact List.forall_mem_append.mpr ⟨List.forall_mem_append.mpr ⟨hopen, hword⟩, hclose⟩

theorem neutral_of_isDigit {c : Char} (h : Text.isDigit c = true) : Neutral c ∧ c.toLower ≠ 'w' := by
  refine ⟨neutral_of_holds (by decide) h, ?_⟩
  by_cases hc : c.toNat < 128
  · exact Text.forall_ascii (P := fun c => Text.isDigit c = true → c.toLower ≠ 'w')
      (by decide +kernel) hc h
  · rw [Text.toLower_of_not_ascii (by omega)]
    exact Text.ne_of_holds h (by decide)

theorem quiet_literal {v : Literal} (h : v.WellFormed) : Quiet v.sql.toList := by
  cases v with
  | text content => exact quiet_quoted content
  | boolean value => cases value <;> exact ⟨by decide, by decide⟩
  | number digits =>
    refine Quiet.of_no_letter fun c hc => ?_
    rcases h with h | ⟨-, h⟩
    · rcases (Literal.isPlainNumber_iff.mp h).chars c hc with hd | rfl | rfl
      · exact neutral_of_isDigit (by simp [Text.isDigit, hd])
      · decide
      · decide
    · exact neutral_of_isDigit (h c hc)

/-! ### Statements -/

theorem sameWord_of_assigns {s : Subject} {a : Assignment} (h : s.Assigns a) :
    sameWord a.column.toList "where".toList = false := by
  obtain ⟨w, hw, hne, hr⟩ := h.column
  rw [Bool.eq_false_iff] at hne ⊢
  intro hc
  refine hne ?_
  rcases Subject.resolve_cases hr with hs | hl
  · rw [sameWord, beq_iff_eq] at hs hc ⊢
    rw [← hs, hc]
  · rw [hl, String.toList_ofList] at hc
    exact Text.sameWord_lower hw (by decide) hc

theorem quiet_assignment {s : Subject} {a : Assignment} (h : s.Assigns a) : Quiet a.sql.toList := by
  have hcolumn := Quiet.of_isName (Statement.isName_of_assigns h) (sameWord_of_assigns h)
  have hsign : Quiet "=".toList := ⟨by decide, by decide⟩
  have hq := hcolumn.space (hsign.space (quiet_literal h.value))
  simpa [Assignment.sql] using hq

theorem quiet_commaList {parts : List String} (h : ∀ p ∈ parts, Quiet p.toList) :
    Quiet (commaList parts).toList := by
  have hempty : Quiet [] := ⟨rfl, by decide⟩
  induction parts with
  | nil =>
    rw [commaList, String.intercalate_nil]
    exact hempty
  | cons p parts ih =>
    obtain ⟨hp, hparts⟩ := List.forall_mem_cons.mp h
    cases parts with
    | nil =>
      rw [commaList, String.intercalate_singleton]
      exact hp
    | cons q parts =>
      have hq := hp.append (c := ',') (by decide) (by decide) (hempty.space (ih hparts))
      rw [commaList, String.intercalate_cons_cons]
      simpa [commaList] using hq

/-- A filter shows its WHERE, whatever is in it. -/
theorem hasWord_where {d : Dialect} {cs : List Char} (h : Quiet cs) (f : Filter) :
    hasWord "where" (topLevel (cs ++ (whereSql d f).toList)) = !f.isEmpty := by
  cases hf : f.isEmpty with
  | true =>
    have he : whereSql d f = "" := by simp [whereSql, hf]
    rw [he]
    simpa using h.silent
  | false =>
    have hs : (whereSql d f).toList = ' ' :: ("WHERE".toList ++ ' ' :: (chainSql d f).toList) := by
      simp [whereSql, hf]
    have hspace : Nesting.outer.step ' ' = .outer := rfl
    have hneutral : ∀ c ∈ "WHERE".toList, Neutral c := by decide
    obtain ⟨hmask, hrun⟩ := maskFrom_outer hneutral
    have hword : hasWord "where" "WHERE".toList = true := by decide
    rw [hs, topLevel, maskFrom_append, h.stays, maskFrom, hspace, maskFrom_append, hmask, hrun, maskFrom,
      shows_outer (c := ' ') (by decide), if_pos rfl, Text.hasWord_append (c := ' ') (by decide),
      Text.hasWord_append (c := ' ') (by decide), hword]
    simp

theorem leadingKeyword_append {k : List Char} (hne : k ≠ []) (hk : ∀ c ∈ k, endsKeyword c = false)
    (rest : List Char) : leadingKeyword (Text.trim (k ++ ' ' :: rest)) = String.ofList (Text.upper k) := by
  have hstart : Text.trimStart (k ++ ' ' :: rest) = k ++ ' ' :: rest := by
    obtain ⟨c, k, rfl⟩ := List.exists_cons_of_ne_nil hne
    have hc := hk c List.mem_cons_self
    simp only [endsKeyword, Bool.or_eq_false_iff] at hc
    rw [Text.trimStart, List.cons_append, List.dropWhile_cons, hc.1.1, if_neg Bool.false_ne_true]
  have hspace : endsKeyword ' ' = true := by decide
  rw [leadingKeyword_trim, hstart, leadingKeyword, List.takeWhile_append_of_pos fun c hc => by simp [hk c hc],
    List.takeWhile_cons, hspace, Bool.not_true, if_neg Bool.false_ne_true, List.append_nil]

/-- What the verdict on the SQL of an intent says of the intent. -/
def Agrees (x : Verdict) : Intent → Prop
  | .select .. | .count .. | .insert .. => x.isDestructive = false
  | .update _ _ filter =>
    (x.isDestructive = true ↔ filter = []) ∧ (x.operation = "UPDATE without WHERE clause" ↔ filter = [])
  | .delete _ filter =>
    x.isDestructive = true ∧ (x.operation = "DELETE without WHERE clause" ↔ filter = [])

theorem isDestructive_of_harmless {k : List Char} (hne : k ≠ []) (hk : ∀ c ∈ k, endsKeyword c = false)
    (hd : String.ofList (Text.upper k) ∉ destructiveWords) (hu : String.ofList (Text.upper k) ≠ "UPDATE")
    (rest : List Char) (v : Validator) (confirm : Bool) :
    (v.validate (k ++ ' ' :: rest) confirm).isDestructive = false := by
  rw [Bool.eq_false_iff, Ne, isDestructive_iff, leadingKeyword_append hne hk]
  rintro (h | ⟨h, -⟩)
  · exact hd h
  · exact hu h

/-- A statement with a filter behind it is known by its first word and by whether there is any. -/
theorem shows_filtered {k rest : List Char} (hne : k ≠ []) (hk : ∀ c ∈ k, endsKeyword c = false)
    (hq : Quiet (k ++ ' ' :: rest)) (d : Dialect) (f : Filter) :
    leadingKeyword (Text.trim (k ++ ' ' :: rest ++ (whereSql d f).toList)) = String.ofList (Text.upper k) ∧
      hasWord "where" (topLevel (k ++ ' ' :: rest ++ (whereSql d f).toList)) = !f.isEmpty := by
  refine ⟨?_, hasWord_where hq f⟩
  rw [List.append_assoc, List.cons_append]
  exact leadingKeyword_append hne hk (rest ++ (whereSql d f).toList)

theorem quiet_update {s : Subject} (htable : IsName s.table.toList)
    (hw : sameWord s.table.toList "where".toList = false) {assignments : List Assignment}
    (ha : ∀ a ∈ assignments, s.Assigns a) : Quiet ("UPDATE".toList ++ ' ' :: (s.table.toList ++ ' ' ::
      ("SET".toList ++ ' ' :: (Intent.setList assignments).toList))) := by
  have hupdate : Quiet "UPDATE".toList := ⟨by decide, by decide⟩
  have hset : Quiet "SET".toList := ⟨by decide, by decide⟩
  refine hupdate.space ((Quiet.of_isName htable hw).space (hset.space ?_))
  rw [Intent.setList]
  split
  · exact ⟨by decide, by decide⟩
  · exact quiet_commaList (List.forall_mem_map.mpr fun a hm => quiet_assignment (ha a hm))

theorem quiet_delete {s : Subject} (htable : IsName s.table.toList)
    (hw : sameWord s.table.toList "where".toList = false) :
    Quiet ("DELETE".toList ++ ' ' :: ("FROM".toList ++ ' ' :: s.table.toList)) := by
  have hdelete : Quiet "DELETE".toList := ⟨by decide, by decide⟩
  have hfrom : Quiet "FROM".toList := ⟨by decide, by decide⟩
  exact hdelete.space (hfrom.space (Quiet.of_isName htable hw))

theorem agrees_intent {t : Interpreter} {s : Subject} (d : Dialect) (htable : IsName s.table.toList)
    (hw : sameWord s.table.toList "where".toList = false) {i : Intent} (hi : SourcedIntent t s i)
    (v : Validator) (confirm : Bool) : Agrees (v.validate (i.sql d).toList confirm) i := by
  cases i with
  | select table columns clauses =>
    rw [Agrees, Intent.toList_sql_select]
    exact isDestructive_of_harmless (by decide) (by decide) (by decide) (by decide) _ v confirm
  | count table clauses =>
    rw [Agrees, Intent.toList_sql_count]
    exact isDestructive_of_harmless (by decide) (by decide) (by decide) (by decide) _ v confirm
  | insert table values =>
    rw [Agrees, Intent.toList_sql_insert]
    exact isDestructive_of_harmless (by decide) (by decide) (by decide) (by decide) _ v confirm
  | update table assignments filter =>
    obtain ⟨rfl, ha, -⟩ := hi
    obtain ⟨hk, hwhere⟩ := shows_filtered (by decide) (by decide) (quiet_update htable hw ha) d filter
    have hkey : String.ofList (Text.upper "UPDATE".toList) = "UPDATE" := by decide
    have hnot : "UPDATE" ∉ destructiveWords := by decide
    rw [Agrees, isDestructive_iff, operation_validate, Intent.toList_sql_update, hk, hkey, hwhere]
    refine ⟨by simp [hnot], ?_⟩
    by_cases hf : filter = []
    · simp [hf]
    · simp [hf]
  | delete table filter =>
    obtain ⟨rfl, -⟩ := hi
    obtain ⟨hk, hwhere⟩ := shows_filtered (by decide) (by decide) (quiet_delete htable hw) d filter
    have hkey : String.ofList (Text.upper "DELETE".toList) = "DELETE" := by decide
    have hmem : "DELETE" ∈ destructiveWords := by decide
    rw [Agrees, isDestructive_iff, operation_validate, Intent.toList_sql_delete, hk, hkey, hwhere]
    refine ⟨.inl hmem, ?_⟩
    by_cases hf : filter = []
    · simp [hf]
    · simp [hf]

/-- The verdict on the SQL of a request agrees with what was understood of it. -/
theorem interpret_agrees {t : Interpreter} {text : String} {schema : Schema} {i : Interpretation}
    (h : t.interpret text schema = .ok i) (hw : sameWord i.table.toList "where".toList = false)
    (v : Validator) (confirm : Bool) : Agrees (v.validate i.sql.toList confirm) i.intent := by
  have hg := Interpreter.grounded_of_interpret h
  rw [hg.sql]
  exact agrees_intent (s := ⟨schema, i.table, i.known⟩) t.dialect hg.table hw hg.intent v confirm

/-- The value is the word itself. -/
theorem interpret_agrees_where : ∃ i,
    (Interpreter.ofDialect .mysql).interpret "change t set a=where" .empty = .ok i ∧
      sameWord i.table.toList "where".toList = false ∧
      Agrees ((Validator.new false 100 []).validate i.sql.toList false) i.intent := by
  have hok : ((Interpreter.ofDialect .mysql).interpret "change t set a=where" .empty).toOption.any
      (fun i => !sameWord i.table.toList "where".toList) = true := by
    decide +kernel
  cases hi : (Interpreter.ofDialect .mysql).interpret "change t set a=where" .empty with
  | error e =>
    rw [hi] at hok
    cases hok
  | ok i =>
    rw [hi] at hok
    have hw : sameWord i.table.toList "where".toList = false := by simpa [Except.toOption] using hok
    exact ⟨i, rfl, hw, interpret_agrees hi hw _ _⟩

end Validation

end Parlance
