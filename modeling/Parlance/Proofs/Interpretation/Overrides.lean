import Mathlib.Data.List.Induction
import Parlance.Proofs.Sentence.Latest

/-! Columns that are configured for tables, by entries whose keys are lowered as they are put in. The
last entry for a table counts, so that the order of the entries matters where two of them meet in one
key, and nowhere else. Two interpretations of one text are compared stage by stage. -/

namespace Parlance

/-- Both fail with one error, or both succeed with related results. -/
inductive Together {α β : Type} (R : α → β → Prop) : Except Error α → Except Error β → Prop
  | ok {a : α} {b : β} (h : R a b) : Together R (.ok a) (.ok b)
  | error (e : Error) : Together R (.error e) (.error e)

namespace Together

variable {α β γ δ : Type} {R : α → β → Prop} {S : γ → δ → Prop}

theorem bind {x : Except Error α} {y : Except Error β} {f : α → Except Error γ} {g : β → Except Error δ}
    (h : Together R x y) (hfg : ∀ a b, R a b → Together S (f a) (g b)) : Together S (x >>= f) (y >>= g) := by
  cases h with
  | ok h => exact hfg _ _ h
  | error e => exact .error e

theorem bind_same (x : Except Error α) {f : α → Except Error γ} {g : α → Except Error δ}
    (hfg : ∀ a, Together S (f a) (g a)) : Together S (x >>= f) (x >>= g) := by
  cases x with
  | ok a => exact hfg a
  | error e => exact .error e

theorem refl {T : γ → γ → Prop} (x : Except Error γ) (h : ∀ c, T c c) : Together T x x := by
  cases x with
  | ok c => exact .ok (h c)
  | error e => exact .error e

end Together

namespace Interpreter

open Interpretation

/-! ### What the configured columns have a part in -/

variable {t₁ t₂ : Interpreter} {s : Subject}

theorem takeFilter_together (s : Subject) (id r₁ r₂ : Option Predicate) (ws : Workspace) :
    Together (fun a b : Filter × Workspace => a.2 = b.2) (takeFilter s id r₁ ws) (takeFilter s id r₂ ws) :=
  .bind_same _ fun _ => .ok rfl

theorem takeRead_together (t₁ t₂ : Interpreter) (s : Subject) (count : Bool) (id r₁ r₂ : Option Predicate)
    (ws : Workspace) :
    Together (fun _ _ => True) (t₁.takeRead s count id r₁ ws) (t₂.takeRead s count id r₂ ws) := by
  refine (takeFilter_together s id r₁ r₂ ws).bind fun a b hab => ?_
  obtain ⟨f, ws⟩ := a
  obtain ⟨g, ws'⟩ := b
  cases hab
  exact .bind_same _ fun _ => .bind_same _ fun _ => .ok trivial

/-- Whatever is configured, what stands behind the table is understood or refused alike. -/
theorem takeIntent_together (t₁ t₂ : Interpreter) (s : Subject) (o : Operation) (m n : Nat)
    (id r₁ r₂ : Option Predicate) (ws : Workspace) :
    Together (fun _ _ => True) (t₁.takeIntent s o m n id r₁ ws) (t₂.takeIntent s o m n id r₂ ws) := by
  cases o with
  | insert => exact .bind_same _ fun _ => .ok trivial
  | update => exact .bind_same _ fun _ => (takeFilter_together s id r₁ r₂ _).bind fun _ _ _ => .ok trivial
  | delete => exact (takeFilter_together s id r₁ r₂ ws).bind fun _ _ _ => .ok trivial
  | count => exact (takeRead_together t₁ t₂ s true id r₁ r₂ ws).bind fun _ _ _ => .ok trivial
  | select => exact (takeRead_together t₁ t₂ s false id r₁ r₂ ws).bind fun _ _ _ => .ok trivial

theorem takeIntent_congr (h : t₁.timestampColumn? s = t₂.timestampColumn? s) (o : Operation) (m n : Nat)
    (id r : Option Predicate) (ws : Workspace) :
    t₁.takeIntent s o m n id r ws = t₂.takeIntent s o m n id r ws := by
  have hread (count : Bool) : t₁.takeRead s count id r ws = t₂.takeRead s count id r ws := by
    simp only [takeRead, applyLatest, h]
  cases o with
  | insert => rfl
  | update => rfl
  | delete => rfl
  | count => simp only [takeIntent, hread]
  | select => simp only [takeIntent, hread]

theorem recencyOf_congr (h : t₁.timestampColumn? s = t₂.timestampColumn? s) (w : Option TimeWindow) :
    t₁.recencyOf s w = t₂.recencyOf s w := by
  simp only [recencyOf, h]

/-- Two interpreters that agree on the column of every table outside `C` disagree on requests for the
tables of `C` at most. -/
theorem interpret_together (t₁ t₂ : Interpreter) {C : String → Prop} (hd : t₁.dialect = t₂.dialect)
    (h : ∀ s : Subject, t₁.timestampColumn? s = t₂.timestampColumn? s ∨ C s.table) (text : String) (schema : Schema) :
    Together (fun i j => i = j ∨ i.table = j.table ∧ C i.table)
      (t₁.interpret text schema) (t₂.interpret text schema) := by
  simp only [interpret]
  split
  · exact .error _
  · -- The window and the table are found without the configured columns.
    refine .bind_same _ fun w => .bind_same _ fun m => ?_
    rcases h ⟨schema, m.name, m.known⟩ with heq | hC
    · simp only [recencyOf_congr heq, takeIntent_congr heq, hd]
      exact .refl _ fun _ => .inl rfl
    · exact (takeIntent_together _ _ _ _ _ _ _ _ _ _).bind fun _ _ _ => .ok (.inr ⟨rfl, hC⟩)

/-! ### The last entry for a table -/

variable {t : Interpreter} {entries e₁ e₂ : List (String × String)}

/-- The entries give a table two columns, under spellings of its name that are one when lowered. -/
def Contested (entries : List (String × String)) (table : String) : Prop :=
  ∃ a ∈ entries, ∃ b ∈ entries, lowerKey a.1 = lowerKey table ∧ lowerKey b.1 = lowerKey table ∧ a.2 ≠ b.2

theorem withTimestamps_append (t : Interpreter) (entries : List (String × String)) (e : String × String) :
    (t.withTimestamps (entries ++ [e])).timestamps = (lowerKey e.1, e.2) :: (t.withTimestamps entries).timestamps := by
  simp only [withTimestamps, List.foldl_append]
  rfl

theorem lookup_withTimestamps (t : Interpreter) (entries : List (String × String)) (key : String) :
    (t.withTimestamps entries).timestamps.lookup key =
      ((entries.reverse.find? (lowerKey ·.1 = key)).map (·.2)).or (t.timestamps.lookup key) := by
  induction entries using List.reverseRecOn with
  | nil => rfl
  | append_singleton entries e ih =>
    rw [withTimestamps_append, List.lookup_cons, List.reverse_concat, List.find?_cons]
    by_cases he : lowerKey e.1 = key
    · subst he
      simp
    · have hne : (key == lowerKey e.1) = false := beq_false_of_ne (Ne.symm he)
      simp only [hne, he, decide_false]
      exact ih

/-- Where the entries agree, their order does not matter. -/
theorem lookup_perm (t : Interpreter) (h : e₁.Perm e₂) {table : String} (hagree : ¬ Contested e₁ table) :
    (t.withTimestamps e₁).timestamps.lookup (lowerKey table) =
      (t.withTimestamps e₂).timestamps.lookup (lowerKey table) := by
  rw [lookup_withTimestamps, lookup_withTimestamps]
  have hmem {e : String × String} : e ∈ e₁.reverse ↔ e ∈ e₂.reverse := by
    rw [List.mem_reverse, List.mem_reverse, h.mem_iff]
  cases h₁ : e₁.reverse.find? (lowerKey ·.1 = lowerKey table) with
  | none =>
    have hnone : e₂.reverse.find? (lowerKey ·.1 = lowerKey table) = none :=
      List.find?_eq_none.mpr fun e he => List.find?_eq_none.mp h₁ e (hmem.mpr he)
    rw [hnone]
  | some a =>
    have ha : a ∈ e₁ := List.mem_reverse.mp (List.mem_of_find?_eq_some h₁)
    have hkey : lowerKey a.1 = lowerKey table := by simpa using List.find?_some h₁
    cases h₂ : e₂.reverse.find? (lowerKey ·.1 = lowerKey table) with
    | none =>
      have hnot := List.find?_eq_none.mp h₂ a (hmem.mp (List.mem_reverse.mpr ha))
      exact absurd (decide_eq_true hkey) hnot
    | some b =>
      have hb : b ∈ e₁ := List.mem_reverse.mp (hmem.mpr (List.mem_of_find?_eq_some h₂))
      have hother : lowerKey b.1 = lowerKey table := by simpa using List.find?_some h₂
      have heq : a.2 = b.2 := by
        by_contra hne
        exact hagree ⟨a, ha, b, hb, hkey, hother, hne⟩
      rw [Option.map_some, Option.map_some, heq]

theorem timestampColumn?_perm (t : Interpreter) (h : e₁.Perm e₂) (hagree : ¬ Contested e₁ s.table) :
    (t.withTimestamps e₁).timestampColumn? s = (t.withTimestamps e₂).timestampColumn? s := by
  rw [timestampColumn?, timestampColumn?, lookup_perm t h hagree]

/-- An entry that is put in last gives its table the column. -/
theorem timestampColumn?_last (t : Interpreter) (entries : List (String × String)) {e : String × String}
    (h : lowerKey e.1 = lowerKey s.table) :
    (t.withTimestamps (entries ++ [e])).timestampColumn? s = some e.2 := by
  rw [timestampColumn?, withTimestamps_append, h, List.lookup_cons_self]

theorem perm_concat {e : String × String} (h : e ∈ entries) : (entries.erase e ++ [e]).Perm entries :=
  (List.perm_append_singleton e _).trans (List.perm_cons_erase h).symm

/-- Of two columns for one table each can be made to count, and the latest rows are those by that column. -/
theorem exists_differ (t : Interpreter) {schema : Schema} {table : Table} (hs : Sentence.FreeSchema schema)
    (ht : table ∈ schema.tables) (h : Contested entries table.name) :
    ∃ first second text, first.Perm entries ∧ second.Perm entries ∧
      (t.withTimestamps first).interpret text schema ≠ (t.withTimestamps second).interpret text schema := by
  obtain ⟨a, ha, b, hb, hakey, hbkey, hne⟩ := h
  exact ⟨_, _, _, perm_concat ha, perm_concat hb, Sentence.interpret_latest_ne hs ht
    (timestampColumn?_last t _ hakey) (timestampColumn?_last t _ hbkey) hne ⟨5, by decide⟩⟩

/-- The order of the entries matters to no request but one for a table to which they give two columns,
and if there is such a table in a schema, some request for it is answered differently in another order. -/
theorem interpret_reordered (t : Interpreter) {e₁ e₂ : List (String × String)} (h : e₁.Perm e₂) :
    (∀ text schema,
      (t.withTimestamps e₁).interpret text schema = (t.withTimestamps e₂).interpret text schema ∨
      ∃ i j, (t.withTimestamps e₁).interpret text schema = .ok i ∧
        (t.withTimestamps e₂).interpret text schema = .ok j ∧ i.table = j.table ∧ Contested e₁ i.table) ∧
    ∀ schema, Sentence.FreeSchema schema → ∀ table ∈ schema.tables, Contested e₁ table.name →
      ∃ first second text, first.Perm e₁ ∧ second.Perm e₁ ∧
        (t.withTimestamps first).interpret text schema ≠ (t.withTimestamps second).interpret text schema := by
  refine ⟨fun text schema => ?_, fun schema hs table ht hc => exists_differ t hs ht hc⟩
  have hcolumn (s : Subject) : (t.withTimestamps e₁).timestampColumn? s = (t.withTimestamps e₂).timestampColumn? s ∨
      Contested e₁ s.table := by
    by_cases hs : Contested e₁ s.table
    · exact .inr hs
    · exact .inl (timestampColumn?_perm t h hs)
  have htogether := interpret_together (t.withTimestamps e₁) (t.withTimestamps e₂) (C := Contested e₁) rfl hcolumn
    text schema
  generalize (t.withTimestamps e₁).interpret text schema = x at htogether
  generalize (t.withTimestamps e₂).interpret text schema = y at htogether
  cases htogether with
  | error e => exact .inl rfl
  | @ok i j hij =>
    rcases hij with rfl | hij
    · exact .inl rfl
    · exact .inr ⟨i, j, rfl, rfl, hij⟩

/-- Entries for two tables, in both orders. -/
theorem interpret_reordered_two_tables :
    [("Users", "seen_at"), ("orders", "placed_at")].Perm [("orders", "placed_at"), ("Users", "seen_at")] ∧
    ∀ text schema,
      ((ofDialect .mysql).withTimestamps [("Users", "seen_at"), ("orders", "placed_at")]).interpret text schema =
        ((ofDialect .mysql).withTimestamps [("orders", "placed_at"), ("Users", "seen_at")]).interpret text schema := by
  have hperm : [("Users", "seen_at"), ("orders", "placed_at")].Perm [("orders", "placed_at"), ("Users", "seen_at")] :=
    .swap _ _ _
  refine ⟨hperm, fun text schema => ?_⟩
  rcases (interpret_reordered (ofDialect .mysql) hperm).1 text schema with heq | ⟨i, j, -, -, -, hc⟩
  · exact heq
  · have hkeys : lowerKey "Users" ≠ lowerKey "orders" := by decide
    simp only [Contested, List.mem_cons, List.not_mem_nil, or_false, exists_eq_or_imp, exists_eq_left] at hc
    rcases hc with (⟨-, -, hne⟩ | ⟨hu, ho, -⟩) | (⟨ho, hu, -⟩ | ⟨-, -, hne⟩)
    · exact absurd rfl hne
    · exact absurd (hu.trans ho.symm) hkeys
    · exact absurd (hu.trans ho.symm) hkeys
    · exact absurd rfl hne

/-- Two spellings of one table as keys of a map: the order of the entries decides which column counts. -/
theorem reversed_entries_differ :
    let entries := [("Users", "seen_at"), ("users", "made_at")]
    let schema : Schema := ⟨[⟨"users", [.ofType "id" "integer"]⟩]⟩
    (entries.map (·.1)).Nodup ∧ entries.Perm entries.reverse ∧
      ((ofDialect .postgres).withTimestamps entries).interpret "show users latest 5" schema ≠
        ((ofDialect .postgres).withTimestamps entries.reverse).interpret "show users latest 5" schema := by
  intro entries schema
  let users : Table := ⟨"users", [.ofType "id" "integer"]⟩
  have hs : Sentence.FreeSchema schema := ⟨by decide +kernel, by decide +kernel, by decide +kernel, by decide +kernel⟩
  have ht : users ∈ schema.tables := by decide
  have hkeys : lowerKey "Users" = lowerKey "users" := by decide
  have hmade : ((ofDialect .postgres).withTimestamps entries).timestampColumn? (Sentence.subjectOf schema users) =
      some "made_at" := timestampColumn?_last _ [("Users", "seen_at")] rfl
  have hseen : ((ofDialect .postgres).withTimestamps entries.reverse).timestampColumn?
      (Sentence.subjectOf schema users) = some "seen_at" := timestampColumn?_last _ [("users", "made_at")] hkeys
  have htext : Sentence.showLatest users ⟨5, by decide⟩ = "show users latest 5" := by decide +kernel
  have hne := Sentence.interpret_latest_ne hs ht hmade hseen (by decide) ⟨5, by decide⟩
  rw [htext] at hne
  exact ⟨by decide, .swap _ _ _, hne⟩

end Interpreter

end Parlance
