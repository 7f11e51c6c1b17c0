import Parlance.Proofs.Interpretation.Source

/-! The whole of an interpretation, put together from the sources of its parts: assignments, short
clauses and the table join the conditions. -/

namespace Parlance

open Pattern (IsName)

namespace Interpretation

variable {t : Interpreter} {s : Subject}

/-! ### Values -/

/-- A column of the text other than the word "where" is given a value. -/
structure Subject.Assigns (s : Subject) (a : Assignment) : Prop where
  column : ∃ w, IsName w ∧ Text.sameWord w "where".toList = false ∧ s.resolve w = .ok a.column
  value : a.value.WellFormed

theorem namesIn_assignment : NamesIn Grammar.columnGroup Grammar.assignment := by
  refine ⟨rfl, ?_⟩
  simp [Grammar.assignment, bodies_value, Pattern.bodies]

theorem gives_assignmentsFrom (fuel : Nat) (cs : List Char) :
    Gives s.Refuses (fun r => ∀ a ∈ r.1, s.Assigns a) (assignmentsFrom s fuel cs) := by
  induction fuel generalizing cs with
  | zero => simp [assignmentsFrom, Gives]
  | succ fuel ih =>
    simp only [assignmentsFrom]
    split
    · simp [Gives]
    · next h hh =>
      obtain ⟨ha, hb⟩ := namesIn_assignment
      have hw := isName_of_hit (Pattern.find?_of hh) ha hb
      split
      · simp [Gives]
      · next hf =>
        simp only [Bool.or_eq_true, not_or, Bool.not_eq_true] at hf
        have hr : Gives s.Refuses (fun c => s.resolve ((h.text? Grammar.columnGroup).getD []) = .ok c)
            (s.resolve ((h.text? Grammar.columnGroup).getD [])) := by
          cases hr : s.resolve ((h.text? Grammar.columnGroup).getD []) with
          | ok c => rfl
          | error e => exact ⟨_, hw, hr⟩
        refine hr.bind fun c hc => ?_
        have hnew (v : List Char) : s.Assigns ⟨c, .ofText v⟩ :=
          ⟨⟨_, hw, hf.2, hc⟩, Literal.wellFormed_ofText v⟩
        split
        · simpa [Gives] using hnew _
        · split
          · refine (ih _).bind fun r hm => ?_
            exact List.forall_mem_cons.mpr ⟨hnew _, hm⟩
          · simpa [Gives] using hnew _

theorem gives_takePairs (cue : Text.Span) (ws : Workspace) :
    Gives s.Refuses (fun r => ∀ a ∈ r, s.Assigns a) (takePairs s cue ws).1 := by
  have h := gives_assignmentsFrom (s := s) ((ws.after cue.stop).length + 1) (ws.after cue.stop)
  rw [← assignments] at h
  simp only [takePairs]
  split
  · next e he =>
    rw [he] at h
    exact h
  · simp [Gives]
  · next new n _ he =>
    rw [he] at h
    exact h

theorem assigns_name {c : String} (h : nameColumn? s = some c) {v : Literal} (hv : v.WellFormed) :
    s.Assigns ⟨c, v⟩ := by
  have hn : IsName "name".toList := ⟨'n', _, rfl, by decide, by decide⟩
  refine ⟨⟨"name".toList, hn, by decide, ?_⟩, hv⟩
  simp only [nameColumn?, Subject.column?] at h
  simp only [Subject.resolve]
  cases hk : s.known with
  | false =>
    simp only [hk, Bool.false_eq_true, if_false, Option.some.injEq] at h
    subst h
    rfl
  | true =>
    simp only [hk, if_true] at h ⊢
    cases hc : s.schema.findColumn? s.table "name".toList with
    | none =>
      rw [hc] at h
      cases h
    | some c' =>
      rw [hc] at h
      cases h
      rfl

theorem assigns_takeNamed (ws : Workspace) : ∀ a ∈ (takeNamed s ws).1, s.Assigns a := by
  simp only [takeNamed]
  split
  · simp
  · split
    · simp
    · next c hc =>
      intro a ha
      rw [List.mem_singleton.mp ha]
      exact assigns_name hc (Literal.wellFormed_ofText _)

theorem gives_takeInsertValues (tableEnd : Nat) (ws : Workspace) :
    Gives s.Refuses (fun r => ∀ a ∈ r, s.Assigns a) (takeInsertValues s tableEnd ws).1 := by
  have hn := assigns_takeNamed (s := s) ws
  simp only [takeInsertValues]
  split
  · exact hn
  · next start _ =>
    refine (gives_takePairs start _).map fun new hnew a ha => ?_
    rcases mem_addValues ha with ha | ha
    · exact hn a ha
    · exact hnew a ha

theorem gives_takeSet (ws : Workspace) :
    Gives s.Refuses (fun r => ∀ a ∈ r, s.Assigns a) (takeSet s ws).1 := by
  simp only [takeSet]
  split
  · simp [Gives]
  · exact gives_takePairs _ ws

/-! ### Short clauses -/

theorem isNumeral_of_spells {cs : List Char} (h : Pattern.digits.Spells cs) : Literal.IsNumeral cs :=
  .inr (Pattern.spells_some1 h)

theorem isNumeral_of_idShorthand {cs : List Char} {hit : Pattern.Hit}
    (h : Grammar.idShorthand.find? cs = some hit) : ∃ w, hit.text? 1 = some w ∧ Literal.IsNumeral w := by
  have hp := Pattern.find?_of h
  obtain ⟨w, hw⟩ := hp.text?_of_always (n := 1) rfl
  obtain ⟨a, ha, hsp⟩ := hp.text? hw
  have hb : Grammar.idShorthand.bodies 1 = [Pattern.digits] := rfl
  rw [hb, List.mem_singleton] at ha
  subst ha
  exact ⟨w, hw, isNumeral_of_spells hsp⟩

theorem sourced_takeId {tableEnd : Nat} {ws : Workspace} {p : Predicate}
    (h : (takeId s tableEnd ws).1 = some p) : p.Each (Sourced t s) := by
  have hid : IsName "id".toList := ⟨'i', _, rfl, by decide, by decide⟩
  simp only [takeId] at h
  split at h
  · cases h
  · next hs =>
    split at h
    · cases h
    · next hit hh =>
      cases h
      refine ⟨⟨"id".toList, hid, ?_⟩, ?_⟩
      · simp only [Subject.hasId, Subject.column?, Bool.not_eq_true', Bool.not_eq_false] at hs
        simp only [Subject.column?, Subject.resolve]
        cases hk : s.known with
        | false => rfl
        | true =>
          simp only [hk, Bool.not_true, Bool.false_or, if_true] at hs ⊢
          obtain ⟨c, hc⟩ := Option.isSome_iff_exists.mp hs
          simp only [hc, Option.getD_some]
      · obtain ⟨w, hw, hnumeral⟩ := isNumeral_of_idShorthand hh
        rw [hw]
        simpa [Literal.WellFormed] using hnumeral

theorem namesIn_groupBy : NamesIn 2 Grammar.groupBy := by
  refine ⟨rfl, ?_⟩
  simp [Grammar.groupBy, Pattern.bodies]

theorem namesIn_orderBy : NamesIn 1 Grammar.orderBy := by
  refine ⟨rfl, ?_⟩
  simp [Grammar.orderBy, Pattern.bodies]

theorem gives_takeGroupBy (bare : Bool) (ws : Workspace) :
    Gives s.Refuses (fun r => ∀ c, r = some c → s.Names c) (takeGroupBy s bare ws).1 := by
  simp only [takeGroupBy]
  split
  · exact fun c hc => nomatch hc
  · next h hh =>
    have hp := Pattern.mem_hits (List.mem_of_find?_eq_some hh)
    have hr := Subject.gives_resolve (s := s) (isName_of_hit hp namesIn_groupBy.1 namesIn_groupBy.2)
    split
    · next c hc =>
      rw [hc] at hr
      intro c' hc'
      cases hc'
      exact hr
    · next e he =>
      rw [he] at hr
      exact hr

/-- A result is ordered by a column of the text, by the column that dates its rows, or by its
count. -/
def Orders (t : Interpreter) (s : Subject) (c : String) : Prop :=
  s.Names c ∨ t.timestampColumn? s = some c ∨ c = "count"

theorem gives_takeOrderBy (count : Bool) (ws : Workspace) :
    Gives s.Refuses (fun r => ∀ o, r = some o → Orders t s o.column) (takeOrderBy s count ws).1 := by
  simp only [takeOrderBy]
  split
  · exact fun o ho => nomatch ho
  · next h hh =>
    have hp := Pattern.find?_of hh
    have hr := Subject.gives_resolve (s := s) (isName_of_hit hp namesIn_orderBy.1 namesIn_orderBy.2)
    have hc : Gives s.Refuses (Orders t s) (orderColumn s count ((h.text? 1).getD [])) := by
      simp only [orderColumn]
      split
      · exact .inr (.inr rfl)
      · exact hr.mono (fun _ he => he) fun _ hc => .inl hc
    split
    · next c he =>
      rw [he] at hc
      intro o ho
      cases ho
      exact hc
    · next e he =>
      rw [he] at hc
      exact hc

theorem orders_applyLatest {latest limit : Option Nat} {order : Option SortOrder}
    (h : ∀ o, order = some o → Orders t s o.column) {o : SortOrder}
    (ho : (t.applyLatest s latest limit order).2.1 = some o) : Orders t s o.column := by
  simp only [Interpreter.applyLatest] at ho
  split at ho
  · exact h o ho
  · split at ho
    · exact h o ho
    · next c hc =>
      cases ho
      exact .inr (.inl hc)
    · cases ho

theorem isName_of_nameWord {w : List Char} (h : Grammar.nameWord.Spells w) : IsName w := by
  cases h with
  | both he h =>
    cases he
    cases h with
    | both hn he =>
      cases he
      rw [List.nil_append, List.append_nil]
      exact Pattern.spells_name hn

theorem names_of_mem_columnsLeft {verbEnd : Nat} {ws : Workspace} {c : String}
    (h : c ∈ columnsLeft s verbEnd ws) : s.Names c := by
  rcases addsOnce_addColumn.mem h with h | h
  · simp at h
  · obtain ⟨w, hw, hc⟩ := List.mem_filterMap.mp h
    obtain ⟨hit, hh, rfl⟩ := List.mem_map.mp (List.mem_filter.mp hw).1
    exact Subject.names_of_column? (isName_of_nameWord (Pattern.mem_hits hh).text).lower hc

/-! ### Tables -/

theorem isName_of_mem_prepositionMentions {cs : List Char} {m : Mention}
    (h : m ∈ prepositionMentions cs) : IsName m.word := by
  obtain ⟨hit, hh, hm⟩ := List.mem_filterMap.mp h
  split at hm
  · next w hw =>
    obtain ⟨a, ha, hs⟩ := (Pattern.mem_hits hh).text? hw
    have hb : Grammar.tablePreposition.bodies 1 = [Pattern.name] := by
      simp [Grammar.tablePreposition, Pattern.bodies]
    rw [hb, List.mem_singleton] at ha
    subst ha
    split at hm
    · cases hm
    · cases hm
      exact Pattern.spells_name hs
  · cases hm

theorem isName_of_mem_wordMentions {cs : List Char} {m : Mention} (h : m ∈ wordMentions cs) :
    IsName m.word := by
  obtain ⟨hit, hh, rfl⟩ := List.mem_map.mp h
  exact isName_of_nameWord (Pattern.mem_hits (List.mem_filter.mp hh).1).text

theorem isName_of_mem_tableMentions {verbEnd : Nat} {cs : List Char} {m : Mention}
    (h : m ∈ tableMentions verbEnd cs) : IsName m.word := by
  rcases List.mem_append.mp h with h | h
  · exact isName_of_mem_prepositionMentions h
  · simp only [verbMention] at h
    split at h
    · cases h
    · obtain ⟨m', hm', rfl⟩ := List.mem_map.mp h
      exact isName_of_mem_wordMentions (m := m') (List.mem_of_mem_take hm')

theorem isName_of_lookupTable? {schema : Schema} {w : List Char} {name : String} (h : IsName w)
    (hl : lookupTable? schema w = some name) : IsName name.toList := by
  obtain ⟨form, hf, hform⟩ := List.exists_of_findSome?_eq_some hl
  obtain ⟨table, ht, rfl⟩ := Option.map_eq_some_iff.mp hform
  exact (h.lower.candidates form hf).of_sameWord (Schema.sameWord_of_find? ht)

theorem isName_of_knownMatch? {schema : Schema} {ms : List Mention} {m : TableMatch}
    (hms : ∀ x ∈ ms, IsName x.word) (h : knownMatch? schema ms = some m) : IsName m.name.toList := by
  obtain ⟨x, hx, hm⟩ := List.exists_of_findSome?_eq_some h
  obtain ⟨name, hn, rfl⟩ := Option.map_eq_some_iff.mp hm
  exact isName_of_lookupTable? (hms x hx) hn

theorem isName_of_resolveTable? {ws : Workspace} {verbEnd : Nat} {schema : Schema} {m : TableMatch}
    (h : resolveTable? ws verbEnd schema = some m) : IsName m.name.toList := by
  have hm {x : Mention} : x ∈ tableMentions verbEnd ws.text → IsName x.word :=
    isName_of_mem_tableMentions
  simp only [resolveTable?] at h
  split at h
  · next hk =>
    cases h
    exact isName_of_knownMatch? (fun _ => hm) hk
  · split at h
    · next hk =>
      cases h
      exact isName_of_knownMatch? (fun _ => isName_of_mem_wordMentions) hk
    · obtain ⟨x, hx, rfl⟩ := Option.map_eq_some_iff.mp h
      rw [unknownMatch, String.toList_ofList]
      exact (hm (List.mem_of_mem_head? hx)).lower

end Interpretation

namespace Interpreter

open Interpretation

variable {t : Interpreter} {s : Subject}

/-! ### Intents -/

structure SourcedClauses (t : Interpreter) (s : Subject) (c : ReadClauses) : Prop where
  filter : Filter.Each (Sourced t s) c.filter
  groupBy : ∀ column, c.groupBy = some column → s.Names column
  orderBy : ∀ o, c.orderBy = some o → Orders t s o.column

/-- Every part of the intent has a source, and it is about the subject's table. -/
def SourcedIntent (t : Interpreter) (s : Subject) : Intent → Prop
  | .select table columns clauses =>
    table = s.table ∧ (∀ c ∈ columns, s.Names c) ∧ SourcedClauses t s clauses
  | .count table clauses => table = s.table ∧ SourcedClauses t s clauses
  | .insert table values => table = s.table ∧ ∀ a ∈ values, s.Assigns a
  | .update table assignments filter =>
    table = s.table ∧ (∀ a ∈ assignments, s.Assigns a) ∧ Filter.Each (Sourced t s) filter
  | .delete table filter => table = s.table ∧ Filter.Each (Sourced t s) filter

/-- A condition that was read before the others, if there is one. -/
def SourcedOption (t : Interpreter) (s : Subject) (p : Option Predicate) : Prop :=
  ∀ q, p = some q → q.Each (Sourced t s)

theorem gives_takeFilter {id recency : Option Predicate} (hi : SourcedOption t s id)
    (hr : SourcedOption t s recency) (ws : Workspace) :
    Gives s.Refuses (fun r => Filter.Each (Sourced t s) r.1) (takeFilter s id recency ws) := by
  have hone {p : Option Predicate} (hp : SourcedOption t s p) :
      Filter.Each (Sourced t s) (p.toList.map fun q => (Connective.and, q)) := by
    cases p with
    | none => trivial
    | some q => exact ⟨hp q rfl, trivial⟩
  refine (gives_takeConditions (t := t) ws).kept.bind fun r hc => ?_
  refine Filter.each_flattened ?_
  exact Filter.each_append.mpr ⟨Filter.each_append.mpr ⟨hone hi, hc⟩, hone hr⟩

theorem gives_takeRead {id recency : Option Predicate} (hi : SourcedOption t s id)
    (hr : SourcedOption t s recency) (count : Bool) (ws : Workspace) :
    Gives s.Refuses (fun r => SourcedClauses t s r.1) (t.takeRead s count id recency ws) := by
  refine (gives_takeFilter hi hr ws).bind fun f hf => ?_
  refine (gives_takeGroupBy count f.2).kept.bind fun g hg => ?_
  refine (gives_takeOrderBy (t := t) count g.2).kept.bind fun o ho => ?_
  exact ⟨hf, hg, fun _ => orders_applyLatest ho⟩

theorem gives_takeIntent {id recency : Option Predicate} (hi : SourcedOption t s id)
    (hr : SourcedOption t s recency) (o : Operation) (verbEnd tableEnd : Nat) (ws : Workspace) :
    Gives s.Refuses (fun r => SourcedIntent t s r.1 ∧ r.1.operation = o)
      (t.takeIntent s o verbEnd tableEnd id recency ws) := by
  cases o with
  | insert =>
    exact (gives_takeInsertValues tableEnd ws).kept.bind fun r h => ⟨⟨rfl, h⟩, rfl⟩
  | update =>
    refine (gives_takeSet ws).kept.bind fun r ha => ?_
    exact (gives_takeFilter hi hr _).bind fun f hf => ⟨⟨rfl, ha, hf⟩, rfl⟩
  | delete => exact (gives_takeFilter hi hr ws).bind fun f hf => ⟨⟨rfl, hf⟩, rfl⟩
  | count => exact (gives_takeRead hi hr true ws).bind fun r hc => ⟨⟨rfl, hc⟩, rfl⟩
  | select =>
    exact (gives_takeRead hi hr false ws).bind fun r hc =>
      ⟨⟨rfl, fun _ => names_of_mem_columnsLeft, hc⟩, rfl⟩

theorem sourced_recencyOf (w : Option TimeWindow) : SourcedOption t s (t.recencyOf s w).1 := by
  intro p hp
  simp only [recencyOf] at hp
  split at hp
  · cases hp
  · split at hp
    · next c hc =>
      cases hp
      exact hc
    · cases hp

theorem sourced_idFor (o : Operation) (tableEnd : Nat) (ws : Workspace) :
    SourcedOption t s (idFor o s tableEnd ws).1 := by
  intro p hp
  simp only [idFor] at hp
  split at hp
  · cases hp
  · exact sourced_takeId hp

/-! ### Requests -/

def Misread (e : Error) : Prop := e.stage = .interpretation

theorem gives_windowFor (o : Operation) (ws : Workspace) :
    Gives Misread (fun _ => True) (windowFor o ws).1 := by
  have hw (p : Grammar.TimePhrase) (h : Pattern.Hit) : Gives Misread (fun _ => True) (windowOf p h) := by
    cases p with
    | lastN =>
      simp only [windowOf]
      split
      · rfl
      · split
        · rfl
        · trivial
    | lastUnit =>
      simp only [windowOf]
      split <;> trivial
    | yesterday | today => trivial
  have hf (ps : List Grammar.TimePhrase) : Gives Misread (fun _ => True) (firstWindow ws ps).1 := by
    induction ps with
    | nil => trivial
    | cons p ps ih =>
      simp only [firstWindow]
      split
      · exact ih
      · next h _ =>
        have hp := hw p h
        split
        · next e he =>
          rw [he] at hp
          exact hp
        · trivial
        · exact ih
  simp only [windowFor]
  split
  · trivial
  · exact hf _

theorem gives_subjectOf (text : String) (verb : Bool) {m : Option TableMatch}
    (h : ∀ x, m = some x → IsName x.name.toList) :
    Gives Misread (fun x => IsName x.name.toList) (subjectOf text verb m) := by
  cases m with
  | none =>
    simp only [subjectOf]
    split <;> rfl
  | some x =>
    simp only [subjectOf]
    split
    · exact h x rfl
    · rfl

/-- What an interpretation says about the request it came from. -/
structure Grounded (t : Interpreter) (schema : Schema) (i : Interpretation) : Prop where
  sql : i.sql = i.intent.sql t.dialect
  operation : i.operation = i.intent.operation
  table : IsName i.table.toList
  intent : SourcedIntent t ⟨schema, i.table, i.known⟩ i.intent

/-- A request is refused at the stage of interpretation, or everything in its SQL has a source. -/
theorem gives_interpret {text : String} {schema : Schema} {r : Except Error Interpretation}
    (h : t.interpret text schema = r) : Gives Misread (Grounded t schema) r := by
  subst h
  simp only [interpret]
  split
  · rfl
  · -- Only the verb that was found matters, not how it was found.
    generalize Grammar.detect? (normalize text.toList) = verb
    generalize verb.getD (.select, 0) = v
    refine (gives_windowFor _ _).kept.bind fun w _ => ?_
    refine (gives_subjectOf text _ fun m hm => isName_of_resolveTable? hm).bind fun m hm => ?_
    have hid := sourced_idFor (t := t) (s := ⟨schema, m.name, m.known⟩)
    have hi := gives_takeIntent (hid v.1 m.span.stop (w.2.take m.span)) (sourced_recencyOf w.1)
    refine ((hi _ _ _ _).mono (fun _ => Subject.Refuses.stage) fun _ h => h).bind fun r hr => ?_
    exact ⟨rfl, hr.2.symm, hm, hr.1⟩

theorem grounded_of_interpret {text : String} {schema : Schema} {i : Interpretation}
    (h : t.interpret text schema = .ok i) : Grounded t schema i :=
  gives_interpret h

theorem stage_of_interpret {text : String} {schema : Schema} {e : Error}
    (h : t.interpret text schema = .error e) : e.stage = .interpretation :=
  gives_interpret h

end Interpreter

end Parlance
