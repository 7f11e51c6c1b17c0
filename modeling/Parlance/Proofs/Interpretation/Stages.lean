import Parlance.Interpretation

/-! An interpretation succeeds if each of its stages does. What the stages find and what they leave
of the text is written down once, for reading it off an interpretation and for putting one together. -/

namespace Parlance

theorem bind_eq_ok {α β : Type} {x : Except Error α} {f : α → Except Error β} {b : β}
    (h : x >>= f = .ok b) : ∃ a, x = .ok a ∧ f a = .ok b := by
  cases x with
  | error e => cases h
  | ok a => exact ⟨a, rfl, h⟩

@[simp] theorem ok_bind {α β : Type} (a : α) (f : α → Except Error β) : (.ok a >>= f) = f a := rfl

theorem exists_ok_of_any {α : Type} {x : Except Error α} {p : α → Bool} (h : x.toOption.any p = true) :
    ∃ a, x = .ok a ∧ p a = true := by
  cases x with
  | error e => cases h
  | ok a => exact ⟨a, rfl, h⟩

namespace Interpretation

theorem Taken.eq_of_kept {α : Type} {r : Taken α} {a : α} {ws : Workspace}
    (h : r.kept = .ok (a, ws)) : r = (.ok a, ws) := by
  obtain ⟨x, rest⟩ := r
  cases x with
  | error e => cases h
  | ok b =>
    cases h
    rfl

@[simp] theorem Taken.kept_ok {α : Type} (a : α) (ws : Workspace) :
    Taken.kept (.ok a, ws) = .ok (a, ws) := rfl

theorem form_of_firstCondition {s : Subject} {cs : List Char} {forms : List (Grammar.ConditionForm × Pattern)}
    {p : Predicate} {n : Nat} (h : firstCondition s cs forms = .ok (some (p, n))) :
    ∃ f ∈ forms, ∃ hit v, f.2.find? cs = some hit ∧ hit.span.stop = n ∧
      predicateOf s f.1 ((hit.text? Grammar.columnGroup).getD []) v = .ok (some p) := by
  induction forms with
  | nil => cases h
  | cons f forms ih =>
    have hlater (h : firstCondition s cs forms = .ok (some (p, n))) : ∃ g ∈ f :: forms, ∃ hit v,
        g.2.find? cs = some hit ∧ hit.span.stop = n ∧
          predicateOf s g.1 ((hit.text? Grammar.columnGroup).getD []) v = .ok (some p) := by
      obtain ⟨g, hg, hform⟩ := ih h
      exact ⟨g, List.mem_cons_of_mem f hg, hform⟩
    simp only [firstCondition] at h
    split at h
    · exact hlater h
    · next hit hh =>
      split at h
      · exact hlater h
      · obtain ⟨q, hq, h⟩ := bind_eq_ok h
        cases q with
        | none => exact hlater h
        | some q =>
          cases h
          exact ⟨f, List.mem_cons_self, hit, _, hh, rfl, hq⟩

/-- A condition that is found is of one of the forms. -/
theorem form_of_condition? {s : Subject} {cs : List Char} {p : Predicate} {n : Nat}
    (h : condition? s cs = .ok (some (p, n))) : ∃ f ∈ Grammar.conditionForms, ∃ hit v,
      f.2.find? cs = some hit ∧ hit.span.stop = n ∧
        predicateOf s f.1 ((hit.text? Grammar.columnGroup).getD []) v = .ok (some p) :=
  form_of_firstCondition h

end Interpretation

namespace Interpreter

open Interpretation

variable {t : Interpreter} {text : String} {schema : Schema}

theorem subjectOf_eq_ok {verb : Bool} {found : Option TableMatch} {m : TableMatch}
    (h : subjectOf text verb found = .ok m) : found = some m := by
  cases found with
  | none => cases h
  | some x =>
    simp only [subjectOf] at h
    split at h
    · cases h
      rfl
    · cases h

/-- The subject that a table found in the text stands for. -/
def subject (schema : Schema) (m : TableMatch) : Subject := ⟨schema, m.name, m.known⟩

/-- What the verb, the window, the table, the id and the rest of a request are found to be, and the
text that is left before the table is looked for. -/
structure Stages (t : Interpreter) (text : String) (schema : Schema) (v : Operation × Nat)
    (window : Option TimeWindow) (ws : Workspace) (m : TableMatch) (id : Option Predicate × Workspace)
    (result : Intent × List String) : Prop where
  verb_eq : (Grammar.detect? (normalize text.toList)).getD (.select, 0) = v
  window_eq : windowFor v.1 (takeVerb ⟨normalize text.toList⟩ v.2) = (.ok window, ws)
  table_eq : resolveTable? ws v.2 schema = some m
  id_eq : idFor v.1 (subject schema m) m.span.stop (ws.take m.span) = id
  intent_eq : t.takeIntent (subject schema m) v.1 v.2 m.span.stop id.1
    (t.recencyOf (subject schema m) window).1 id.2 = .ok result

theorem stages_of_interpret {i : Interpretation} (h : t.interpret text schema = .ok i) :
    ∃ v window ws m id warnings, Stages t text schema v window ws m id (i.intent, warnings) ∧
      i.table = m.name ∧ i.known = m.known := by
  simp only [interpret] at h
  split at h
  · cases h
  · generalize hverb : Grammar.detect? (normalize text.toList) = verb at h
    obtain ⟨⟨window, ws⟩, hwindow, h⟩ := bind_eq_ok h
    obtain ⟨m, hm, h⟩ := bind_eq_ok h
    obtain ⟨⟨intent, warnings⟩, hintent, h⟩ := bind_eq_ok h
    cases h
    refine ⟨_, window, ws, m, _, warnings, ⟨rfl, ?_, ?_, rfl, ?_⟩, rfl, rfl⟩
    · rw [hverb]
      exact Taken.eq_of_kept hwindow
    · rw [hverb]
      exact subjectOf_eq_ok hm
    · rw [hverb]
      exact hintent

theorem interpret_of_stages {v : Operation × Nat} {window : Option TimeWindow} {ws : Workspace}
    {m : TableMatch} {id : Option Predicate × Workspace} {result : Intent × List String}
    (h : Stages t text schema v window ws m id result) (hne : normalize text.toList ≠ [])
    (hm : m.known = true) : ∃ i, t.interpret text schema = .ok i ∧ i.intent = result.1 ∧
      i.table = m.name ∧ i.known = true := by
  have hempty : (normalize text.toList).isEmpty = false := by simpa using hne
  obtain ⟨hverb, hwindow, htable, hid, hintent⟩ := h
  subst hid
  have hsubject (b : Bool) : subjectOf text b (some m) = .ok m := by simp [subjectOf, hm]
  simp only [interpret, hempty, hverb, hwindow, htable, Taken.kept_ok, hsubject, ok_bind,
    Bool.false_eq_true, if_false]
  simp only [subject] at hintent
  simp only [hintent, ok_bind]
  exact ⟨_, rfl, rfl, rfl, hm⟩

end Interpreter

end Parlance
