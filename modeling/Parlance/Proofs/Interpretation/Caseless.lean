import Parlance.Proofs.Interpretation.Lowered

/-! The case of letters does not decide what a request means. Interpreting a request in lower case gives
what interpreting it as it stands gives, in lower case; so two requests that differ in the case of
ASCII letters alone are refused alike or lead to intents that differ in the case of values alone. -/

namespace Parlance

open Text (asciiLower Span)

namespace Interpretation

/-! ### Tables -/

def Mention.lowered (m : Mention) : Mention := ⟨asciiLower m.word, m.span⟩

theorem prepositionMentions_lowered (cs : List Char) :
    prepositionMentions (asciiLower cs) = (prepositionMentions cs).map Mention.lowered := by
  simp only [prepositionMentions, Pattern.hits_lowered Grammar.caseless_tablePreposition, List.filterMap_map,
    List.map_filterMap]
  congr 1
  funext h
  simp only [Function.comp_apply, Pattern.Hit.text?_lowered]
  cases h.text? 1 with
  | none => rfl
  | some w =>
    simp only [Option.map_some, Grammar.isFiller_lowered]
    split <;> rfl

theorem wordMentions_lowered (cs : List Char) :
    wordMentions (asciiLower cs) = (wordMentions cs).map Mention.lowered := by
  simp only [wordMentions, Pattern.hits_lowered Grammar.caseless_nameWord, List.filter_map, List.map_map,
    Function.comp_def, Pattern.Hit.text_lowered, Grammar.isFiller_lowered]
  rfl

theorem tableMentions_lowered (verbEnd : Nat) (cs : List Char) :
    tableMentions verbEnd (asciiLower cs) = (tableMentions verbEnd cs).map Mention.lowered := by
  simp only [tableMentions, verbMention, prepositionMentions_lowered, Text.dropTo_asciiLower,
    wordMentions_lowered, List.map_append]
  split
  · rfl
  · simp only [← List.map_take, List.map_map]
    rfl

theorem knownMatch?_lowered (schema : Schema) (ms : List Mention) :
    knownMatch? schema (ms.map Mention.lowered) = knownMatch? schema ms := by
  simp only [knownMatch?, lookupTable?, List.findSome?_map, Function.comp_def, Mention.lowered,
    Text.lower_asciiLower]

theorem resolveTable?_lowered (ws : Workspace) (verbEnd : Nat) (schema : Schema) :
    resolveTable? ws.lowered verbEnd schema = resolveTable? ws verbEnd schema := by
  have hunknown : unknownMatch ∘ Mention.lowered = unknownMatch := by
    funext m
    simp [unknownMatch, Mention.lowered]
  simp only [resolveTable?, Workspace.text_lowered, tableMentions_lowered, wordMentions_lowered,
    knownMatch?_lowered, List.head?_map, Option.map_map, hunknown]

/-! ### Windows -/

theorem windowOf_lowered (p : Grammar.TimePhrase) (h : Pattern.Hit) :
    windowOf p h.lowered = lowerResult id (windowOf p h) := by
  have hamount : (h.lowered.text? 1).bind Number.readWord32? = (h.text? 1).bind Number.readWord32? := by
    rw [Pattern.Hit.text?_lowered]
    cases h.text? 1 with
    | none => rfl
    | some w => simp [Number.readWord32?, readNat?_asciiLower]
  cases p with
  | lastN =>
    simp only [windowOf, hamount, Pattern.Hit.getD_text?_lowered, Text.lower_asciiLower,
      Pattern.Hit.text_lowered, Text.trim_asciiLower]
    cases (h.text? 1).bind Number.readWord32? with
    | none => simp [Error.lowered]
    | some amount =>
      simp only
      split
      · simp [Error.lowered]
      · rfl
  | lastUnit =>
    simp only [windowOf, Pattern.Hit.getD_text?_lowered, Text.lower_asciiLower]
    split <;> rfl
  | yesterday => rfl
  | today => rfl

theorem firstWindow_lowered (ws : Workspace) (ps : List Grammar.TimePhrase) :
    firstWindow ws.lowered ps = (firstWindow ws ps).lowered id := by
  induction ps with
  | nil => rfl
  | cons p ps ih =>
    simp only [firstWindow, Workspace.text_lowered, Pattern.find?_lowered p.caseless, ih]
    cases p.pattern.find? ws.text with
    | none => rfl
    | some hit =>
      simp only [Option.map_some, windowOf_lowered, Pattern.Hit.span_lowered, Workspace.take_lowered]
      cases windowOf p hit with
      | error e => rfl
      | ok window => cases window <;> rfl

end Interpretation

/-! ### Requests -/

/-- The intent in lower case, with its SQL and the request that it came from. -/
def Interpretation.lowered (d : Dialect) (i : Interpretation) : Interpretation :=
  { i with sql := i.intent.lowered.sql d, source := Text.lowered i.source, intent := i.intent.lowered }

/-- The same statement, but for the case of letters in literals and LIKE patterns. -/
structure Interpretation.Alike (i j : Interpretation) : Prop where
  operation : i.operation = j.operation
  table : i.table = j.table
  known : i.known = j.known
  warnings : i.warnings = j.warnings
  intent : i.intent.lowered = j.intent.lowered

theorem Interpretation.Alike.of_lowered {d : Dialect} {i j : Interpretation}
    (h : i.lowered d = j.lowered d) : i.Alike j := by
  simp only [lowered, Interpretation.mk.injEq] at h
  obtain ⟨-, ho, -, ht, hk, hi, hw⟩ := h
  exact ⟨ho, ht, hk, hw, hi⟩

/-- Both requests are understood alike, or both are refused for the same reason. -/
inductive Interpretation.OutcomesAlike : Except Error Interpretation → Except Error Interpretation → Prop
  | ok {i j : Interpretation} (h : i.Alike j) : OutcomesAlike (.ok i) (.ok j)
  | error {e e' : Error} (h : e.lowered = e'.lowered) : OutcomesAlike (.error e) (.error e')

namespace Interpreter

open Interpretation

variable {t : Interpreter} {s : Subject}

theorem normalize_lowered (cs : List Char) : normalize (asciiLower cs) = asciiLower (normalize cs) := by
  have hmarks : Text.Caseless (fun c => c = '?' || c = '.' || c = '!') := Text.caseless_of_ascii (by decide)
  simp only [normalize, Text.trim_asciiLower, Text.squeeze_asciiLower, Text.dropEndWhile_asciiLower hmarks,
    Text.trimEnd, Text.dropEndWhile_asciiLower Text.caseless_isBlank]

variable (byId recency : Option Predicate) (ws : Workspace)

theorem takeFilter_lowered : takeFilter s (byId.map Predicate.lowered) (recency.map Predicate.lowered) ws.lowered =
    lowerResult (fun r => (Filter.lowered r.1, r.2.lowered)) (takeFilter s byId recency ws) := by
  have hterm (p : Option Predicate) : (p.map Predicate.lowered).toList.map (Connective.and, ·) =
      Filter.lowered (p.toList.map (Connective.and, ·)) := by
    cases p <;> rfl
  simp only [takeFilter, takeConditions_lowered, Taken.kept_lowered, hterm]
  refine lowerResult_bind fun r => ?_
  simp only [← Filter.lowered_append, Filter.lowered_flattened]
  rfl

theorem takeRead_lowered (count : Bool) :
    t.takeRead s count (byId.map Predicate.lowered) (recency.map Predicate.lowered) ws.lowered =
      lowerResult (fun r => (r.1.lowered, r.2.1, r.2.2.lowered)) (t.takeRead s count byId recency ws) := by
  simp only [takeRead, takeFilter_lowered]
  refine lowerResult_bind fun r => ?_
  obtain ⟨filter, ws⟩ := r
  simp only [takeGroupBy_lowered, Taken.kept_lowered]
  refine lowerResult_bind fun r => ?_
  obtain ⟨groupBy, ws⟩ := r
  simp only [takeOrderBy_lowered, Taken.kept_lowered]
  refine lowerResult_bind fun r => ?_
  obtain ⟨order, ws⟩ := r
  simp only [takeLimit, takeLatest, takeNumber_lowered Grammar.caseless_limit,
    takeNumber_lowered Grammar.caseless_latest]
  rfl

theorem takeIntent_lowered (o : Operation) (verbEnd tableEnd : Nat) :
    t.takeIntent s o verbEnd tableEnd (byId.map Predicate.lowered) (recency.map Predicate.lowered) ws.lowered =
      lowerResult (fun r => (r.1.lowered, r.2)) (t.takeIntent s o verbEnd tableEnd byId recency ws) := by
  cases o with
  | insert =>
    simp only [takeIntent, takeInsertValues_lowered, Taken.kept_lowered]
    exact lowerResult_bind fun r => rfl
  | update =>
    simp only [takeIntent, takeSet_lowered, Taken.kept_lowered]
    refine lowerResult_bind fun r => ?_
    obtain ⟨values, ws⟩ := r
    simp only [takeFilter_lowered]
    exact lowerResult_bind fun r => rfl
  | delete =>
    simp only [takeIntent, takeFilter_lowered]
    exact lowerResult_bind fun r => rfl
  | count =>
    simp only [takeIntent, takeRead_lowered]
    exact lowerResult_bind fun r => rfl
  | select =>
    simp only [takeIntent, takeRead_lowered]
    refine lowerResult_bind fun r => ?_
    obtain ⟨clauses, warnings, ws⟩ := r
    simp only [columnsLeft_lowered]
    rfl

theorem recencyOf_lowered (window : Option TimeWindow) :
    (t.recencyOf s window).1.map Predicate.lowered = (t.recencyOf s window).1 := by
  cases window with
  | none => rfl
  | some w =>
    simp only [recencyOf]
    cases t.timestampColumn? s <;> rfl

theorem idFor_lowered (o : Operation) (tableEnd : Nat) : idFor o s tableEnd ws.lowered =
    ((idFor o s tableEnd ws).1.map Predicate.lowered, (idFor o s tableEnd ws).2.lowered) := by
  simp only [idFor, takeId_lowered]
  split <;> rfl

theorem takeVerb_lowered (verbEnd : Nat) : takeVerb ws.lowered verbEnd = (takeVerb ws verbEnd).lowered := by
  simp only [takeVerb, Workspace.take_lowered]
  split <;> rfl

theorem windowFor_lowered (o : Operation) : windowFor o ws.lowered = (windowFor o ws).lowered id := by
  simp only [windowFor, takeWindow, firstWindow_lowered]
  split <;> rfl

theorem subjectOf_lowered (text : String) (verb : Bool) (found : Option TableMatch) :
    subjectOf (Text.lowered text) verb found = lowerResult id (subjectOf text verb found) := by
  cases found with
  | none => cases verb <;> rfl
  | some m =>
    simp only [subjectOf]
    split <;> rfl

theorem interpret_lowered (t : Interpreter) (text : String) (schema : Schema) :
    t.interpret (Text.lowered text) schema =
      lowerResult (Interpretation.lowered t.dialect) (t.interpret text schema) := by
  simp only [interpret, Text.toList_lowered, normalize_lowered, Text.isEmpty_asciiLower,
    Grammar.detect?_lowered]
  split
  · rfl
  · generalize Grammar.detect? (normalize text.toList) = verb
    generalize normalize text.toList = normal
    obtain ⟨operation, verbEnd⟩ := verb.getD (.select, 0)
    have hws : (⟨asciiLower normal⟩ : Workspace) = Workspace.lowered ⟨normal⟩ := rfl
    simp only [hws, takeVerb_lowered, windowFor_lowered, Taken.kept_lowered]
    refine lowerResult_bind fun r => ?_
    obtain ⟨window, ws⟩ := r
    simp only [id_eq, resolveTable?_lowered, subjectOf_lowered]
    refine lowerResult_bind fun m => ?_
    have hintent := takeIntent_lowered (t := t) (s := ⟨schema, m.name, m.known⟩)
      (idFor operation ⟨schema, m.name, m.known⟩ m.span.stop (ws.take m.span)).1
      (t.recencyOf ⟨schema, m.name, m.known⟩ window).1
      (idFor operation ⟨schema, m.name, m.known⟩ m.span.stop (ws.take m.span)).2 operation verbEnd m.span.stop
    rw [recencyOf_lowered] at hintent
    simp only [id_eq, Workspace.take_lowered, idFor_lowered, hintent]
    refine lowerResult_bind fun r => ?_
    simp only [Intent.hasPlaceholders_lowered]
    rfl

/-- Whatever the schema, the dialect and the configured timestamps, requests that are equal up to the case
of ASCII letters have outcomes that are. -/
theorem interpret_caseless (t : Interpreter) (schema : Schema) {a b : String}
    (h : Text.sameWord a.toList b.toList = true) :
    OutcomesAlike (t.interpret a schema) (t.interpret b schema) := by
  have hsame := interpret_lowered t a schema
  rw [Text.lowered_eq_iff.mpr h, interpret_lowered] at hsame
  revert hsame
  cases t.interpret a schema with
  | ok i =>
    cases t.interpret b schema with
    | ok j => exact fun hsame => .ok (.of_lowered (Except.ok.inj hsame).symm)
    | error e => exact nofun
  | error e =>
    cases t.interpret b schema with
    | ok j => exact nofun
    | error e' => exact fun hsame => .error (Except.error.inj hsame).symm

theorem interpret_caseless_named :
    let schema : Schema := ⟨[⟨"t", [.ofType "name" "text"]⟩]⟩
    let t := ofDialect .sqlite
    ∃ i j, t.interpret "add T named Bob" schema = .ok i ∧
      t.interpret "Add t NAMED BOB" schema = .ok j ∧
      Text.sameWord "add T named Bob".toList "Add t NAMED BOB".toList = true ∧
      i.Alike j := by
  intro schema t
  have hok : (t.interpret "add T named Bob" schema).toOption.isSome = true := by decide +kernel
  have hword : Text.sameWord "add T named Bob".toList "Add t NAMED BOB".toList = true := by
    decide
  have halike := interpret_caseless t schema hword
  revert halike hok
  generalize t.interpret "add T named Bob" schema = x
  generalize t.interpret "Add t NAMED BOB" schema = y
  intro hok halike
  cases halike with
  | ok h => exact ⟨_, _, rfl, rfl, hword, h⟩
  | error h => cases hok

end Interpreter

end Parlance
