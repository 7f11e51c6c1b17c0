import Parlance.Proofs.Grammar.Lowered
import Parlance.Proofs.Intent.Lowered
import Parlance.Proofs.Interpretation.Grounded
import Parlance.Proofs.Interpretation.Stages

/-! The parts of an interpretation, taken from a text in lower case. Each takes the same bytes as before
and finds the same, in lower case; what it refuses, it refuses with the same error, in lower case. -/

namespace Parlance

open Text (asciiLower Span)

/-- A result in lower case, where `f` lowers what a success gives. -/
def lowerResult {α : Type} (f : α → α) : Except Error α → Except Error α
  | .ok a => .ok (f a)
  | .error e => .error e.lowered

section Results

variable {α β : Type} {f : α → α} {g : β → β}

@[simp] theorem lowerResult_ok (a : α) : lowerResult f (.ok a) = .ok (f a) := rfl

@[simp] theorem lowerResult_error (e : Error) : lowerResult f (.error e) = .error e.lowered := rfl

theorem lowerResult_bind {x : Except Error α} {k k' : α → Except Error β}
    (h : ∀ a, k' (f a) = lowerResult g (k a)) : (lowerResult f x >>= k') = lowerResult g (x >>= k) := by
  cases x with
  | error e => rfl
  | ok a => exact h a

theorem lowerResult_map {x : Except Error α} {k k' : α → β} (h : ∀ a, k' (f a) = g (k a)) :
    (lowerResult f x).map k' = lowerResult g (x.map k) := by
  cases x with
  | error e => rfl
  | ok a => exact congrArg Except.ok (h a)

end Results

namespace Interpretation

variable {s : Subject}

namespace Workspace

def lowered (ws : Workspace) : Workspace := ⟨asciiLower ws.text⟩

@[simp] theorem text_lowered (ws : Workspace) : ws.lowered.text = asciiLower ws.text := rfl

@[simp] theorem take_lowered (ws : Workspace) (b : Span) : ws.lowered.take b = (ws.take b).lowered := by
  simp [take, lowered]

@[simp] theorem after_lowered (ws : Workspace) (n : Nat) : ws.lowered.after n = asciiLower (ws.after n) := by
  simp [after]

@[simp] theorem words_lowered (ws : Workspace) (n : Nat) : ws.lowered.words n = ws.words n := by
  simp [words, Pattern.hits_lowered Grammar.caseless_nameWord]

end Workspace

namespace Taken

variable {α : Type} {f : α → α}

def lowered (f : α → α) (t : Taken α) : Taken α := (lowerResult f t.1, t.2.lowered)

theorem kept_lowered (t : Taken α) :
    (lowered f t).kept = lowerResult (fun a => (f a.1, a.2.lowered)) t.kept := by
  obtain ⟨x, ws⟩ := t
  cases x <;> rfl

end Taken

/-! ### Columns -/

namespace Subject

@[simp] theorem findColumn?_lowered (schema : Schema) (table : String) (w : List Char) :
    schema.findColumn? table (asciiLower w) = schema.findColumn? table w := by
  have hnamed (c : Column) : c.isNamed (asciiLower w) = c.isNamed w :=
    Text.sameWord_asciiLower_right ..
  simp only [Schema.findColumn?, hnamed]

@[simp] theorem column?_lowered (w : List Char) : s.column? (asciiLower w) = s.column? w := by
  simp [column?]

theorem resolve_lowered (w : List Char) : s.resolve (asciiLower w) = lowerResult id (s.resolve w) := by
  simp only [resolve, findColumn?_lowered, Text.lower_asciiLower]
  split
  · split
    · rfl
    · simp [Error.lowered]
  · rfl

end Subject

/-! ### Conditions -/

@[simp] theorem isNullWord_lowered (v : List Char) : isNullWord (asciiLower v) = isNullWord v :=
  Text.sameWord_asciiLower_left ..

theorem equality_lowered (column : String) (v : List Char) :
    equality column (asciiLower v) = (equality column v).lowered := by
  by_cases h : isNullWord v = true <;> simp [equality, h, Literal.ofText_lowered, Predicate.lowered]

theorem asciiLower_of_isNumeral {cs : List Char} (h : Literal.IsNumeral cs) : asciiLower cs = cs := by
  rcases h with h | h
  · exact Literal.asciiLower_of_isNumberChar (Bool.and_eq_true_iff.mp h).2
  · exact Text.asciiLower_eq_self (fun _ => Text.toLower_of_isDigit) h.2

theorem plain_lowered {l : Literal} (h : l.WellFormed) :
    Literal.plain l.lowered = Text.lowered (Literal.plain l) := by
  cases l with
  | number digits =>
    have hdigits := asciiLower_of_isNumeral h
    simp [Literal.lowered, Literal.plain, Text.lowered, hdigits]
  | text content => rfl
  | boolean value => cases value <;> decide

theorem predicateOf_lowered (form : Grammar.ConditionForm) (column v : List Char) :
    predicateOf s form (asciiLower column) (asciiLower v) =
      lowerResult (Option.map Predicate.lowered) (predicateOf s form column v) := by
  cases form with
  | isNotNull =>
    simp only [predicateOf, Subject.resolve_lowered]
    exact lowerResult_bind fun c => rfl
  | isNull =>
    simp only [predicateOf, Subject.resolve_lowered]
    exact lowerResult_bind fun c => rfl
  | compare op =>
    cases op with
    | equal =>
      simp only [predicateOf, Subject.resolve_lowered, equality_lowered]
      exact lowerResult_bind fun c => rfl
    | notEqual =>
      simp only [predicateOf, Subject.resolve_lowered, Literal.ofText_lowered]
      refine lowerResult_bind fun c => ?_
      by_cases h : isNullWord v = true <;> simp [h, Predicate.lowered]
    | _ =>
      simp only [predicateOf, Subject.resolve_lowered, Literal.ofText_lowered]
      exact lowerResult_bind fun c => rfl
  | like mode =>
    simp only [predicateOf, Subject.resolve_lowered, Literal.ofText_lowered,
      plain_lowered (Literal.wellFormed_ofText v)]
    exact lowerResult_bind fun c => rfl
  | implicit =>
    simp only [predicateOf, Subject.column?_lowered, Grammar.isOneOf_lowered, equality_lowered]
    cases s.column? column with
    | none => rfl
    | some c => by_cases h : Grammar.isOneOf keywordValues v = true <;> simp [h]

theorem caseless_isClosingMark : Text.Caseless isClosingMark := Text.caseless_of_ascii (by decide)

theorem firstCondition_lowered (cs : List Char) {forms : List (Grammar.ConditionForm × Pattern)}
    (h : ∀ f ∈ forms, f.2.Caseless) : firstCondition s (asciiLower cs) forms =
      lowerResult (Option.map fun q => (q.1.lowered, q.2)) (firstCondition s cs forms) := by
  induction forms with
  | nil => rfl
  | cons f forms ih =>
    obtain ⟨form, p⟩ := f
    obtain ⟨hp, hforms⟩ := List.forall_mem_cons.mp h
    simp only [firstCondition, Pattern.find?_lowered hp, ih hforms]
    cases p.find? cs with
    | none => rfl
    | some hit =>
      simp only [Option.map_some, Pattern.Hit.getD_text?_lowered, Grammar.isFiller_lowered,
        Text.dropEndWhile_asciiLower caseless_isClosingMark, predicateOf_lowered]
      split
      · rfl
      · refine lowerResult_bind fun q => ?_
        cases q <;> rfl

theorem condition?_lowered (cs : List Char) : condition? s (asciiLower cs) =
    lowerResult (Option.map fun q => (q.1.lowered, q.2)) (condition? s cs) :=
  firstCondition_lowered cs fun _ => Grammar.caseless_of_mem_conditionForms

theorem chainFrom_lowered (fuel : Nat) (c : Connective) (cs : List Char) :
    chainFrom s fuel c (asciiLower cs) =
      lowerResult (fun r => (Filter.lowered r.1, r.2)) (chainFrom s fuel c cs) := by
  induction fuel generalizing c cs with
  | zero => rfl
  | succ fuel ih =>
    simp only [chainFrom, condition?_lowered]
    refine lowerResult_bind fun q => ?_
    cases q with
    | none => rfl
    | some q =>
      obtain ⟨p, n⟩ := q
      simp only [Option.map_some, Text.dropTo_asciiLower, Pattern.find?_lowered Grammar.caseless_connective]
      cases Grammar.connective.find? (Text.dropTo n cs) with
      | none => rfl
      | some hit =>
        simp only [Option.map_some, Pattern.Hit.span_lowered, condition?_lowered]
        refine lowerResult_bind fun q => ?_
        cases q with
        | none => rfl
        | some q =>
          simp only [Option.map_some, Pattern.Hit.getD_text?_lowered, connectiveOf, Text.lower_asciiLower, ih]
          exact lowerResult_bind fun r => rfl

theorem chain_lowered (cs : List Char) : chain s (asciiLower cs) =
    lowerResult (fun r => (Filter.lowered r.1, r.2)) (chain s cs) := by
  rw [chain, chain, Text.length_asciiLower, chainFrom_lowered]

theorem chainTerms_lowered (f : Filter) : chainTerms (Filter.lowered f) = Filter.lowered (chainTerms f) := by
  have hor : Filter.hasOr (Filter.lowered f) = Filter.hasOr f := by
    simp [Filter.hasOr, Filter.lowered_eq_map, Function.comp_def]
  rw [chainTerms, chainTerms, hor]
  split
  · rfl
  · simp [Filter.lowered_eq_map, Function.comp_def]

theorem conditionsFrom_lowered (fuel low : Nat) (ws : Workspace) :
    conditionsFrom s fuel low ws.lowered = (conditionsFrom s fuel low ws).lowered Filter.lowered := by
  induction fuel generalizing low ws with
  | zero => rfl
  | succ fuel ih =>
    simp only [conditionsFrom, Workspace.text_lowered, Pattern.findAfter?_lowered Grammar.caseless_conditionCue]
    cases Grammar.conditionCue.findAfter? low ws.text with
    | none => rfl
    | some hit =>
      simp only [Option.map_some, Pattern.Hit.span_lowered, Workspace.after_lowered, chain_lowered]
      cases chain s (ws.after hit.span.stop) with
      | error e => rfl
      | ok r =>
        obtain ⟨terms, n⟩ := r
        cases terms with
        | nil => exact ih hit.span.stop ws
        | cons t terms =>
          obtain ⟨c, p⟩ := t
          have hterms := chainTerms_lowered ((c, p) :: terms)
          simp only [Filter.lowered] at hterms
          simp only [lowerResult_ok, Filter.lowered, Workspace.take_lowered, ih, hterms]
          exact Prod.ext (lowerResult_map fun more => (Filter.lowered_append ..).symm) rfl

theorem takeConditions_lowered (ws : Workspace) :
    takeConditions s ws.lowered = (takeConditions s ws).lowered Filter.lowered := by
  rw [takeConditions, takeConditions, Workspace.text_lowered, Text.size_asciiLower, conditionsFrom_lowered]

/-! ### Values -/

theorem assignmentsFrom_lowered (fuel : Nat) (cs : List Char) : assignmentsFrom s fuel (asciiLower cs) =
    lowerResult (fun r => (r.1.map Assignment.lowered, r.2)) (assignmentsFrom s fuel cs) := by
  induction fuel generalizing cs with
  | zero => rfl
  | succ fuel ih =>
    simp only [assignmentsFrom, Pattern.find?_lowered Grammar.caseless_assignment]
    cases Grammar.assignment.find? cs with
    | none => rfl
    | some hit =>
      simp only [Option.map_some, Pattern.Hit.getD_text?_lowered, Grammar.isFiller_lowered,
        Text.sameWord_asciiLower_left, Subject.resolve_lowered, Pattern.Hit.span_lowered, Text.dropTo_asciiLower,
        Text.dropEndWhile_asciiLower caseless_isClosingMark, Literal.ofText_lowered,
        Pattern.find?_lowered Grammar.caseless_assignmentSeparator]
      split
      · rfl
      · refine lowerResult_bind fun column => ?_
        cases Grammar.assignmentSeparator.find? (Text.dropTo hit.span.stop cs) with
        | none => rfl
        | some sep =>
          simp only [Option.map_some, Pattern.Hit.span_lowered,
            Pattern.holds_lowered Grammar.caseless_assignment, ih]
          split
          · exact lowerResult_bind fun r => rfl
          · rfl

theorem assignments_lowered (cs : List Char) : assignments s (asciiLower cs) =
    lowerResult (fun r => (r.1.map Assignment.lowered, r.2)) (assignments s cs) := by
  rw [assignments, assignments, Text.length_asciiLower, assignmentsFrom_lowered]

theorem takeNamed_lowered (ws : Workspace) : takeNamed s ws.lowered =
    ((takeNamed s ws).1.map Assignment.lowered, (takeNamed s ws).2.lowered) := by
  simp only [takeNamed, Workspace.text_lowered, Pattern.find?_lowered Grammar.caseless_named]
  cases Grammar.named.find? ws.text with
  | none => rfl
  | some hit =>
    cases nameColumn? s with
    | none => rfl
    | some column =>
      simp only [Option.map_some, Pattern.Hit.getD_text?_lowered, Literal.ofText_lowered,
        Pattern.Hit.span_lowered, Workspace.take_lowered]
      rfl

theorem takePairs_lowered (cue : Span) (ws : Workspace) :
    takePairs s cue ws.lowered = (takePairs s cue ws).lowered (List.map Assignment.lowered) := by
  simp only [takePairs, Workspace.after_lowered, assignments_lowered]
  cases assignments s (ws.after cue.stop) with
  | error e => rfl
  | ok r =>
    obtain ⟨new, n⟩ := r
    cases new with
    | nil => rfl
    | cons a new =>
      simp only [lowerResult_ok, List.map_cons, Workspace.take_lowered]
      rfl

theorem valuesStart?_lowered (tableEnd : Nat) (ws : Workspace) :
    valuesStart? tableEnd ws.lowered = valuesStart? tableEnd ws := by
  have hblank := Text.dropWhile_asciiLower Text.caseless_isBlank (ws.after tableEnd)
  simp only [valuesStart?, Workspace.text_lowered, Pattern.find?_lowered Grammar.caseless_valuesCue,
    Workspace.after_lowered, Text.trimStart, hblank, Text.size_asciiLower]
  cases Grammar.valuesCue.find? ws.text <;> rfl

theorem addValues_lowered (values new : List Assignment) :
    addValues (values.map Assignment.lowered) (new.map Assignment.lowered) =
      (addValues values new).map Assignment.lowered := by
  have hany (vs : List Assignment) (a : Assignment) :
      (vs.map Assignment.lowered).any (·.column = a.lowered.column) = vs.any (·.column = a.column) := by
    rw [List.any_map]
    rfl
  simp only [addValues]
  induction new generalizing values with
  | nil => rfl
  | cons a new ih =>
    by_cases ha : values.any (·.column = a.column) = true
    · simp only [List.map_cons, List.foldl_cons, hany, ha, if_true]
      exact ih values
    · have hnext := ih (values ++ [a])
      rw [List.map_append] at hnext
      simp only [List.map_cons, List.foldl_cons, hany, ha, Bool.false_eq_true, if_false]
      exact hnext

theorem takeInsertValues_lowered (tableEnd : Nat) (ws : Workspace) :
    takeInsertValues s tableEnd ws.lowered =
      (takeInsertValues s tableEnd ws).lowered (List.map Assignment.lowered) := by
  simp only [takeInsertValues, takeNamed_lowered, valuesStart?_lowered]
  cases valuesStart? tableEnd (takeNamed s ws).2 with
  | none => rfl
  | some start =>
    simp only [takePairs_lowered]
    exact Prod.ext (lowerResult_map fun new => addValues_lowered ..) rfl

theorem takeSet_lowered (ws : Workspace) :
    takeSet s ws.lowered = (takeSet s ws).lowered (List.map Assignment.lowered) := by
  simp only [takeSet, Workspace.text_lowered, Pattern.find?_lowered Grammar.caseless_setCue]
  cases Grammar.setCue.find? ws.text with
  | none => rfl
  | some hit => exact takePairs_lowered hit.span ws

/-! ### Short clauses -/

theorem takeId_lowered (tableEnd : Nat) (ws : Workspace) : takeId s tableEnd ws.lowered =
    ((takeId s tableEnd ws).1.map Predicate.lowered, (takeId s tableEnd ws).2.lowered) := by
  simp only [takeId, Workspace.after_lowered, Pattern.find?_lowered Grammar.caseless_idShorthand]
  split
  · rfl
  · cases hh : Grammar.idShorthand.find? (ws.after tableEnd) with
    | none => rfl
    | some hit =>
      -- Digits have no case, so that the number is the same.
      obtain ⟨w, hw, hnumeral⟩ := isNumeral_of_idShorthand hh
      simp only [Option.map_some, Pattern.Hit.getD_text?_lowered, hw, Option.getD_some,
        asciiLower_of_isNumeral hnumeral, Pattern.Hit.span_lowered, Workspace.take_lowered]
      rfl

@[simp] theorem wordBefore_lowered (n : Nat) (cs : List Char) :
    wordBefore n (asciiLower cs) = asciiLower (wordBefore n cs) := by
  simp only [wordBefore, Text.takeTo_asciiLower, Text.words_asciiLower, List.getLast?_map]
  cases (Text.words (Text.takeTo n cs)).getLast? <;> rfl

theorem isGrouping_lowered (bare : Bool) (cs : List Char) (h : Pattern.Hit) :
    isGrouping bare (asciiLower cs) h.lowered = isGrouping bare cs h := by
  simp only [isGrouping, Pattern.Hit.getD_text?_lowered, Text.lower_asciiLower, Pattern.Hit.span_lowered,
    wordBefore_lowered, Grammar.isOneOf_lowered]

theorem takeGroupBy_lowered (bare : Bool) (ws : Workspace) :
    takeGroupBy s bare ws.lowered = (takeGroupBy s bare ws).lowered id := by
  have hgrouping : isGrouping bare (asciiLower ws.text) ∘ Pattern.Hit.lowered = isGrouping bare ws.text :=
    funext (isGrouping_lowered bare ws.text)
  simp only [takeGroupBy, Workspace.text_lowered, Pattern.hits_lowered Grammar.caseless_groupBy, List.find?_map,
    hgrouping]
  cases (Grammar.groupBy.hits ws.text).find? (isGrouping bare ws.text) with
  | none => rfl
  | some hit =>
    simp only [Option.map_some, Pattern.Hit.getD_text?_lowered, Subject.resolve_lowered,
      Pattern.Hit.span_lowered, Workspace.take_lowered]
    cases s.resolve ((hit.text? 2).getD []) <;> rfl

theorem orderColumn_lowered (count : Bool) (w : List Char) :
    orderColumn s count (asciiLower w) = lowerResult id (orderColumn s count w) := by
  simp only [orderColumn, Text.sameWord_asciiLower_left, Subject.resolve_lowered]
  split <;> rfl

theorem takeOrderBy_lowered (count : Bool) (ws : Workspace) :
    takeOrderBy s count ws.lowered = (takeOrderBy s count ws).lowered id := by
  simp only [takeOrderBy, Workspace.text_lowered, Pattern.find?_lowered Grammar.caseless_orderBy]
  cases Grammar.orderBy.find? ws.text with
  | none => rfl
  | some hit =>
    have hdescending : (hit.lowered.text? 2).any startsDescending = (hit.text? 2).any startsDescending := by
      rw [Pattern.Hit.text?_lowered]
      cases hit.text? 2 with
      | none => rfl
      | some w => simp [startsDescending]
    simp only [Option.map_some, Pattern.Hit.getD_text?_lowered, orderColumn_lowered, hdescending,
      Pattern.Hit.span_lowered, Workspace.take_lowered]
    cases orderColumn s count ((hit.text? 1).getD []) <;> rfl

theorem readNat?_asciiLower (cs : List Char) : Number.readNat? (asciiLower cs) = Number.readNat? cs := by
  have hdigits (ds : List Char) : Number.readDigits? (asciiLower ds) = Number.readDigits? ds := by
    simp only [Number.readDigits?, Text.isEmpty_asciiLower, Text.all_asciiLower Text.caseless_isAsciiDigit]
    split
    · next h =>
      have hall : ∀ c ∈ ds, Text.isAsciiDigit c = true := List.all_eq_true.mp (Bool.and_eq_true_iff.mp h).2
      rw [Text.asciiLower_eq_self (fun c hc => Text.toLower_of_isDigit (by simp [Text.isDigit, hc])) hall]
    · rfl
  cases cs with
  | nil => rfl
  | cons c cs =>
    by_cases hc : c = '+'
    · subst hc
      exact hdigits cs
    · have hlow : c.toLower ≠ '+' := mt (Text.toLower_eq_iff rfl c).mp hc
      have hplain : Number.readNat? (c :: cs) = Number.readDigits? (c :: cs) := by simp [Number.readNat?, hc]
      rw [hplain, ← hdigits, Text.asciiLower_cons]
      simp [Number.readNat?, hlow]

theorem readWord64?_text?_lowered (h : Pattern.Hit) (n : Nat) :
    (h.lowered.text? n).bind Number.readWord64? = (h.text? n).bind Number.readWord64? := by
  rw [Pattern.Hit.text?_lowered]
  cases h.text? n with
  | none => rfl
  | some w => simp [Number.readWord64?, readNat?_asciiLower]

theorem takeNumber_lowered {p : Pattern} (hp : p.Caseless) (ws : Workspace) :
    takeNumber p ws.lowered = ((takeNumber p ws).1, (takeNumber p ws).2.lowered) := by
  simp only [takeNumber, Workspace.text_lowered, Pattern.find?_lowered hp]
  cases p.find? ws.text with
  | none => rfl
  | some hit =>
    simp only [Option.map_some, readWord64?_text?_lowered, Pattern.Hit.span_lowered, Workspace.take_lowered]
    cases (hit.text? 1).bind Number.readWord64? <;> rfl

theorem columnsLeft_lowered (verbEnd : Nat) (ws : Workspace) :
    columnsLeft s verbEnd ws.lowered = columnsLeft s verbEnd ws := by
  rw [columnsLeft, columnsLeft, Workspace.words_lowered]

end Interpretation

end Parlance
