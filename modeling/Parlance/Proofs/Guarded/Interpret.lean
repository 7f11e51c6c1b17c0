import Parlance.Proofs.Guarded.Clause
import Parlance.Proofs.Guarded.Table

/-! Interpreting with a guard at every cut, at every claim and on every pass of a loop. No request meets a fault,
whatever its characters, and the interpretation is the one without guards. -/

namespace Parlance

open Text (size isBoundary bytes blanked)
open Interpretation (Subject unknownMatch)
open Interpreter (normalize subjectOf unknownTableWarning placeholderWarning)

/-- The words of a verb end where a character ends. -/
theorem Grammar.boundary_of_detect? {cs : List Char} : isBoundary ((detect? cs).getD (.select, 0)).2 cs = true := by
  cases hv : detect? cs with
  | none => exact Text.isBoundary_zero cs
  | some v =>
    obtain ⟨verb, -, hhit⟩ := List.exists_of_findSome?_eq_some hv
    obtain ⟨h, hh, rfl⟩ := Option.map_eq_some_iff.mp hhit
    exact (Pattern.fits_of_find? hh).stop

namespace Guarded

variable {t : Interpreter} {s : Subject} {d : Sheet} {id recency : Option Predicate}

/-! ### Statements -/

def takeFilter (s : Subject) (id recency : Option Predicate) : Guarded Filter := do
  let conditions ← takeConditions s
  let term (p : Predicate) : Connective × Predicate := (.and, p)
  pure (Filter.flattened (id.toList.map term ++ conditions ++ recency.toList.map term))

def takeRead (t : Interpreter) (s : Subject) (count : Bool) (id recency : Option Predicate) :
    Guarded (ReadClauses × List String) := do
  let filter ← takeFilter s id recency
  let groupBy ← takeGroupBy s count
  let order ← takeOrderBy s count
  let limit ← takeNumber Grammar.limit
  let latest ← takeNumber Grammar.latest
  let (limit, order, warnings) := t.applyLatest s latest limit order
  pure (⟨filter, groupBy, order, limit⟩, warnings)

def takeIntent (t : Interpreter) (s : Subject) (o : Operation) (verbEnd tableEnd : Nat)
    (id recency : Option Predicate) : Guarded (Intent × List String) := do
  match o with
  | .insert =>
    let values ← takeInsertValues s tableEnd
    pure (.insert s.table values, [])
  | .update =>
    let values ← takeSet s
    let filter ← takeFilter s id recency
    pure (.update s.table values filter, [])
  | .delete =>
    let filter ← takeFilter s id recency
    pure (.delete s.table filter, [])
  | .count =>
    let (clauses, warnings) ← takeRead t s true id recency
    pure (.count s.table clauses, warnings)
  | .select =>
    let (clauses, warnings) ← takeRead t s false id recency
    let columns ← columnsLeft s verbEnd
    pure (.select s.table columns clauses, warnings)

def keptRead (r : ReadClauses × List String) (d : Sheet) : ReadClauses × List String × Interpretation.Workspace :=
  (r.1, r.2, ⟨d.text⟩)

def only {α : Type} (a : α) (_ : Sheet) : α := a

theorem reads_takeFilter : Reads (takeFilter s id recency) d kept (Interpreter.takeFilter s id recency ⟨d.text⟩) :=
  .bind reads_takeConditions fun _ _ _ _ => .pure

theorem reads_takeRead {count : Bool} :
    Reads (takeRead t s count id recency) d keptRead (t.takeRead s count id recency ⟨d.text⟩) := by
  refine .bind reads_takeFilter fun filter d₁ _ _ => ?_
  refine .bind reads_takeGroupBy fun groupBy d₂ _ _ => ?_
  refine .bind reads_takeOrderBy fun order d₃ _ _ => ?_
  have hlimit := reads_takeNumber (p := Grammar.limit) (d := d₃)
  simp only [kept, Interpretation.takeLimit, Interpretation.takeLatest]
  generalize Interpretation.takeNumber Grammar.limit ⟨d₃.text⟩ = limit at hlimit ⊢
  obtain ⟨limit, ⟨cs⟩⟩ := limit
  refine .bind_ok hlimit fun d₄ _ htext => ?_
  cases htext
  have hlatest := reads_takeNumber (p := Grammar.latest) (d := d₄)
  dsimp only
  generalize Interpretation.takeNumber Grammar.latest ⟨d₄.text⟩ = latest at hlatest ⊢
  obtain ⟨latest, ⟨cs⟩⟩ := latest
  refine .bind_ok hlatest fun d₅ _ htext => ?_
  cases htext
  exact .pure

theorem reads_takeIntent {o : Operation} {verbEnd tableEnd : Nat} (hverb : isBoundary verbEnd d.text = true)
    (htable : isBoundary tableEnd d.text = true) : Reads (takeIntent t s o verbEnd tableEnd id recency) d only
      (t.takeIntent s o verbEnd tableEnd id recency ⟨d.text⟩) := by
  cases o with
  | insert => exact .bind (reads_takeInsertValues htable) fun _ _ _ _ => .pure
  | update => exact .bind reads_takeSet fun _ _ _ _ => .bind reads_takeFilter fun _ _ _ _ => .pure
  | delete => exact .bind reads_takeFilter fun _ _ _ _ => .pure
  | count => exact .bind reads_takeRead fun _ _ _ _ => .pure
  | select =>
    refine .bind reads_takeRead fun r d' _ hleads => ?_
    exact .bind_ok (reads_columnsLeft (hleads.boundary _ hverb)) fun d'' _ _ => .pure

/-! ### Requests -/

def takeVerb (verbEnd : Nat) : Guarded Unit := if 0 < verbEnd then claim ⟨0, verbEnd⟩ else pure ()

def windowFor (o : Operation) : Guarded (Option TimeWindow) := if o = .insert then pure none else takeWindow

def idFor (o : Operation) (s : Subject) (tableEnd : Nat) : Guarded (Option Predicate) :=
  if o = .insert then pure none else takeId s tableEnd

def interpret (t : Interpreter) (text : String) (schema : Schema) : Guarded Interpretation := do
  let normal ← read
  if normal.isEmpty then answer (.error (.unrecognizedIntent text))
  else do
    let verb := Grammar.detect? normal
    let (operation, verbEnd) := verb.getD (.select, 0)
    takeVerb verbEnd
    let window ← windowFor operation
    let found ← resolveTable? verbEnd schema
    let m ← answer (subjectOf text verb.isSome found)
    claim m.span
    let s : Subject := ⟨schema, m.name, m.known⟩
    let id ← idFor operation s m.span.stop
    let (recency, timeWarnings) := t.recencyOf s window
    let (intent, warnings) ← takeIntent t s operation verbEnd m.span.stop id recency
    pure {
      sql := intent.sql t.dialect
      operation := operation
      source := text
      table := m.name
      known := m.known
      intent := intent
      warnings := (if m.known then [] else [unknownTableWarning m.name schema]) ++ timeWarnings ++ warnings
        ++ (if intent.hasPlaceholders then [placeholderWarning operation] else []) }

theorem reads_takeVerb {verbEnd : Nat} (h : isBoundary verbEnd d.text = true) :
    Reads (takeVerb verbEnd) d kept (.ok ((), Interpreter.takeVerb ⟨d.text⟩ verbEnd)) := by
  have hspan : Text.Span.Fits ⟨0, verbEnd⟩ d.text := ⟨Text.isBoundary_zero _, h, Nat.zero_le _⟩
  rw [takeVerb, Interpreter.takeVerb]
  split
  · exact .claim hspan
  · exact .pure

theorem reads_windowFor {o : Operation} : Reads (windowFor o) d kept (Interpreter.windowFor o ⟨d.text⟩).kept := by
  rw [windowFor, Interpreter.windowFor]
  split
  · exact .pure
  · exact reads_firstWindow _

theorem reads_idFor {o : Operation} {tableEnd : Nat} (h : isBoundary tableEnd d.text = true) :
    Reads (idFor o s tableEnd) d kept (.ok (Interpreter.idFor o s tableEnd ⟨d.text⟩)) := by
  rw [idFor, Interpreter.idFor]
  split
  · exact .pure
  · exact reads_takeId h

theorem reads_interpret {text : String} {schema : Schema} (hd : d.text = normalize text.toList) :
    Reads (interpret t text schema) d only (t.interpret text schema) := by
  refine .read_bind ?_
  rw [Interpreter.interpret, hd]
  dsimp only
  split
  · exact ⟨_, d, rfl, .refl d, rfl⟩
  · have hverb : isBoundary ((Grammar.detect? (normalize text.toList)).getD (.select, 0)).2 d.text = true := by
      rw [hd]
      exact Grammar.boundary_of_detect?
    generalize Grammar.detect? (normalize text.toList) = verb at hverb ⊢
    generalize verb.getD (.select, 0) = v at hverb ⊢
    obtain ⟨operation, verbEnd⟩ := v
    have htaken := reads_takeVerb hverb
    rw [hd] at htaken
    generalize Interpreter.takeVerb ⟨normalize text.toList⟩ verbEnd = ws at htaken ⊢
    obtain ⟨cs⟩ := ws
    refine .bind_ok htaken fun d₁ hleads₁ htext => ?_
    cases htext
    refine .bind reads_windowFor fun window d₂ _ hleads₂ => ?_
    -- The end of the verb was found in the text as it was before every claim.
    have hverb₂ := hleads₂.boundary _ (hleads₁.boundary _ hverb)
    refine .bind_ok (reads_resolveTable? hverb₂) fun d₃ hleads₃ htext => ?_
    have hverb₃ := hleads₃.boundary _ hverb₂
    dsimp only [kept]
    rw [← htext]
    cases hm : subjectOf text verb.isSome (Interpretation.resolveTable? ⟨d₃.text⟩ verbEnd schema) with
    | error e => exact .answer_error rfl
    | ok m =>
      have hspan : m.span.Fits d₃.text := fits_of_resolveTable? hverb₃ (Interpreter.subjectOf_eq_ok hm)
      refine .answer_ok rfl (.claim_bind hspan fun d₄ hleads₄ htext => ?_)
      have hid := reads_idFor (o := operation) (s := ⟨schema, m.name, m.known⟩) (hleads₄.boundary _ hspan.stop)
      rw [htext] at hid
      dsimp only [ok_bind, Interpretation.Workspace.take]
      generalize Interpreter.idFor operation ⟨schema, m.name, m.known⟩ m.span.stop
        ⟨Text.blankOut m.span d₃.text⟩ = id at hid ⊢
      obtain ⟨id, ⟨cs⟩⟩ := id
      refine .bind_ok hid fun d₅ hleads₅ htext => ?_
      cases htext
      have hleads := hleads₄.trans hleads₅
      exact .bind (reads_takeIntent (hleads.boundary _ hverb₃) (hleads.boundary _ hspan.stop)) fun _ _ _ _ => .pure

/-- With and without guards a request is interpreted alike, and of its normal form only bytes that were claimed have
become spaces; plurals and singulars of any word are formed without a fault too. -/
theorem interpret_faultless (t : Interpreter) (text : String) (schema : Schema) :
    (∃ d, interpret t text schema ⟨normalize text.toList, []⟩ = .ok (t.interpret text schema, d) ∧
      size d.text = size (normalize text.toList) ∧
      bytes d.text = blanked d.claimed (bytes (normalize text.toList))) ∧
    ∀ w, pluralize w = .ok (Inflection.pluralize w) ∧ singularize w = .ok (Inflection.singularize w) := by
  refine ⟨?_, fun w => ⟨pluralize_eq w, singularize_eq w⟩⟩
  generalize hnormal : normalize text.toList = normal
  have hreads : Reads (interpret t text schema) ⟨normal, []⟩ only (t.interpret text schema) :=
    reads_interpret hnormal.symm
  obtain ⟨r, d, hrun, hleads, hview⟩ := hreads
  obtain ⟨new, hclaimed, hbytes⟩ := hleads.bytes_eq
  have hr : r = t.interpret text schema := by
    rw [← hview]
    cases r with
    | error e => rfl
    | ok i => rfl
  refine ⟨d, ?_, hleads.size_eq, ?_⟩
  · rw [hrun, hr]
  · rw [hclaimed, List.append_nil]
    exact hbytes

end Guarded
end Parlance
