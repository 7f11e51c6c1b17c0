import Parlance.Interpretation.Clause
import Parlance.Interpretation.Window
import Parlance.Proofs.Guarded.Chain

/-! The parts of a request that are claimed from its text, with a guard at every cut and at every claim. Offsets
that were found before a claim are used behind it: a place of the text is a place still. -/

namespace Parlance

open Text (Span size isBoundary dropTo)
open Grammar (TimePhrase isFiller isOneOf)
open Interpretation (Subject windowOf chainTerms nameColumn? addValues isGrouping orderWords orderColumn
  startsDescending addColumn)

namespace Guarded

variable {s : Subject} {d : Sheet}

/-! ### Window and id -/

def firstWindow : List TimePhrase → Guarded (Option TimeWindow)
  | [] => pure none
  | p :: ps => do
    let cs ← read
    match p.pattern.find? cs with
    | none => firstWindow ps
    | some h => do
      match ← answer (windowOf p h) with
      | some w => do
        claim h.span
        pure (some w)
      | none => firstWindow ps

def takeWindow : Guarded (Option TimeWindow) := firstWindow TimePhrase.all

theorem reads_firstWindow (ps : List TimePhrase) :
    Reads (firstWindow ps) d kept (Interpretation.firstWindow ⟨d.text⟩ ps).kept := by
  induction ps with
  | nil => exact .pure
  | cons p ps ih =>
    rw [firstWindow, Interpretation.firstWindow]
    refine .read_bind ?_
    dsimp only
    cases hh : p.pattern.find? d.text with
    | none => exact ih
    | some h =>
      dsimp only
      cases hw : windowOf p h with
      | error e => exact .answer_error rfl
      | ok w =>
        refine .answer_ok rfl ?_
        cases w with
        | none => exact ih
        | some w =>
          exact .claim_pure (Pattern.fits_of_find? hh)

def takeId (s : Subject) (tableEnd : Nat) : Guarded (Option Predicate) :=
  if !s.hasId then pure none
  else do
    let cs ← after tableEnd
    match Grammar.idShorthand.find? cs with
    | none => pure none
    | some h => do
      claim (h.span.shift tableEnd)
      let column := (s.column? "id".toList).getD "id"
      let number := String.ofList ((h.text? 1).getD [])
      pure (some (.compare column .equal (.number number)))

theorem reads_takeId {tableEnd : Nat} (h : isBoundary tableEnd d.text = true) :
    Reads (takeId s tableEnd) d kept (.ok (Interpretation.takeId s tableEnd ⟨d.text⟩)) := by
  rw [takeId, Interpretation.takeId]
  split
  · exact .pure
  · refine .after_bind h ?_
    simp only [Interpretation.Workspace.after]
    cases hh : Grammar.idShorthand.find? (dropTo tableEnd d.text) with
    | none => exact .pure
    | some hit =>
      exact .claim_pure ((Pattern.fits_of_find? hh).shift h)

/-! ### Conditions -/

def conditionsFrom (s : Subject) (limit low : Nat) : Guarded Filter := do
  let cs ← read
  -- A search begins at a place of the text.
  let _ ← after low
  match Grammar.conditionCue.findAfter? low cs with
  | none => pure []
  | some h => do
    let (terms, stop) ← chainFrom s limit h.span.stop .and
    match terms with
    | [] => onward limit low h.span.stop fun _ _ => conditionsFrom s limit h.span.stop
    | t :: ts => do
      claim ⟨h.span.start, stop⟩
      onward limit low stop fun _ _ => do
        let more ← conditionsFrom s limit stop
        pure (chainTerms (t :: ts) ++ more)
termination_by limit - low

def takeConditions (s : Subject) : Guarded Filter := do
  let cs ← read
  conditionsFrom s (size cs) 0

theorem reads_conditionsFrom {limit low fuel : Nat} (hlow : isBoundary low d.text = true) (hlimit : limit = size d.text)
    (hfuel : limit < low + fuel) :
    Reads (conditionsFrom s limit low) d kept (Interpretation.conditionsFrom s fuel low ⟨d.text⟩).kept := by
  induction fuel generalizing low d with
  | zero =>
    have hle := Text.le_size_of_isBoundary hlow
    omega
  | succ fuel ih =>
    rw [conditionsFrom, Interpretation.conditionsFrom]
    refine .read_bind (.after_bind hlow ?_)
    dsimp only
    cases hh : Grammar.conditionCue.findAfter? low d.text with
    | none => exact .pure
    | some h =>
      have hcue := Pattern.fits_of_findAfter? hh
      have hpass := Pattern.lt_stop_of_findAfter? (p := Grammar.conditionCue) rfl hh
      have hchain := reads_chainFrom (s := s) (c := .and) hcue.stop hlimit (Nat.lt_succ_self _)
      dsimp only [Interpretation.Workspace.after]
      rw [← Interpretation.chain] at hchain
      cases hc : Interpretation.chain s (dropTo h.span.stop d.text) with
      | error e =>
        rw [hc] at hchain
        exact .bind_error hchain
      | ok r =>
        obtain ⟨terms, n⟩ := r
        rw [hc] at hchain
        refine .bind_ok hchain fun d' hleads htext => ?_
        have hlimit' : limit = size d'.text := hlimit.trans hleads.size_eq.symm
        rw [← htext] at hcue hc ⊢
        cases terms with
        | nil =>
          refine .onward hpass (hlimit' ▸ Text.le_size_of_isBoundary hcue.stop) ?_
          exact ih hcue.stop hlimit' (by omega)
        | cons t ts =>
          have hstop := Text.isBoundary_add hcue.stop (Interpretation.boundary_of_chainFrom hc)
          have hle := hcue.le
          have hspan : Span.Fits ⟨h.span.start, h.span.stop + n⟩ d'.text := ⟨hcue.start, hstop, by dsimp only; omega⟩
          refine .claim_bind hspan fun d'' hleads' htext' => ?_
          have hlimit'' : limit = size d''.text := hlimit'.trans hleads'.size_eq.symm
          -- Where the chain ends was found in the text before the claim.
          have hstop' := hleads'.boundary _ hstop
          have hrec := ih hstop' hlimit'' (by omega)
          refine .onward (by omega) (hlimit'' ▸ Text.le_size_of_isBoundary hstop') ?_
          rw [htext'] at hrec
          exact hrec.map_kept (chainTerms (t :: ts) ++ ·)

theorem reads_takeConditions : Reads (takeConditions s) d kept (Interpretation.takeConditions s ⟨d.text⟩).kept := by
  have hfuel : size d.text < 0 + (size d.text + 1) := by omega
  exact .read_bind (reads_conditionsFrom (Text.isBoundary_zero _) rfl hfuel)

/-! ### Values -/

def takeNamed (s : Subject) : Guarded (List Assignment) := do
  let cs ← read
  match Grammar.named.find? cs with
  | none => pure []
  | some h =>
    match nameColumn? s with
    | none => pure []
    | some c => do
      claim h.span
      pure [⟨c, .ofText ((h.text? 1).getD [])⟩]

def valuesStart? (tableEnd : Nat) : Guarded (Option Span) := do
  let cs ← read
  match Grammar.valuesCue.find? cs with
  | some h => pure (some h.span)
  | none =>
    if tableEnd ≤ size cs then do
      let rest ← after tableEnd
      pure (some ⟨tableEnd, tableEnd + (size rest - size (Text.trimStart rest))⟩)
    else pure none

def takePairs (s : Subject) (cue : Span) : Guarded (List Assignment) := do
  let cs ← read
  let (new, stop) ← assignmentsFrom s (size cs) cue.stop
  match new with
  | [] => pure []
  | a :: as => do
    claim ⟨cue.start, stop⟩
    pure (a :: as)

def takeInsertValues (s : Subject) (tableEnd : Nat) : Guarded (List Assignment) := do
  let values ← takeNamed s
  match ← valuesStart? tableEnd with
  | none => pure values
  | some start => do
    let new ← takePairs s start
    pure (addValues values new)

def takeSet (s : Subject) : Guarded (List Assignment) := do
  let cs ← read
  match Grammar.setCue.find? cs with
  | none => pure []
  | some h => takePairs s h.span

theorem reads_takeNamed : Reads (takeNamed s) d kept (.ok (Interpretation.takeNamed s ⟨d.text⟩)) := by
  rw [takeNamed, Interpretation.takeNamed]
  refine .read_bind ?_
  dsimp only
  cases hh : Grammar.named.find? d.text with
  | none => exact .pure
  | some h =>
    cases nameColumn? s with
    | none => exact .pure
    | some c =>
      exact .claim_pure (Pattern.fits_of_find? hh)

theorem reads_valuesStart? {tableEnd : Nat} (h : isBoundary tableEnd d.text = true) :
    Reads (valuesStart? tableEnd) d kept (.ok (Interpretation.valuesStart? tableEnd ⟨d.text⟩, ⟨d.text⟩)) := by
  rw [valuesStart?, Interpretation.valuesStart?]
  refine .read_bind ?_
  dsimp only
  cases Grammar.valuesCue.find? d.text with
  | some cue => exact .pure
  | none =>
    dsimp only
    split
    · exact .after_bind h .pure
    · exact .pure

theorem fits_of_valuesStart? {tableEnd : Nat} {ws : Interpretation.Workspace} {start : Span}
    (h : isBoundary tableEnd ws.text = true) (hstart : Interpretation.valuesStart? tableEnd ws = some start) :
    start.Fits ws.text := by
  rw [Interpretation.valuesStart?] at hstart
  split at hstart
  · next cue hcue =>
    cases hstart
    exact Pattern.fits_of_find? hcue
  · split at hstart
    · cases hstart
      exact ⟨h, Text.isBoundary_add h (Text.isBoundary_trimStart _), Nat.le_add_right _ _⟩
    · cases hstart

theorem reads_takePairs {cue : Span} (h : cue.Fits d.text) :
    Reads (takePairs s cue) d kept (Interpretation.takePairs s cue ⟨d.text⟩).kept := by
  rw [takePairs, Interpretation.takePairs]
  have hpairs := reads_assignmentsFrom (s := s) h.stop rfl (Nat.lt_succ_self _)
  rw [← Interpretation.assignments] at hpairs
  refine .read_bind ?_
  dsimp only [Interpretation.Workspace.after]
  cases ha : Interpretation.assignments s (dropTo cue.stop d.text) with
  | error e =>
    rw [ha] at hpairs
    exact .bind_error hpairs
  | ok r =>
    obtain ⟨new, n⟩ := r
    rw [ha] at hpairs
    refine .bind_ok hpairs fun d' _ htext => ?_
    rw [← htext] at h ha ⊢
    cases new with
    | nil => exact .pure
    | cons a as =>
      have hstop := Text.isBoundary_add h.stop (Interpretation.boundary_of_assignmentsFrom ha)
      have hle := h.le
      have hspan : Span.Fits ⟨cue.start, cue.stop + n⟩ d'.text := ⟨h.start, hstop, by dsimp only; omega⟩
      exact .claim_pure hspan

theorem reads_takeInsertValues {tableEnd : Nat} (h : isBoundary tableEnd d.text = true) :
    Reads (takeInsertValues s tableEnd) d kept (Interpretation.takeInsertValues s tableEnd ⟨d.text⟩).kept := by
  rw [takeInsertValues, Interpretation.takeInsertValues]
  have hnamed := reads_takeNamed (s := s) (d := d)
  generalize Interpretation.takeNamed s ⟨d.text⟩ = q at hnamed ⊢
  obtain ⟨values, ⟨cs⟩⟩ := q
  refine .bind_ok hnamed fun d' hleads htext => ?_
  cases htext
  have hend := hleads.boundary _ h
  refine .bind_ok (reads_valuesStart? hend) fun d'' hleads' htext' => ?_
  dsimp only
  rw [← htext'] at hend ⊢
  cases hstart : Interpretation.valuesStart? tableEnd ⟨d''.text⟩ with
  | none => exact .pure
  | some start =>
    have hpairs := reads_takePairs (s := s) (fits_of_valuesStart? hend hstart)
    dsimp only
    exact hpairs.map_kept (addValues values)

theorem reads_takeSet : Reads (takeSet s) d kept (Interpretation.takeSet s ⟨d.text⟩).kept := by
  rw [takeSet, Interpretation.takeSet]
  refine .read_bind ?_
  dsimp only
  cases hh : Grammar.setCue.find? d.text with
  | none => exact .pure
  | some h => exact reads_takePairs (Pattern.fits_of_find? hh)

/-! ### Grouping, order and limits -/

/-- The text before a hit is looked at only where the word there decides. -/
def firstGrouping (bare : Bool) : List Pattern.Hit → Guarded (Option Pattern.Hit)
  | [] => pure none
  | h :: hs =>
    let keyword := Text.lower ((h.text? 1).getD [])
    if (keyword = "by".toList || keyword = "per".toList) && !bare then firstGrouping bare hs
    else if keyword = "by".toList then do
      let cs ← before h.span.start
      if isOneOf orderWords (((Text.words cs).getLast?).getD []) then firstGrouping bare hs
      else pure (some h)
    else pure (some h)

def takeGroupBy (s : Subject) (bare : Bool) : Guarded (Option String) := do
  let cs ← read
  match ← firstGrouping bare (Grammar.groupBy.hits cs) with
  | none => pure none
  | some h => do
    let column ← answer (s.resolve ((h.text? 2).getD []))
    claim h.span
    pure (some column)

def takeOrderBy (s : Subject) (count : Bool) : Guarded (Option SortOrder) := do
  let cs ← read
  match Grammar.orderBy.find? cs with
  | none => pure none
  | some h => do
    let column ← answer (orderColumn s count ((h.text? 1).getD []))
    claim h.span
    pure (some ⟨column, (h.text? 2).any startsDescending⟩)

def takeNumber (p : Pattern) : Guarded (Option Nat) := do
  let cs ← read
  match p.find? cs with
  | none => pure none
  | some h =>
    match (h.text? 1).bind Number.readWord64? with
    | some n => do
      claim h.span
      pure (some n)
    | none => pure none

def columnsLeft (s : Subject) (verbEnd : Nat) : Guarded (List String) := do
  let rest ← after verbEnd
  let words := (Grammar.nameWord.hits rest).map fun h => Text.lower h.text
  pure (((words.filter (!isFiller ·)).filterMap s.column?).foldl addColumn [])

theorem reads_firstGrouping {bare : Bool} {hs : List Pattern.Hit} (hfits : ∀ h ∈ hs, h.span.Fits d.text) :
    Reads (firstGrouping bare hs) d kept (.ok (hs.find? (isGrouping bare d.text), ⟨d.text⟩)) := by
  induction hs with
  | nil => exact .pure
  | cons h hs ih =>
    obtain ⟨hh, hrest⟩ := List.forall_mem_cons.mp hfits
    have hlater := ih hrest
    rw [firstGrouping, List.find?_cons]
    split
    · next hbare =>
      have hgroup : isGrouping bare d.text h = false := by
        simp only [isGrouping, hbare, Bool.not_true, Bool.false_and]
      rw [hgroup]
      exact hlater
    · next hbare =>
      have hallowed := Bool.eq_false_iff.mpr hbare
      have hgroup : isGrouping bare d.text h = !(Text.lower ((h.text? 1).getD []) = "by".toList &&
          isOneOf orderWords (Interpretation.wordBefore h.span.start d.text)) := by
        rw [isGrouping, hallowed, Bool.not_false, Bool.true_and]
      rw [hgroup]
      split
      · next hby =>
        refine .before_bind hh.start ?_
        rw [← Interpretation.wordBefore, decide_eq_true hby, Bool.true_and]
        split
        · next hword =>
          rw [hword]
          exact hlater
        · next hword =>
          rw [Bool.eq_false_iff.mpr hword]
          exact .pure
      · next hby =>
        rw [decide_eq_false hby, Bool.false_and]
        exact .pure

theorem reads_takeGroupBy {bare : Bool} :
    Reads (takeGroupBy s bare) d kept (Interpretation.takeGroupBy s bare ⟨d.text⟩).kept := by
  rw [takeGroupBy, Interpretation.takeGroupBy]
  refine .read_bind ?_
  refine .bind_ok (reads_firstGrouping fun h hh => Pattern.fits_of_mem_hits hh) fun d' _ htext => ?_
  dsimp only
  rw [← htext]
  cases hh : (Grammar.groupBy.hits d'.text).find? (isGrouping bare d'.text) with
  | none => exact .pure
  | some h =>
    dsimp only
    cases s.resolve ((h.text? 2).getD []) with
    | error e => exact .answer_error rfl
    | ok column =>
      have hfits := Pattern.fits_of_mem_hits (List.mem_of_find?_eq_some hh)
      exact .answer_ok rfl (.claim_pure hfits)

theorem reads_takeOrderBy {count : Bool} :
    Reads (takeOrderBy s count) d kept (Interpretation.takeOrderBy s count ⟨d.text⟩).kept := by
  rw [takeOrderBy, Interpretation.takeOrderBy]
  refine .read_bind ?_
  dsimp only
  cases hh : Grammar.orderBy.find? d.text with
  | none => exact .pure
  | some h =>
    dsimp only
    cases orderColumn s count ((h.text? 1).getD []) with
    | error e => exact .answer_error rfl
    | ok column =>
      exact .answer_ok rfl (.claim_pure (Pattern.fits_of_find? hh))

theorem reads_takeNumber {p : Pattern} : Reads (takeNumber p) d kept (.ok (Interpretation.takeNumber p ⟨d.text⟩)) := by
  rw [takeNumber, Interpretation.takeNumber]
  refine .read_bind ?_
  dsimp only
  cases hh : p.find? d.text with
  | none => exact .pure
  | some h =>
    dsimp only
    cases (h.text? 1).bind Number.readWord64? with
    | none => exact .pure
    | some n =>
      exact .claim_pure (Pattern.fits_of_find? hh)

theorem reads_columnsLeft {verbEnd : Nat} (h : isBoundary verbEnd d.text = true) :
    Reads (columnsLeft s verbEnd) d kept (.ok (Interpretation.columnsLeft s verbEnd ⟨d.text⟩, ⟨d.text⟩)) :=
  .after_bind h .pure

end Guarded
end Parlance
