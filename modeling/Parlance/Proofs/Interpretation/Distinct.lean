import Parlance.Proofs.Interpretation.Lowered
import Parlance.Proofs.Pattern.Place

/-! Which statements list a column twice. The values of an INSERT and the columns of a SELECT are
collected one by one, and a column that is there already is passed over. The list of an UPDATE is taken
as it is written: it repeats a column exactly if the text names that column again. -/

namespace Parlance

open Pattern (IsName)
open Text (sameWord asciiLower)

/-- The columns that a statement lists. -/
def Intent.columns : Intent → List String
  | .select _ columns _ => columns
  | .insert _ values => values.map (·.column)
  | .update _ assignments _ => assignments.map (·.column)
  | .count .. | .delete .. => []

/-- No two of them are one column, in whatever case they are spelled. -/
def Distinct (columns : List String) : Prop := columns.Pairwise fun c d => sameWord c.toList d.toList = false

namespace Interpretation

variable {s : Subject}

/-! ### One column in two spellings -/

/-- Two names of the text stand for one column. -/
def Subject.sameColumn (s : Subject) (w v : List Char) : Bool :=
  if s.known then sameWord w v else Text.lower w == Text.lower v

theorem Subject.sameWord_of_resolve {w v : List Char} {c d : String} (hw : IsName w) (hv : IsName v)
    (hc : s.resolve w = .ok c) (hd : s.resolve v = .ok d) :
    sameWord c.toList d.toList = s.sameColumn w v := by
  cases hk : s.known with
  | true =>
    -- The catalog spells both columns as the text does, but for the case.
    have hcw := Schema.sameWord_of_findColumn? (resolve_known hk hc)
    have hdv := Schema.sameWord_of_findColumn? (resolve_known hk hd)
    rw [Text.sameWord_iff] at hcw hdv
    rw [sameColumn, if_pos hk, sameWord, sameWord, hcw, hdv]
  | false =>
    have hlower {u : List Char} {e : String} (h : s.resolve u = .ok e) : e.toList = Text.lower u := by
      simp only [resolve, hk, Bool.false_eq_true, if_false] at h
      cases h
      exact String.toList_ofList
    rw [sameColumn, hk, if_neg Bool.false_ne_true, sameWord, hlower hc, hlower hd, hw.asciiLower_lower, hv.asciiLower_lower]

theorem Subject.resolve_congr {w v : List Char} (h : s.sameColumn w v = true) {c d : String}
    (hc : s.resolve w = .ok c) (hd : s.resolve v = .ok d) : c = d := by
  cases hk : s.known with
  | true =>
    rw [sameColumn, if_pos hk, Text.sameWord_iff] at h
    have hfind : s.schema.findColumn? s.table w = s.schema.findColumn? s.table v := by
      rw [← findColumn?_lowered s.schema s.table w, h, findColumn?_lowered]
    have hsome := resolve_known hk hc
    rw [hfind, resolve_known hk hd] at hsome
    exact (Option.some.inj hsome).symm
  | false =>
    simp only [sameColumn, resolve, hk, Bool.false_eq_true, if_false, beq_iff_eq] at h hc hd
    cases hc
    cases hd
    rw [h]

/-- Columns that the text names are one column only if they are spelled alike. -/
theorem distinct_iff_nodup {columns : List String} (hnames : ∀ c ∈ columns, s.Names c) :
    Distinct columns ↔ columns.Nodup := by
  refine List.Pairwise.iff_of_mem fun {c d} hc hd => ?_
  obtain ⟨w, hw, hrc⟩ := hnames c hc
  obtain ⟨v, hv, hrd⟩ := hnames d hd
  rw [← Bool.not_eq_true]
  refine not_congr ⟨fun hsame => ?_, fun heq => by rw [heq, Text.sameWord_iff]⟩
  rw [Subject.sameWord_of_resolve hw hv hrc hrd] at hsame
  exact Subject.resolve_congr hsame hrc hrd

/-! ### Lists without repeats -/

theorem nodup_takeNamed (ws : Workspace) : ((takeNamed s ws).1.map (·.column)).Nodup := by
  simp only [takeNamed]
  split
  · exact List.nodup_nil
  · split <;> simp

theorem gives_nodup_takeInsertValues (tableEnd : Nat) (ws : Workspace) :
    Gives s.Refuses (fun r => (r.map (·.column)).Nodup) (takeInsertValues s tableEnd ws).1 := by
  simp only [takeInsertValues]
  split
  · exact nodup_takeNamed ws
  · next start _ => exact (gives_takePairs start _).map fun _ _ => nodup_addValues (nodup_takeNamed ws)

/-! ### Pairs as they are written -/

/-- A column and a value of the text, before the column is looked up. -/
structure WrittenPair where
  column : List Char
  value : List Char

/-- The pair at the start of a text, and what stands behind it. -/
def pairAt? (cs : List Char) : Option (WrittenPair × List Char) :=
  match Grammar.assignment.find? cs with
  | none => none
  | some h =>
    let column := (h.text? Grammar.columnGroup).getD []
    let value := Text.dropEndWhile isClosingMark ((h.text? Grammar.valueGroup).getD [])
    if Grammar.isFiller column || sameWord column "where".toList then none
    else some (⟨column, value⟩, Text.dropTo h.span.stop cs)

/-- The text behind a separator, if something like a pair follows it. -/
def nextPair? (cs : List Char) : Option (List Char) :=
  match Grammar.assignmentSeparator.find? cs with
  | none => none
  | some sep =>
    let next := Text.dropTo sep.span.stop cs
    if Grammar.assignment.holds next then some next else none

theorem length_lt_of_pairAt? {cs rest : List Char} {p : WrittenPair} (h : pairAt? cs = some (p, rest)) :
    rest.length < cs.length := by
  unfold pairAt? at h
  split at h
  · cases h
  · next hit hh =>
    dsimp only at h
    split at h
    · cases h
    · cases h
      exact Pattern.length_behind_lt rfl hh

theorem length_lt_of_nextPair? {cs next : List Char} (h : nextPair? cs = some next) : next.length < cs.length := by
  unfold nextPair? at h
  split at h
  · cases h
  · next sep hsep =>
    dsimp only at h
    split at h
    · cases h
      exact Pattern.length_behind_lt rfl hsep
    · cases h

theorem isName_of_pairAt? {cs rest : List Char} {p : WrittenPair} (h : pairAt? cs = some (p, rest)) :
    IsName p.column := by
  unfold pairAt? at h
  split at h
  · cases h
  · next hit hh =>
    dsimp only at h
    split at h
    · cases h
    · cases h
      exact isName_of_hit (Pattern.find?_of hh) namesIn_assignment.1 namesIn_assignment.2

def writtenPairs (cs : List Char) : List WrittenPair :=
  match _h : pairAt? cs with
  | none => []
  | some (p, rest) =>
    match _h' : nextPair? rest with
    | none => [p]
    | some next => p :: writtenPairs next
termination_by cs.length
decreasing_by exact Nat.lt_trans (length_lt_of_nextPair? _h') (length_lt_of_pairAt? _h)

theorem isName_of_mem_writtenPairs {cs : List Char} : ∀ p ∈ writtenPairs cs, IsName p.column := by
  fun_induction writtenPairs cs with
  | case1 => exact fun p hp => absurd hp List.not_mem_nil
  | case2 cs p rest hpair hnext =>
    intro q hq
    rw [List.mem_singleton.mp hq]
    exact isName_of_pairAt? hpair
  | case3 cs p rest hpair next hnext ih =>
    intro q hq
    rcases List.mem_cons.mp hq with rfl | hq
    · exact isName_of_pairAt? hpair
    · exact ih q hq

def Subject.assign (s : Subject) (p : WrittenPair) : Except Error Assignment :=
  (s.resolve p.column).map fun c => ⟨c, .ofText p.value⟩

/-- One pass over a list: a pair, and the rest behind a separator. -/
theorem assignmentsFrom_succ (fuel : Nat) (cs : List Char) : (assignmentsFrom s (fuel + 1) cs).map (·.1) =
    match pairAt? cs with
    | none => .ok []
    | some (p, rest) => s.assign p >>= fun a =>
      match nextPair? rest with
      | none => .ok [a]
      | some next => ((assignmentsFrom s fuel next).map (·.1)).map (a :: ·) := by
  rw [assignmentsFrom, pairAt?]
  cases Grammar.assignment.find? cs with
  | none => rfl
  | some h =>
    dsimp only
    split
    · rfl
    · dsimp only [Subject.assign]
      cases s.resolve ((h.text? Grammar.columnGroup).getD []) with
      | error e => rfl
      | ok c =>
        rw [nextPair?]
        cases Grammar.assignmentSeparator.find? (Text.dropTo h.span.stop cs) with
        | none => rfl
        | some sep =>
          dsimp only
          generalize Text.dropTo sep.span.stop (Text.dropTo h.span.stop cs) = next
          cases Grammar.assignment.holds next with
          | false => rfl
          | true =>
            simp only [↓reduceIte, ok_bind, Except.map]
            cases assignmentsFrom s fuel next <;> rfl

/-- A list is read to its end, pair by pair. -/
theorem assignmentsFrom_eq_mapM {fuel : Nat} {cs : List Char} (hfuel : cs.length ≤ fuel) :
    (assignmentsFrom s (fuel + 1) cs).map (·.1) = (writtenPairs cs).mapM s.assign := by
  fun_induction writtenPairs cs generalizing fuel with
  | case1 cs hpair =>
    rw [assignmentsFrom_succ, hpair]
    rfl
  | case2 cs p rest hpair hnext =>
    rw [assignmentsFrom_succ, hpair]
    simp only [hnext]
    rw [List.mapM_cons, List.mapM_nil]
    rfl
  | case3 cs p rest hpair next hnext ih =>
    -- Every pass takes some characters, and there is fuel for each of them.
    have hshorter := Nat.lt_trans (length_lt_of_nextPair? hnext) (length_lt_of_pairAt? hpair)
    obtain ⟨fuel, rfl⟩ := Nat.exists_eq_add_one_of_ne_zero (Nat.ne_zero_of_lt (Nat.lt_of_lt_of_le hshorter hfuel))
    rw [assignmentsFrom_succ, hpair]
    simp only [hnext]
    rw [List.mapM_cons, ih (Nat.le_of_lt_succ (Nat.lt_of_lt_of_le hshorter hfuel))]
    cases (writtenPairs next).mapM s.assign <;> rfl

theorem takePairs_fst (cue : Text.Span) (ws : Workspace) :
    (takePairs s cue ws).1 = (writtenPairs (ws.after cue.stop)).mapM s.assign := by
  rw [← assignmentsFrom_eq_mapM (Nat.le_refl _), takePairs, ← assignments]
  cases assignments s (ws.after cue.stop) with
  | error e => rfl
  | ok r =>
    obtain ⟨as, n⟩ := r
    cases as <;> rfl

def setPairs (ws : Workspace) : List WrittenPair :=
  match Grammar.setCue.find? ws.text with
  | none => []
  | some h => writtenPairs (ws.after h.span.stop)

theorem takeSet_fst (ws : Workspace) : (takeSet s ws).1 = (setPairs ws).mapM s.assign := by
  rw [takeSet, setPairs]
  cases Grammar.setCue.find? ws.text with
  | none => rfl
  | some h => exact takePairs_fst h.span ws

theorem isName_of_mem_setPairs {ws : Workspace} : ∀ p ∈ setPairs ws, IsName p.column := by
  unfold setPairs
  split
  · exact fun p hp => absurd hp List.not_mem_nil
  · exact isName_of_mem_writtenPairs

/-- The text names no column twice. -/
def NamedOnce (s : Subject) (ps : List WrittenPair) : Prop :=
  ps.Pairwise fun p q => s.sameColumn p.column q.column = false

theorem resolve_of_assign {p : WrittenPair} {a : Assignment} (h : s.assign p = .ok a) :
    s.resolve p.column = .ok a.column := by
  rw [Subject.assign] at h
  cases hr : s.resolve p.column with
  | error e =>
    rw [hr] at h
    cases h
  | ok c =>
    rw [hr] at h
    cases h
    rfl

theorem map_assign_of_mapM {ps : List WrittenPair} {as : List Assignment} (h : ps.mapM s.assign = .ok as) :
    ps.map s.assign = as.map .ok := by
  induction ps generalizing as with
  | nil =>
    cases h
    rfl
  | cons p ps ih =>
    rw [List.mapM_cons] at h
    obtain ⟨a, ha, h⟩ := bind_eq_ok h
    obtain ⟨rest, hrest, h⟩ := bind_eq_ok h
    cases h
    rw [List.map_cons, List.map_cons, ha, ih hrest]

/-- Two pairs that can be read are about two columns. -/
def Apart (r r' : Except Error Assignment) : Prop :=
  ∀ a b, r = .ok a → r' = .ok b → sameWord a.column.toList b.column.toList = false

/-- Nothing is passed over in a list of pairs: it repeats a column just if the text does. -/
theorem distinct_iff_namedOnce {ps : List WrittenPair} {as : List Assignment} (hps : ∀ p ∈ ps, IsName p.column)
    (h : ps.mapM s.assign = .ok as) : Distinct (as.map (·.column)) ↔ NamedOnce s ps := by
  have hmap := map_assign_of_mapM h
  have hok : ∀ p ∈ ps, ∃ a, s.assign p = .ok a := by
    intro p hp
    have hmem : s.assign p ∈ as.map .ok := hmap ▸ List.mem_map_of_mem hp
    obtain ⟨a, -, ha⟩ := List.mem_map.mp hmem
    exact ⟨a, ha.symm⟩
  calc Distinct (as.map (·.column)) ↔ (as.map Except.ok).Pairwise Apart := by
        simp [Distinct, List.pairwise_map, Apart]
    _ ↔ (ps.map s.assign).Pairwise Apart := by rw [hmap]
    _ ↔ NamedOnce s ps := by
        rw [List.pairwise_map]
        refine List.Pairwise.iff_of_mem fun {p q} hp hq => ?_
        obtain ⟨a, ha⟩ := hok p hp
        obtain ⟨b, hb⟩ := hok q hq
        rw [← Subject.sameWord_of_resolve (hps p hp) (hps q hq) (resolve_of_assign ha) (resolve_of_assign hb)]
        simp [Apart, ha, hb]

end Interpretation

namespace Interpreter

open Interpretation

variable {t : Interpreter} {s : Subject}

/-! ### Statements -/

theorem names_of_sourcedIntent {i : Intent} (h : SourcedIntent t s i) : ∀ c ∈ i.columns, s.Names c := by
  have hassigned {as : List Assignment} (has : ∀ a ∈ as, s.Assigns a) : ∀ c ∈ as.map (·.column), s.Names c := by
    intro c hc
    obtain ⟨a, ha, rfl⟩ := List.mem_map.mp hc
    obtain ⟨w, hw, -, hr⟩ := (has a ha).column
    exact ⟨w, hw, hr⟩
  cases i with
  | select => exact h.2.1
  | insert => exact hassigned h.2
  | update => exact hassigned h.2.1
  | count | delete => exact List.forall_mem_nil _

/-- A column that is not repeated as it is spelled is not there in another case either. The values of an INSERT and
the columns of a SELECT repeat nothing, and the list of an UPDATE is what the text says and repeats what it does. -/
structure ListsOnce (s : Subject) (ws : Workspace) (i : Intent) : Prop where
  caseless : Distinct i.columns ↔ i.columns.Nodup
  collected : i.operation ≠ .update → i.columns.Nodup
  updated : ∀ table assignments filter, i = .update table assignments filter →
    (setPairs ws).mapM s.assign = .ok assignments ∧ (i.columns.Nodup ↔ NamedOnce s (setPairs ws))

theorem listsOnce_takeIntent {o : Operation} {verbEnd tableEnd : Nat} {id recency : Option Predicate}
    {ws : Workspace} {r : Intent × List String} (h : t.takeIntent s o verbEnd tableEnd id recency ws = .ok r)
    (hsourced : SourcedIntent t s r.1) : ListsOnce s ws r.1 := by
  have hcaseless := distinct_iff_nodup (names_of_sourcedIntent hsourced)
  cases o with
  | insert =>
    obtain ⟨⟨values, rest⟩, hvalues, h⟩ := bind_eq_ok h
    cases h
    have hnodup := gives_nodup_takeInsertValues (s := s) tableEnd ws
    rw [Taken.eq_of_kept hvalues] at hnodup
    exact ⟨hcaseless, fun _ => hnodup, fun _ _ _ hi => by cases hi⟩
  | update =>
    obtain ⟨⟨values, rest⟩, hset, h⟩ := bind_eq_ok h
    obtain ⟨⟨filter, left⟩, -, h⟩ := bind_eq_ok h
    cases h
    refine ⟨hcaseless, fun hne => absurd rfl hne, fun table assignments filter hi => ?_⟩
    cases hi
    have hpairs : (setPairs ws).mapM s.assign = .ok values := by
      rw [← takeSet_fst, Taken.eq_of_kept hset]
    exact ⟨hpairs, hcaseless.symm.trans (distinct_iff_namedOnce isName_of_mem_setPairs hpairs)⟩
  | delete =>
    obtain ⟨filter, -, h⟩ := bind_eq_ok h
    cases h
    exact ⟨hcaseless, fun _ => List.nodup_nil, fun _ _ _ hi => by cases hi⟩
  | count =>
    obtain ⟨clauses, -, h⟩ := bind_eq_ok h
    cases h
    exact ⟨hcaseless, fun _ => List.nodup_nil, fun _ _ _ hi => by cases hi⟩
  | select =>
    obtain ⟨clauses, -, h⟩ := bind_eq_ok h
    cases h
    exact ⟨hcaseless, fun _ => addsOnce_addColumn.nodup_of_id List.nodup_nil _, fun _ _ _ hi => by cases hi⟩

/-- No statement lists a column twice, but for an UPDATE whose text does. -/
theorem interpret_listsOnce {text : String} {schema : Schema} {i : Interpretation}
    (h : t.interpret text schema = .ok i) :
    ∃ v window ws m id warnings, Stages t text schema v window ws m id (i.intent, warnings) ∧
      ListsOnce (subject schema m) id.2 i.intent := by
  obtain ⟨v, window, ws, m, id, warnings, hs, htable, hknown⟩ := stages_of_interpret h
  have hsourced := (grounded_of_interpret h).intent
  rw [htable, hknown] at hsourced
  exact ⟨v, window, ws, m, id, warnings, hs, listsOnce_takeIntent hs.intent_eq hsourced⟩

/-- The list names the column again that has a value already. -/
theorem interpret_listsOnce_insert :
    let t := ofDialect .sqlite
    ∃ i, t.interpret "add t named a with name=b" .empty = .ok i ∧ i.intent.columns = ["name"] ∧
      ∃ v window ws m id warnings,
        Stages t "add t named a with name=b" .empty v window ws m id (i.intent, warnings) ∧
        ListsOnce (subject .empty m) id.2 i.intent := by
  intro t
  have hok : (t.interpret "add t named a with name=b" .empty).toOption.any
      (fun i => decide (i.intent.columns = ["name"])) = true := by
    decide +kernel
  obtain ⟨i, h, hcolumns⟩ := exists_ok_of_any hok
  exact ⟨i, h, of_decide_eq_true hcolumns, interpret_listsOnce h⟩

/-- An UPDATE lists a column twice if the text names it twice. -/
theorem column_listed_twice :
    let t := ofDialect .postgres
    let schema : Schema := ⟨[⟨"t", [.ofType "x" "integer"]⟩]⟩
    ∃ i, t.interpret "update t set x=1,x=2" schema = .ok i ∧
      i.intent.columns = ["x", "x"] ∧ ¬ i.intent.columns.Nodup := by
  intro t schema
  have hok : (t.interpret "update t set x=1,x=2" schema).toOption.any
      (fun i => decide (i.intent.columns = ["x", "x"])) = true := by
    decide +kernel
  obtain ⟨i, h, hcolumns⟩ := exists_ok_of_any hok
  have htwice := of_decide_eq_true hcolumns
  refine ⟨i, h, htwice, ?_⟩
  rw [htwice]
  decide

end Interpreter
end Parlance
