import Parlance.Proofs.Sentence.Chain
import Parlance.Proofs.Sentence.Opening

/-! Lists of columns with their values, behind "set" and "with". A list is read to its end: "and" leads
to the next pair, and a condition behind the list is none of its pairs. -/

namespace Parlance.Sentence

open Pattern Text
open Interpretation
open Grammar (columnGroup valueGroup isAssignSign)

variable {schema : Schema} {t : Table} {ws : List String}

/-- What stands between a column and its value. -/
inductive Link
  | word
  | blank
  deriving DecidableEq, Repr

def Link.text : Link → List Char
  | word => ' ' :: ("to".toList ++ [' '])
  | blank => [' ']

structure Pair (t : Table) where
  column : ColumnOf t
  value : Numeral

namespace Pair

def text (l : Link) (p : Pair t) : List Char := p.column.1.toList ++ (l.text ++ p.value.digits)

def assignment (p : Pair t) : Assignment := ⟨p.column.1, p.value.literal⟩

end Pair

/-- Further pairs, each behind "and". -/
def joined (l : Link) : List (Pair t) → List Char
  | [] => []
  | p :: ps => ' ' :: ("and".toList ++ ' ' :: (p.text l ++ joined l ps))

/-- A list of pairs, one at least. -/
structure Pairs (t : Table) where
  first : Pair t
  rest : List (Pair t)

namespace Pairs

def list (p : Pairs t) : List (Pair t) := p.first :: p.rest

def text (l : Link) (p : Pairs t) : List Char := p.first.text l ++ joined l p.rest

def assignments (p : Pairs t) : List Assignment := p.list.map (·.assignment)

end Pairs

theorem spaced_joined (l : Link) (ps : List (Pair t)) : Spaced (joined l ps) := by
  cases ps with
  | nil => exact .nil
  | cons => exact .cons _

/-! ### A pair -/

def links : List Pattern :=
  [seq [maybeGap, one isAssignSign, maybeGap], seq [gap, phrases ["is", "as", "to", "of"], gap], gap]

theorem fails_assignSign {u v : List Char} (hblank : ∀ c ∈ v.head?, isBlank c = false)
    (hsign : ∀ c ∈ v.head?, isAssignSign c = false) : Fails (seq [maybeGap, one isAssignSign, maybeGap]) u (' ' :: v) := by
  refine fails_maybeGap hblank ((fails_one (by decide)).both) (Fails.both ?_)
  exact fails_of_begins rfl fun c hc => hsign c hc

theorem prefers_link (l : Link) (n : Numeral) {u x : List Char} :
    Prefers (oneOf links) u l.text (n.digits ++ x) [] := by
  cases l with
  | word =>
    have hsign : Fails (seq [maybeGap, one isAssignSign, maybeGap]) u (Link.word.text ++ (n.digits ++ x)) := by
      refine fails_assignSign (fun c hc => ?_) fun c hc => ?_ <;> (cases hc; decide)
    have hnot {w : String} (hn : (phrase w).nullable = false) (hb : (phrase w).begins 't' = false) :
        Fails (phrase w) (u ++ [' ']) ("to".toList ++ (' ' :: (n.digits ++ x))) := by
      refine fails_of_begins hn fun c hc => ?_
      cases hc
      exact hb
    have hto : Prefers (phrases ["is", "as", "to", "of"]) (u ++ [' ']) "to".toList (' ' :: (n.digits ++ x)) [] :=
      .oneOf_tail (hnot rfl (by decide)) (.oneOf_tail (hnot rfl (by decide)) (.oneOf_head (.phrase (by decide))))
    have hvisible : ∀ c ∈ ("to".toList ++ [' '] ++ (n.digits ++ x)).head?, isBlank c = false := by
      intro c hc
      cases hc
      decide
    exact .oneOf_tail hsign (.oneOf_head (.seq_cons (v := [' ']) (.gap_space hvisible)
      (.seq_cons hto (.seq_last (.gap_space (n.visible x))))))
  | blank =>
    have hsign : Fails (seq [maybeGap, one isAssignSign, maybeGap]) u (Link.blank.text ++ (n.digits ++ x)) :=
      fails_assignSign (n.visible x) (n.forall_head_append (by decide))
    have hword : Fails (seq [gap, phrases ["is", "as", "to", "of"], gap]) u (Link.blank.text ++ (n.digits ++ x)) := by
      have hphrase : Fails (phrases ["is", "as", "to", "of"]) (u ++ [' ']) (n.digits ++ x) :=
        fails_of_begins (by decide) (n.forall_head_append (by decide))
      exact fails_gap (n.visible x) hphrase.both
    exact .oneOf_tail hsign (.oneOf_tail hword (.oneOf_head (.gap_space (n.visible x))))

theorem Pair.visible (hs : FreeSchema schema) (ht : t ∈ schema.tables) (l : Link) (p : Pair t) (x : List Char) :
    ∀ c ∈ (p.text l ++ x).head?, isBlank c = false := by
  rw [Pair.text, List.append_assoc]
  exact (hs.free_of_mem ht p.column.2).visible _

theorem Pair.find?_assignment (hs : FreeSchema schema) (ht : t ∈ schema.tables) (l : Link) (p : Pair t)
    {x : List Char} (hx : Spaced x) : ∃ u v, Grammar.assignment.find? (p.text l ++ x) =
      some (.behind [] (p.text l) [(valueGroup, .behind u p.value.digits), (columnGroup, .behind v p.column.1.toList)]) := by
  have hfree := hs.free_of_mem ht p.column.2
  have hlink : Spaced (l.text ++ p.value.digits ++ x) := by cases l <;> exact .cons _
  have hlead : Prefers (lead ["the", "a", "an"]) [] [] (p.text l ++ x) [] := by
    rw [Pair.text, List.append_assoc]
    exact hfree.prefers_lead (by decide) (by decide) hlink
  have hvalue {u : List Char} : Prefers (seq [Grammar.value]) u p.value.digits x [(valueGroup, .behind u p.value.digits)] :=
    .seq_last (p.value.stands.token hx).group
  have hrest {u : List Char} : Prefers (seq [oneOf links, Grammar.value]) u (l.text ++ p.value.digits) x
      [(valueGroup, .behind (u ++ l.text) p.value.digits)] :=
    .seq_cons (prefers_link l p.value) hvalue
  have hcolumn : Prefers (seq [group columnGroup name, oneOf links, Grammar.value]) [] (p.text l) x _ :=
    .seq_cons (hfree.prefers_name hlink).group hrest
  have hassignment : Prefers Grammar.assignment [] (p.text l) x _ := .seq_nil .start (.seq_nil hlead hcolumn)
  exact ⟨_, _, hassignment.find?⟩

/-! ### A list of pairs -/

theorem prefers_separator {x : List Char} (hx : ∀ c ∈ x.head?, isBlank c = false) :
    Prefers Grammar.assignmentSeparator [] (' ' :: ("and".toList ++ [' '])) x [] := by
  have hvisible : ∀ c ∈ ("and".toList ++ [' '] ++ x).head?, isBlank c = false := by
    intro c hc
    cases hc
    decide
  have hcomma : Fails (seq [maybeGap, char ',', maybeGap]) [] (' ' :: ("and".toList ++ [' '] ++ x)) := by
    refine fails_maybeGap hvisible (fails_one (by decide)).both (Fails.both ?_)
    exact fails_one (by decide)
  have hand : Prefers (seq [gap, word "and", gap]) [] (' ' :: ("and".toList ++ [' '])) x [] :=
    .seq_cons (v := [' ']) (.gap_space hvisible) (.seq_cons (.word "and") (.seq_last (.gap_space hx)))
  exact .both (v := []) .start (.oneOf_tail hcomma (.oneOf_head hand))

/-- No pair is separated from what begins with none of the signs for it. -/
theorem separator_eq_none {z : List Char}
    (h : z = [] ∨ ∃ c v, z = ' ' :: c :: v ∧ isBlank c = false ∧ c ≠ ',' ∧ sameLetter 'a' c = false) :
    Grammar.assignmentSeparator.find? z = none := by
  refine find?_start_eq_none (fails_behind_start (Fails.oneOf fun p hp => ?_))
  rcases h with rfl | ⟨c, v, rfl, hblank, hcomma, hand⟩
  · rcases List.mem_cons.mp hp with rfl | hp
    · exact fails_of_begins rfl fun c hc => nomatch hc
    · rw [List.mem_singleton.mp hp]
      exact fails_of_begins rfl fun c hc => nomatch hc
  · have hvisible : ∀ d ∈ (c :: v).head?, isBlank d = false := by
      intro d hd
      cases hd
      exact hblank
    rcases List.mem_cons.mp hp with rfl | hp
    · exact fails_maybeGap hvisible (fails_one (by decide)).both (Fails.both (fails_one (by simp [hcomma])))
    · rw [List.mem_singleton.mp hp]
      exact fails_gap hvisible (Fails.both (fails_one hand).both)

theorem assignmentsFrom_eq (hs : FreeSchema schema) (ht : t ∈ schema.tables) (l : Link) {z : List Char}
    (hz : Spaced z) (hend : Grammar.assignmentSeparator.find? z = none) (ps : List (Pair t)) :
    ∀ (fuel : Nat) (p : Pair t), ps.length < fuel →
      assignmentsFrom (subjectOf schema t) fuel (p.text l ++ (joined l ps ++ z)) =
        .ok ((p :: ps).map (·.assignment), size (p.text l ++ joined l ps)) := by
  have hpair (fuel : Nat) (p : Pair t) {x : List Char} (hx : Spaced x) :
      assignmentsFrom (subjectOf schema t) (fuel + 1) (p.text l ++ x) =
        (Grammar.assignmentSeparator.find? x).elim (.ok ([p.assignment], size (p.text l))) fun sep =>
          if Grammar.assignment.holds (dropTo sep.span.stop x) then
            assignmentsFrom (subjectOf schema t) fuel (dropTo sep.span.stop x) >>= fun rest =>
              .ok (p.assignment :: rest.1, size (p.text l) + sep.span.stop + rest.2)
          else .ok ([p.assignment], size (p.text l)) := by
    have hfree := hs.free_of_mem ht p.column.2
    obtain ⟨u, v, hfind⟩ := p.find?_assignment hs ht l hx
    have hcolumn : (List.lookup columnGroup [(valueGroup, Capture.behind u p.value.digits),
        (columnGroup, .behind v p.column.1.toList)]) = some (.behind v p.column.1.toList) := rfl
    have hwhere : sameWord p.column.1.toList "where".toList = false := by
      rw [sameWord_comm, hfree.not_sameWord (by decide)]
    rw [assignmentsFrom, hfind]
    simp only [Hit.text?_behind, hcolumn, List.lookup_cons_self, Option.map_some, Capture.text_behind,
      Option.getD_some, hfree.not_isFiller, hwhere, Bool.or_self, Bool.false_eq_true, if_false,
      hs.resolve_eq ht p.column.2, p.value.stands.unmarked, p.value.stands.literal, ok_bind, Hit.span_behind,
      List.nil_append, dropTo_size_append]
    cases Grammar.assignmentSeparator.find? x <;> rfl
  induction ps with
  | nil =>
    intro fuel p hfuel
    obtain ⟨fuel, rfl⟩ : ∃ n, fuel = n + 1 := ⟨fuel - 1, by omega⟩
    rw [joined, List.nil_append, hpair fuel p hz, hend, List.append_nil]
    rfl
  | cons q ps ih =>
    intro fuel p hfuel
    obtain ⟨fuel, rfl⟩ : ∃ n, fuel = n + 1 := ⟨fuel - 1, by omega⟩
    have hspaced : Spaced (joined l ps ++ z) := (spaced_joined l ps).append hz
    have hshape : joined l (q :: ps) ++ z = ' ' :: ("and".toList ++ [' ']) ++ (q.text l ++ (joined l ps ++ z)) := by
      simp [joined]
    have hsep := (prefers_separator (q.visible hs ht l (joined l ps ++ z))).find?
    obtain ⟨u, v, hnext⟩ := q.find?_assignment hs ht l hspaced
    have hholds : Grammar.assignment.holds (q.text l ++ (joined l ps ++ z)) = true := by
      rw [holds, hnext]
      rfl
    have hrest := ih fuel q (by simp only [List.length_cons] at hfuel; omega)
    rw [hpair fuel p ((spaced_joined l _).append hz), hshape, hsep]
    simp only [Option.elim_some, Hit.span_behind, List.nil_append, dropTo_size_append, hholds, if_true, hrest,
      ok_bind, List.map_cons]
    congr 2
    simp only [joined, size_append, size]
    omega

theorem length_le_joined (l : Link) (ps : List (Pair t)) : ps.length ≤ (joined l ps).length := by
  induction ps with
  | nil => exact Nat.zero_le _
  | cons p ps ih =>
    simp only [joined, List.length_cons, List.length_append]
    omega

theorem Pairs.assignments_eq (hs : FreeSchema schema) (ht : t ∈ schema.tables) (l : Link) (p : Pairs t)
    {z : List Char} (hz : Spaced z) (hend : Grammar.assignmentSeparator.find? z = none) :
    Interpretation.assignments (subjectOf schema t) (p.text l ++ z) = .ok (p.assignments, size (p.text l)) := by
  have hlength : p.rest.length < (p.first.text l ++ (joined l p.rest ++ z)).length + 1 := by
    have hle := length_le_joined l p.rest
    simp only [List.length_append]
    omega
  rw [Interpretation.assignments, Pairs.text, List.append_assoc]
  exact assignmentsFrom_eq hs ht l hz hend p.rest _ p.first hlength

/-- The pairs behind a cue are taken with it. -/
theorem takePairs_eq (hs : FreeSchema schema) (ht : t ∈ schema.tables) (l : Link) (p : Pairs t) (a cue : List Char)
    {z : List Char} (hz : Spaced z) (hend : Grammar.assignmentSeparator.find? z = none) :
    takePairs (subjectOf schema t) ⟨size (a ++ [' ']), size (a ++ [' '] ++ (cue ++ [' ']))⟩
        ⟨a ++ (' ' :: (cue ++ ' ' :: p.text l) ++ z)⟩ =
      (.ok p.assignments, ⟨a ++ (hidden (' ' :: (cue ++ ' ' :: p.text l)) ++ z)⟩) := by
  have hshape : a ++ (' ' :: (cue ++ ' ' :: p.text l) ++ z) = a ++ [' '] ++ (cue ++ [' ']) ++ (p.text l ++ z) := by
    simp
  have hafter : dropTo (size (a ++ [' '] ++ (cue ++ [' ']))) (a ++ (' ' :: (cue ++ ' ' :: p.text l) ++ z)) =
      p.text l ++ z := by
    rw [hshape, dropTo_size_append]
  have htake := take_segment a (cue ++ ' ' :: p.text l) z
  have hstop : size (a ++ [' '] ++ (cue ++ [' '])) + size (p.text l) = size (a ++ [' '] ++ (cue ++ ' ' :: p.text l)) := by
    simp only [size_append, size, Nat.add_assoc, Nat.add_zero]
  simp only [takePairs, Workspace.after, hafter, p.assignments_eq hs ht l hz hend, Pairs.assignments, Pairs.list,
    List.map_cons, hstop]
  rw [List.cons_append, htake]

end Parlance.Sentence
