import Parlance.Proofs.Sentence.Assignment
import Parlance.Proofs.Sentence.ReadClauses

/-! Sentences that change rows. Both the list of pairs and the chain of conditions may use "and"; each
is read up to the other, and the statement sets what the sentence sets, where the sentence says so. -/

namespace Parlance.Sentence

open Pattern Text
open Interpretation

variable {schema : Schema} {t : Table} {ws : List String}

/-- A list of pairs behind its cue. -/
def listText (cue : String) (l : Link) (p : Pairs t) : List Char := ' ' :: (cue.toList ++ ' ' :: p.text l)

section Text

variable (hs : FreeSchema schema) (ht : t ∈ schema.tables)
include hs ht

theorem Pair.lacks (hws : ws ⊆ reserved) (hl : Lettered ws) (hto : Lacks ws "to".toList) (l : Link) (p : Pair t) :
    Lacks ws (p.text l) := by
  have hcolumn := (hs.free_of_mem ht p.column.2).lacks hws
  have hvalue := p.value.lacks hl
  cases l with
  | word => exact Lacks.append_space.mpr ⟨hcolumn, Lacks.append_space.mpr ⟨hto, hvalue⟩⟩
  | blank => exact Lacks.append_space.mpr ⟨hcolumn, hvalue⟩

theorem lacks_listText (hws : ws ⊆ reserved) (hl : Lettered ws) (l : Link) (p : Pairs t) {cue : String}
    (hkeys : ∀ k ∈ [cue, "to", "and"], Lacks ws k.toList) : Lacks ws (listText cue l p) := by
  have hpair (q : Pair t) : Lacks ws (q.text l) := q.lacks hs ht hws hl (hkeys "to" (by simp)) l
  have hjoined : Lacks ws (joined l p.rest) := by
    induction p.rest with
    | nil => exact .nil
    | cons q ps ih =>
      simp only [joined, Lacks.space_cons, Lacks.append_space]
      exact ⟨hkeys "and" (by simp), lacks_append_spaced (hpair q) ih (spaced_joined l ps)⟩
  simp only [listText, Lacks.space_cons, Lacks.append_space]
  exact ⟨hkeys cue (by simp), lacks_append_spaced (hpair p.first) hjoined (spaced_joined l p.rest)⟩

theorem Pair.tidy (l : Link) (p : Pair t) : Tidy (p.text l) := by
  have hcolumn := (hs.free_of_mem ht p.column.2).tidy
  have hto : Tidy "to".toList := by decide
  cases l with
  | word => exact hcolumn.space (hto.space p.value.tidy)
  | blank => exact hcolumn.space p.value.tidy

theorem tidyEnd_listText {cue : String} (hcue : Tidy cue.toList) (l : Link) (p : Pairs t) :
    TidyEnd (listText cue l p) := by
  have hjoined : TidyEnd (joined l p.rest) := by
    induction p.rest with
    | nil => exact .nil
    | cons q ps ih =>
      have hand : Tidy "and".toList := by decide
      exact .cons (hand.space ((q.tidy hs ht l).append ih))
  exact .cons (hcue.space ((p.first.tidy hs ht l).append hjoined))

theorem plain_listText {cue : String} (hcue : cue = "set" ∨ cue = "with") (l : Link) (p : Pairs t) :
    Plain (listText cue l p) := by
  rcases hcue with rfl | rfl
  · exact ⟨tidyEnd_listText hs ht (by decide) l p,
      lacks_listText hs ht (by decide) (by decide) l p (by decide),
      lacks_listText hs ht (by decide) (by decide) l p (by decide)⟩
  · exact ⟨tidyEnd_listText hs ht (by decide) l p,
      lacks_listText hs ht (by decide) (by decide) l p (by decide),
      lacks_listText hs ht (by decide) (by decide) l p (by decide)⟩

/-! ### Taking the list -/

theorem Pairs.visible (l : Link) (p : Pairs t) (x : List Char) : ∀ c ∈ (p.text l ++ x).head?, isBlank c = false := by
  rw [Pairs.text, List.append_assoc]
  exact p.first.visible hs ht l _

omit hs ht in
theorem separator_whereText (c : Option (Chain t)) : Grammar.assignmentSeparator.find? (whereText c) = none := by
  cases c with
  | none => exact separator_eq_none (.inl rfl)
  | some c => exact separator_eq_none (.inr ⟨'w', _, rfl, by decide, by decide, by decide⟩)

/-- The list behind "set" ends where the conditions begin. -/
theorem takeSet_eq (l : Link) (p : Pairs t) (c : Option (Chain t)) {a : List Char} (ha : Lacks ["set"] a) :
    takeSet (subjectOf schema t) ⟨a ++ (listText "set" l p ++ whereText c)⟩ =
      (.ok p.assignments, ⟨a ++ (hidden (listText "set" l p) ++ whereText c)⟩) := by
  have hcue : Prefers Grammar.setCue (a ++ [' ']) ("set".toList ++ [' ']) (p.text l ++ whereText c) [] :=
    prefers_cue (.word "set") (by decide) (by decide) (p.visible hs ht l _)
  have hfind := Grammar.keyed_setCue.find?_eq (by decide) ha hcue
  have hshape : ' ' :: ("set".toList ++ [' '] ++ (p.text l ++ whereText c)) = listText "set" l p ++ whereText c := by
    simp [listText]
  rw [hshape] at hfind
  rw [takeSet, hfind]
  exact takePairs_eq hs ht l p a "set".toList (spaced_whereText c) (separator_whereText c)

omit hs ht in
theorem addValues_nil {as : List Assignment} (h : (as.map (·.column)).Nodup) : addValues [] as = as := by
  suffices ∀ (as before : List Assignment), ((before ++ as).map (·.column)).Nodup →
      addValues before as = before ++ as from this as [] h
  intro as
  induction as with
  | nil => intro before _; simp [addValues]
  | cons a as ih =>
    intro before h
    have hnew : before.any (fun b => decide (b.column = a.column)) = false := by
      refine List.any_eq_false.mpr fun b hb hcolumn => ?_
      rw [List.map_append, List.map_cons] at h
      exact (List.nodup_append.mp h).2.2 b.column (List.mem_map_of_mem hb) a.column List.mem_cons_self
        (of_decide_eq_true hcolumn)
    have hrest := ih (before ++ [a]) (by simpa using h)
    rw [addValues] at hrest ⊢
    rw [List.foldl_cons, hnew, if_neg Bool.false_ne_true, hrest, List.append_assoc, List.singleton_append]

theorem takeInsertValues_eq (l : Link) (p : Pairs t) (hcolumns : (p.list.map (·.column)).Nodup) {a : List Char}
    (ha : Lacks (Grammar.valuesWords ++ Grammar.namedWords) a) (n : Nat) :
    takeInsertValues (subjectOf schema t) n ⟨a ++ listText "with" l p⟩ =
      (.ok p.assignments, ⟨a ++ hidden (listText "with" l p)⟩) := by
  have hnamed : Lacks Grammar.namedWords (a ++ listText "with" l p) :=
    lacks_append_spaced (ha.mono (by decide)) (lacks_listText hs ht (by decide) (by decide) l p (by decide))
      (.cons _)
  have hnone := Grammar.keyed_named.needs.find?_eq_none (by decide) hnamed
  have hcue : Prefers Grammar.valuesCue (a ++ [' ']) ("with".toList ++ [' ']) (p.text l) [] := by
    have hvisible := p.visible hs ht l []
    rw [List.append_nil] at hvisible
    exact prefers_cue (.oneOf_head (.phrase (by decide))) (by decide) (by decide) hvisible
  have hfind := Grammar.keyed_valuesCue.find?_eq (by decide) (ha.mono (by decide)) hcue
  have hshape : ' ' :: ("with".toList ++ [' '] ++ p.text l) = listText "with" l p := by simp [listText]
  have hpairs := takePairs_eq hs ht l p a "with".toList .nil (separator_eq_none (.inl rfl))
  simp only [List.append_nil] at hpairs
  rw [hshape] at hfind
  have hnodup : (p.assignments.map (·.column)).Nodup := by
    rw [Pairs.assignments, List.map_map]
    exact List.pairwise_map.mpr ((List.pairwise_map.mp hcolumns).imp fun hne he => hne (Subtype.ext he))
  simp only [takeInsertValues, takeNamed, hnone, valuesStart?, hfind, Hit.span_behind]
  simp only [listText] at hpairs ⊢
  rw [hpairs]
  simp only [Except.map, addValues_nil hnodup]

end Text

/-! ### Sentences -/

inductive Writing (t : Table)
  | update (pairs : Pairs t) (filter : Option (Chain t))
  | delete (filter : Option (Chain t))
  | insert (pairs : Pairs t) (distinct : (pairs.list.map (·.column)).Nodup)

namespace Writing

def text : Writing t → List Char
  | .update pairs filter => "update".toList ++ ' ' :: (t.name.toList ++ (listText "set" .word pairs ++ whereText filter))
  | .delete filter => "delete".toList ++ ' ' :: ("from".toList ++ ' ' :: t.name.toList ++ whereText filter)
  | .insert pairs _ => "insert".toList ++ ' ' :: ("into".toList ++ ' ' :: t.name.toList ++ listText "with" .blank pairs)

def intent : Writing t → Intent
  | .update pairs filter => .update t.name pairs.assignments (filterOf filter)
  | .delete filter => .delete t.name (filterOf filter)
  | .insert pairs _ => .insert t.name pairs.assignments

end Writing

section Write

variable (t' : Interpreter) (hs : FreeSchema schema) (ht : t ∈ schema.tables)
include hs ht

/-- With nothing but conditions left, the filter is what they say. -/
theorem takeFilter_last (c : Option (Chain t)) {a : List Char} (ha : Lacks Grammar.cueWords a) :
    Interpreter.takeFilter (subjectOf schema t) none none ⟨a ++ whereText c⟩ =
      .ok (filterOf c, ⟨a ++ hidden (whereText c)⟩) := by
  have h := takeFilter_eq hs ht c ha .nil .nil .nil
  rwa [List.append_nil, List.append_nil] at h

theorem takeIntent_update (p : Pairs t) (c : Option (Chain t)) (u w : List Char) (verbEnd n : Nat) :
    t'.takeIntent (subjectOf schema t) .update verbEnd n none none
        ⟨hidden u ++ hidden w ++ (listText "set" .word p ++ whereText c)⟩ =
      .ok (.update t.name p.assignments (filterOf c), []) := by
  have hset := takeSet_eq hs ht .word p c (a := hidden u ++ hidden w) (lacks_append_hidden (lacks_hidden u))
  have hfilter := takeFilter_last hs ht c (a := hidden u ++ hidden w ++ hidden (listText "set" .word p))
    (lacks_append_hidden (lacks_append_hidden (lacks_hidden u)))
  rw [List.append_assoc _ (hidden (listText "set" .word p))] at hfilter
  simp only [Interpreter.takeIntent, hset, Taken.kept_ok, ok_bind, hfilter]
  rfl

theorem takeIntent_delete (c : Option (Chain t)) (u w : List Char) (verbEnd n : Nat) :
    t'.takeIntent (subjectOf schema t) .delete verbEnd n none none ⟨hidden u ++ hidden w ++ whereText c⟩ =
      .ok (.delete t.name (filterOf c), []) := by
  have hfilter := takeFilter_last hs ht c (a := hidden u ++ hidden w) (lacks_append_hidden (lacks_hidden u))
  simp only [Interpreter.takeIntent, hfilter, ok_bind]
  rfl

theorem takeIntent_insert (p : Pairs t) (hcolumns : (p.list.map (·.column)).Nodup) (u w : List Char) (verbEnd n : Nat) :
    t'.takeIntent (subjectOf schema t) .insert verbEnd n none none
        ⟨hidden u ++ hidden w ++ listText "with" .blank p⟩ = .ok (.insert t.name p.assignments, []) := by
  have hvalues := takeInsertValues_eq hs ht .blank p hcolumns (a := hidden u ++ hidden w)
    (lacks_append_hidden (lacks_hidden u)) n
  simp only [Interpreter.takeIntent, hvalues, Taken.kept_ok, ok_bind]
  rfl

/-- Every sentence that writes is interpreted as what it spells, by every interpreter. -/
theorem interpret_writing (w : Writing t) : ∃ i, t'.interpret (String.ofList w.text) schema = .ok i ∧
    i.intent = w.intent ∧ i.table = t.name ∧ i.known = true := by
  cases w with
  | update p c =>
    exact interpret_verb_table t' hs ht .update ((plain_listText hs ht (.inl rfl) .word p).append (plain_whereText hs ht c))
      (.word (by decide) (by decide)) fun n => takeIntent_update t' hs ht p c _ _ _ n
  | delete c =>
    have hintent (n : Nat) : t'.takeIntent (subjectOf schema t) .delete (size (verbWord .delete).toList) n none none
        ⟨hidden (verbWord .delete).toList ++ [] ++ hidden (' ' :: ("from".toList ++ ' ' :: t.name.toList)) ++
          whereText c⟩ = .ok (.delete t.name (filterOf c), []) := by
      rw [List.append_nil]
      exact takeIntent_delete t' hs ht c _ _ _ n
    have h := interpret_preposition_table t' hs ht .delete (plain_whereText hs ht c) (noId_whereText c) (.inl rfl)
      .nil (fun h => nomatch h) hintent
    exact h
  | insert p hcolumns =>
    have hintent (n : Nat) : t'.takeIntent (subjectOf schema t) .insert (size (verbWord .insert).toList) n none none
        ⟨hidden (verbWord .insert).toList ++ [] ++ hidden (' ' :: ("into".toList ++ ' ' :: t.name.toList)) ++
          listText "with" .blank p⟩ = .ok (.insert t.name p.assignments, []) := by
      rw [List.append_nil]
      exact takeIntent_insert t' hs ht p hcolumns _ _ _ n
    have h := interpret_preposition_table t' hs ht .insert (plain_listText hs ht (.inr rfl) .blank p)
      (.word (by decide) (by decide)) (.inr rfl) .nil (fun h => nomatch h) hintent
    exact h

end Write

/-- "and" in both lists of an update, and in the one of an insert. -/
theorem interpret_writing_users :
    let users : Table := ⟨"users", [.ofType "id" "integer", .ofType "age" "integer"]⟩
    let schema : Schema := ⟨[⟨"orders", [.ofType "id" "integer"]⟩, users]⟩
    FreeSchema schema ∧ users ∈ schema.tables ∧
    (∃ i, (Interpreter.ofDialect .sqlite).interpret "update users set age to 3 and id to 4 where id = 5 and age < 6"
        schema = .ok i ∧
      i.intent = .update "users" [⟨"age", .number "3"⟩, ⟨"id", .number "4"⟩]
        [(.and, .compare "id" .equal (.number "5")), (.and, .compare "age" .less (.number "6"))] ∧
      i.table = "users" ∧ i.known = true) ∧
    ∃ i, (Interpreter.ofDialect .sqlite).interpret "insert into users with age 3 and id 4" schema = .ok i ∧
      i.intent = .insert "users" [⟨"age", .number "3"⟩, ⟨"id", .number "4"⟩] ∧ i.table = "users" ∧ i.known = true := by
  intro users schema
  have hs : FreeSchema schema := ⟨by decide +kernel, by decide +kernel, by decide +kernel, by decide +kernel⟩
  have ht : users ∈ schema.tables := by decide
  let age : ColumnOf users := ⟨"age", by decide⟩
  let id : ColumnOf users := ⟨"id", by decide⟩
  let pairs : Pairs users := ⟨⟨age, numeralOf 3⟩, [⟨id, numeralOf 4⟩]⟩
  let update : Writing users := .update pairs (some ⟨⟨id, .equal, numeralOf 5⟩, [(.and, ⟨age, .less, numeralOf 6⟩)]⟩)
  let insert : Writing users := .insert pairs (by decide)
  have hupdate : update.text = "update users set age to 3 and id to 4 where id = 5 and age < 6".toList := by
    decide +kernel
  have hinsert : insert.text = "insert into users with age 3 and id 4".toList := by decide +kernel
  have h₁ := interpret_writing (.ofDialect .sqlite) hs ht update
  have h₂ := interpret_writing (.ofDialect .sqlite) hs ht insert
  rw [hupdate, String.ofList_toList] at h₁
  rw [hinsert, String.ofList_toList] at h₂
  exact ⟨hs, ht, h₁, h₂⟩

end Parlance.Sentence
