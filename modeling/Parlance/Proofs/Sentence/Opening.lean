import Parlance.Proofs.Grammar.NameWord
import Parlance.Proofs.Interpretation.Stages
import Parlance.Proofs.Sentence.Tidy

/-! The opening of a sentence: its verb, and the table that a preposition or the verb itself leads to.
No recent time and no id is found in a sentence without the words for them. -/

namespace Parlance.Sentence

open Pattern Text
open Interpretation
open Grammar (detect? verbs opens countOpening isFiller nameWord tablePreposition idShorthand prepositions recencyWords
  TimePhrase)

/-! ### Verbs -/

def verbWord : Operation → String
  | .select => "show"
  | .insert => "insert"
  | .update => "update"
  | .delete => "delete"
  | .count => "count"

/-- The pattern is the opening of a verb, and none of its texts begins with the character. -/
def OpensUnlike (c : Char) (q : Pattern) : Prop := ∃ p, q = opens p ∧ p.nullable = false ∧ p.begins c = false

theorem OpensUnlike.find?_eq_none {c : Char} {q : Pattern} {v : List Char} (h : OpensUnlike c q) :
    q.find? (c :: v) = none := by
  obtain ⟨p, rfl, hn, hb⟩ := h
  have hfails : Fails p [] (c :: v) := by
    refine fails_of_begins hn fun d hd => ?_
    cases hd
    exact hb
  exact find?_start_eq_none (fails_behind_start hfails.both)

theorem prefers_opens {p : Pattern} {w x : List Char} (hp : Prefers p [] w x []) (hne : w ≠ [])
    (hword : ∀ c ∈ w, isWord c = true) (hx : Spaced x) : Prefers (opens p) [] w x [] :=
  .seq_nil .start (.both_nil hp (.edge_behind hne hword hx.isWordAt))

/-- The sentence does not go on with "me", which belongs to the verb. -/
def NoMe (x : List Char) : Prop := ∀ u, Fails (seq [gap, word "me", edge]) u x

theorem FreeName.noMe {n : String} (h : FreeName n) {x : List Char} (hx : isWordAt x.head? = false) :
    NoMe (' ' :: (n.toList ++ x)) := by
  intro u
  refine fails_gap (h.visible x) ((headed_edge (k := "me") (by decide)).fails_word (by decide) h.isWord hx ?_)
  intro k hk
  rw [List.mem_singleton.mp hk]
  exact h.not_spelled (by decide)

/-- The openings that are tried before that of a verb begin with other letters. -/
theorem verbs_split (o : Operation) : ∃ before v behind c w, verbs = before ++ v :: behind ∧ v.operation = o ∧
    (verbWord o).toList = c :: w ∧ (∀ b ∈ before, OpensUnlike c b.opening) ∧
    ∀ x, Spaced x → (o = .select → NoMe x) → Prefers v.opening [] (verbWord o).toList x [] := by
  have hopens {v : String} {ws : List String} (hv : v.toList ≠ []) (hword : ∀ c ∈ v.toList, isWord c = true)
      (hspace : ' ' ∉ v.toList) (x : List Char) (hx : Spaced x) :
      Prefers (opens (phrases (v :: ws))) [] v.toList x [] :=
    prefers_opens (.oneOf_head (.phrase hspace)) hv hword hx
  cases o with
  | count =>
    refine ⟨[], _, verbs.drop 1, _, _, rfl, rfl, rfl, List.forall_mem_nil _, fun x hx _ => ?_⟩
    exact prefers_opens (.oneOf_head (.word "count")) (by decide) (by decide) hx
  | insert =>
    refine ⟨verbs.take 1, _, verbs.drop 2, _, _, rfl, rfl, rfl, ?_, fun x hx _ =>
      hopens (by decide) (by decide) (by decide) x hx⟩
    exact List.forall_mem_singleton.mpr ⟨_, rfl, by decide, by decide⟩
  | update =>
    refine ⟨verbs.take 2, _, verbs.drop 3, _, _, rfl, rfl, rfl, ?_, fun x hx _ =>
      hopens (by decide) (by decide) (by decide) x hx⟩
    simp only [verbs, List.take, List.forall_mem_cons]
    exact ⟨⟨_, rfl, by decide, by decide⟩, ⟨_, rfl, by decide, by decide⟩, List.forall_mem_nil _⟩
  | delete =>
    refine ⟨verbs.take 3, _, verbs.drop 4, _, _, rfl, rfl, rfl, ?_, fun x hx _ =>
      hopens (by decide) (by decide) (by decide) x hx⟩
    simp only [verbs, List.take, List.forall_mem_cons]
    exact ⟨⟨_, rfl, by decide, by decide⟩, ⟨_, rfl, by decide, by decide⟩, ⟨_, rfl, by decide, by decide⟩,
      List.forall_mem_nil _⟩
  | select =>
    refine ⟨verbs.take 4, _, [], _, _, rfl, rfl, rfl, ?_, fun x hx hme =>
      .both_nil (hopens (by decide) (by decide) (by decide) x hx) (.optional_absent (hme rfl _))⟩
    simp only [verbs, List.take, List.forall_mem_cons]
    exact ⟨⟨_, rfl, by decide, by decide⟩, ⟨_, rfl, by decide, by decide⟩, ⟨_, rfl, by decide, by decide⟩,
      ⟨_, rfl, by decide, by decide⟩, List.forall_mem_nil _⟩

theorem detect?_verb (o : Operation) {x : List Char} (hx : Spaced x) (hme : o = .select → NoMe x) :
    detect? ((verbWord o).toList ++ x) = some (o, size (verbWord o).toList) := by
  obtain ⟨before, v, behind, c, w, hverbs, hoperation, hword, hbefore, hv⟩ := verbs_split o
  have hnone : before.findSome? (fun v => (v.opening.find? ((verbWord o).toList ++ x)).map
      fun h => (v.operation, h.span.stop)) = none := by
    refine List.findSome?_eq_none_iff.mpr fun b hb => ?_
    rw [hword, List.cons_append, (hbefore b hb).find?_eq_none]
    rfl
  rw [detect?, hverbs, List.findSome?_append, hnone, Option.none_or, List.findSome?_cons, (hv x hx hme).find?,
    Option.map_some, hoperation, Hit.span_behind, List.nil_append]

theorem takeVerb_eq (v x : List Char) (hv : v ≠ []) :
    Interpreter.takeVerb ⟨v ++ x⟩ (size v) = ⟨hidden v ++ x⟩ := by
  have hpos : 0 < size v := by
    obtain ⟨c, v, rfl⟩ := List.exists_cons_of_ne_nil hv
    have hc := c.utf8Size_pos
    simp only [size]
    omega
  have htake := take_behind [] v x
  rw [Interpreter.takeVerb, if_pos hpos]
  exact htake

/-! ### Recent time -/

theorem takeWindow_eq {cs : List Char} (h : ∀ p : TimePhrase, p.pattern.find? cs = none) :
    takeWindow ⟨cs⟩ = (.ok none, ⟨cs⟩) := by
  simp only [takeWindow, TimePhrase.all, firstWindow, h]

theorem takeWindow_eq_none {cs : List Char} (h : Lacks recencyWords cs) : takeWindow ⟨cs⟩ = (.ok none, ⟨cs⟩) :=
  takeWindow_eq fun p => p.needs.find?_eq_none (by decide) h

/-! ### Tables -/

variable {schema : Schema} {t : Table}

theorem prefers_tablePreposition {a x : List Char} {k : String} {n : String} (hn : FreeName n)
    (hk : k = "from" ∨ k = "into") (hx : Spaced x) : ∃ u,
    Prefers tablePreposition (a ++ [' ']) (k.toList ++ ' ' :: n.toList) x [(1, .behind u n.toList)] := by
  have hlead {u : List Char} : Prefers (lead ["the", "all", "my"]) u [] (n.toList ++ x) [] :=
    hn.prefers_lead (by decide) (by decide) hx
  have hname {u : List Char} : Prefers (seq [gap, lead ["the", "all", "my"], group 1 name]) u (' ' :: n.toList) x
      [(1, .behind (u ++ [' ']) n.toList)] :=
    .seq_cons (v := [' ']) (.gap_space (hn.visible x)) (.seq_nil hlead (.seq_last (hn.prefers_name hx).group))
  have hphrase {y : List Char} : Prefers (phrases ["from", "into", "in", "of"]) (a ++ [' ']) k.toList y [] := by
    rcases hk with rfl | rfl
    · exact .oneOf_head (.phrase (by decide))
    · refine .oneOf_tail (fails_of_begins rfl fun c hc => ?_) (.oneOf_head (.phrase (by decide)))
      cases hc
      decide
  have hedge : Prefers edge (a ++ [' ']) [] (k.toList ++ ' ' :: n.toList ++ x) [] := by
    rw [List.append_assoc]
    rcases hk with rfl | rfl <;> exact .edge_before (by decide) (by decide)
  exact ⟨_, .seq_nil hedge (.seq_cons hphrase hname)⟩

/-- The first word behind a preposition is the table, wherever the verb ends. -/
theorem resolveTable?_preposition (hs : FreeSchema schema) (ht : t ∈ schema.tables) {k : String}
    (hk : k = "from" ∨ k = "into") {a x : List Char} (ha : Lacks prepositions a) (hx : Spaced x) (verbEnd : Nat) :
    resolveTable? ⟨a ++ ' ' :: (k.toList ++ ' ' :: t.name.toList ++ x)⟩ verbEnd schema =
      some ⟨t.name, true, ⟨size (a ++ [' ']), size (a ++ [' '] ++ (k.toList ++ ' ' :: t.name.toList))⟩⟩ := by
  have hfree := hs.tables t ht
  obtain ⟨u, hprefers⟩ := prefers_tablePreposition (a := a) hfree hk hx
  have hhits := Grammar.keyed_tablePreposition.hits_eq (by decide) ha hprefers (by simp)
  obtain ⟨rest, hmentions⟩ : ∃ rest, prepositionMentions (a ++ ' ' :: (k.toList ++ ' ' :: t.name.toList ++ x)) =
      ⟨t.name.toList, ⟨size (a ++ [' ']), size (a ++ [' '] ++ (k.toList ++ ' ' :: t.name.toList))⟩⟩ :: rest := by
    simp only [prepositionMentions]
    rw [hhits, List.filterMap_cons]
    simp only [Hit.text?_behind, List.lookup_cons_self, Option.map_some, Capture.text_behind, hfree.not_isFiller,
      Bool.false_eq_true, if_false, Hit.span_behind]
    exact ⟨_, rfl⟩
  simp only [resolveTable?, tableMentions, hmentions, knownMatch?, List.cons_append, List.findSome?_cons,
    hs.lookupTable?_eq ht, Option.map_some]

/-! ### Words -/

theorem begins_nameWord (c : Char) : nameWord.begins c = isNameStart c := by
  simp [nameWord, seq, name, begins, nullable]

theorem hitsFrom_nameWord_skip {u pre v : List Char} {low : Nat} (hpre : ∀ c ∈ pre, isNameStart c = false) :
    nameWord.hitsFrom low (.between u (pre ++ v)) (pre ++ v) = nameWord.hitsFrom low (.between (u ++ pre) v) v := by
  refine hitsFrom_skip fun a b hab hb => fails_of_begins rfl fun c hc => ?_
  have hmem : c ∈ pre := by
    obtain ⟨d, b, rfl⟩ := List.exists_cons_of_ne_nil hb
    cases hc
    simp [hab]
  rw [begins_nameWord, hpre c hmem]

theorem hitsFrom_nameWord_eq_nil {u v : List Char} {low : Nat} (hv : ∀ c ∈ v, isNameStart c = false) :
    nameWord.hitsFrom low (.between u v) v = [] := by
  refine hitsFrom_eq_nil fun a b hab => fails_of_begins rfl fun c hc => ?_
  rw [begins_nameWord, hv c (by rw [hab]; exact List.mem_append_right _ (List.mem_of_mem_head? hc))]

theorem hitsFrom_nameWord {u w x : List Char} {low : Nat} (hw : IsName w) (hu : isWordAt u.getLast? = false)
    (hx : isWordAt x.head? = false) (hlow : low ≤ size u) :
    nameWord.hitsFrom low (.between u (w ++ x)) (w ++ x) =
      .behind u w [] :: nameWord.hitsFrom (size (u ++ w)) (.between (u ++ w) x) x :=
  (Grammar.prefers_nameWord ⟨hw, hu, hx⟩).hitsFrom hw.ne_nil hlow

/-- A name behind a verb is the first word behind it. -/
theorem verbMention_name {a w x : List Char} (hw : IsName w) (hfiller : isFiller w = false)
    (hx : isWordAt x.head? = false) (hne : a ≠ []) : verbMention (size a) (a ++ ' ' :: (w ++ x)) =
      [⟨w, ⟨size (a ++ [' ']), size (a ++ [' '] ++ w)⟩⟩] := by
  have hpos : size a ≠ 0 := by
    obtain ⟨c, a, rfl⟩ := List.exists_cons_of_ne_nil hne
    have hc := c.utf8Size_pos
    simp only [size]
    omega
  obtain ⟨rest, hhits⟩ : ∃ rest, nameWord.hits (' ' :: (w ++ x)) = .behind [' '] w [] :: rest := by
    have hskip : nameWord.hitsFrom 0 (.between [] ([' '] ++ (w ++ x))) ([' '] ++ (w ++ x)) = _ :=
      hitsFrom_nameWord_skip (by decide)
    have hname := hitsFrom_nameWord (u := [' ']) hw (by decide) hx (Nat.zero_le _)
    exact ⟨_, hskip.trans hname⟩
  have hmentions : (wordMentions (' ' :: (w ++ x))).take 1 = [⟨w, ⟨size [' '], size ([' '] ++ w)⟩⟩] := by
    have hkeep : (!isFiller (Hit.behind [' '] w []).text) = true := congrArg not hfiller
    simp only [wordMentions, hhits, List.filter_cons, hkeep, if_true, List.map_cons, List.take_succ_cons,
      List.take_zero]
    rfl
  simp only [verbMention, hpos, if_false, dropTo_size_append, hmentions, List.map_cons, List.map_nil, Span.shift,
    size_append, Nat.add_assoc]

/-- If no preposition leads to a table, the first word behind the verb does. -/
theorem resolveTable?_verb (hs : FreeSchema schema) (ht : t ∈ schema.tables) {a x : List Char}
    (hnone : knownMatch? schema (prepositionMentions (a ++ ' ' :: (t.name.toList ++ x))) = none)
    (hx : isWordAt x.head? = false) (hne : a ≠ []) :
    resolveTable? ⟨a ++ ' ' :: (t.name.toList ++ x)⟩ (size a) schema =
      some ⟨t.name, true, ⟨size (a ++ [' ']), size (a ++ [' '] ++ t.name.toList)⟩⟩ := by
  have hfree := hs.tables t ht
  have hverb : knownMatch? schema (verbMention (size a) (a ++ ' ' :: (t.name.toList ++ x))) =
      some ⟨t.name, true, ⟨size (a ++ [' ']), size (a ++ [' '] ++ t.name.toList)⟩⟩ := by
    rw [verbMention_name hfree.isName hfree.not_isFiller hx hne, knownMatch?, List.findSome?_cons, hs.lookupTable?_eq ht,
      Option.map_some]
  simp only [knownMatch?] at hnone hverb
  simp only [resolveTable?, tableMentions, knownMatch?, List.findSome?_append, hnone, hverb, Option.none_or]

theorem prepositionMentions_eq_nil {cs : List Char} (h : Lacks prepositions cs) : prepositionMentions cs = [] := by
  rw [prepositionMentions, Grammar.keyed_tablePreposition.needs.hits_eq_nil (by decide) h, List.filterMap_nil]

/-! ### Ids -/

/-- What an id may begin with, behind the blank that separates it from the table. -/
def idMark : Pattern :=
  seq [optional (oneOf [both (char '#') maybeGap, both (word "number") gap,
      seq [word "no", optional (char '.'), maybeGap], both (word "id") gap]),
    optional (char '#'), group 1 digits, edge]

/-- The sentence ends behind the table or goes on with a word that is no sign of an id. -/
def NoId (cs : List Char) : Prop :=
  cs = [] ∨ ∃ c v, cs = ' ' :: c :: v ∧ isBlank c = false ∧ idMark.begins c = false

theorem NoId.nil : NoId [] := .inl rfl

theorem NoId.word {c : Char} {v : List Char} (hblank : isBlank c = false) (hmark : idMark.begins c = false) :
    NoId (' ' :: c :: v) := .inr ⟨c, v, rfl, hblank, hmark⟩

theorem NoId.append {u v : List Char} (hu : NoId u) (hv : NoId v) : NoId (u ++ v) := by
  rcases hu with rfl | ⟨c, w, rfl, hc⟩
  · exact hv
  · exact .inr ⟨c, w ++ v, rfl, hc⟩

theorem NoId.find?_eq_none {cs : List Char} (h : NoId cs) : idShorthand.find? cs = none := by
  refine find?_start_eq_none (fails_behind_start ?_)
  rcases h with rfl | ⟨c, v, rfl, hblank, hbegins⟩
  · exact fails_of_begins rfl fun c hc => nomatch hc
  · refine fails_gap (q := idMark) (fun d hd => ?_) (fails_of_begins rfl fun d hd => ?_)
    · cases hd
      exact hblank
    · cases hd
      exact hbegins

theorem idFor_eq_none (o : Operation) (s : Subject) (a : List Char) {z : List Char} (h : NoId z) :
    Interpreter.idFor o s (size a) ⟨a ++ z⟩ = (none, ⟨a ++ z⟩) := by
  simp only [Interpreter.idFor, takeId, Workspace.after, dropTo_size_append, h.find?_eq_none, ite_self]

/-! ### Sentences -/

/-- What stands in a sentence beside its verb and its table tells of no table and no time. -/
structure Plain (cs : List Char) : Prop where
  tidy : TidyEnd cs
  no_mention : Lacks prepositions cs
  no_time : Lacks recencyWords cs

theorem TidyEnd.spaced {cs : List Char} (h : TidyEnd cs) : Spaced cs := by
  rcases h with rfl | ⟨v, rfl, -⟩
  · exact .nil
  · exact .cons v

namespace Plain

variable {u v : List Char}

theorem nil : Plain [] := ⟨.nil, .nil, .nil⟩

theorem append (hu : Plain u) (hv : Plain v) : Plain (u ++ v) where
  tidy := hu.tidy.append hv.tidy
  no_mention := lacks_append_spaced hu.no_mention hv.no_mention hv.tidy.spaced
  no_time := lacks_append_spaced hu.no_time hv.no_time hv.tidy.spaced

theorem spaced (h : Plain u) : Spaced u := h.tidy.spaced

end Plain

theorem FreeName.plain {n : String} (h : FreeName n) : Plain (' ' :: n.toList) where
  tidy := .cons h.tidy
  no_mention := Lacks.space_cons.mpr (h.lacks (by decide))
  no_time := Lacks.space_cons.mpr (h.lacks (by decide))

/-- A sentence is interpreted as its clauses are, once the table is found behind `a`. -/
theorem interpret_sentence (t' : Interpreter) (o : Operation) {text : String} {a w z : List Char}
    {r : Intent × List String}
    (hnormal : Interpreter.normalize text.toList = (verbWord o).toList ++ (a ++ ' ' :: (w ++ z)))
    (hspaced : Spaced (a ++ ' ' :: (w ++ z))) (hme : o = .select → NoMe (a ++ ' ' :: (w ++ z))) (hid : NoId z)
    (hwindow : takeWindow ⟨hidden (verbWord o).toList ++ a ++ ' ' :: (w ++ z)⟩ =
      (.ok none, ⟨hidden (verbWord o).toList ++ a ++ ' ' :: (w ++ z)⟩))
    (htable : resolveTable? ⟨hidden (verbWord o).toList ++ a ++ ' ' :: (w ++ z)⟩ (size (verbWord o).toList) schema =
      some ⟨t.name, true, ⟨size (hidden (verbWord o).toList ++ a ++ [' ']),
        size (hidden (verbWord o).toList ++ a ++ [' '] ++ w)⟩⟩)
    (hintent : ∀ n, t'.takeIntent (subjectOf schema t) o (size (verbWord o).toList) n none none
      ⟨hidden (verbWord o).toList ++ a ++ hidden (' ' :: w) ++ z⟩ = .ok r) :
    ∃ i, t'.interpret text schema = .ok i ∧ i.intent = r.1 ∧ i.table = t.name ∧ i.known = true := by
  have hverb : (verbWord o).toList ≠ [] := by cases o <;> decide
  have htake := take_segment (hidden (verbWord o).toList ++ a) w z
  have hsize : size (hidden (verbWord o).toList ++ a ++ [' '] ++ w) =
      size (hidden (verbWord o).toList ++ a ++ hidden (' ' :: w)) := by
    simp only [size_append, size_hidden, size, Nat.add_zero, Nat.add_assoc]
  have hidFor := idFor_eq_none o (subjectOf schema t) (hidden (verbWord o).toList ++ a ++ hidden (' ' :: w)) hid
  rw [← hsize] at hidFor
  rw [← List.append_assoc _ (hidden (' ' :: w))] at htake
  have hstages : Interpreter.Stages t' text schema (o, size (verbWord o).toList) none
      ⟨hidden (verbWord o).toList ++ a ++ ' ' :: (w ++ z)⟩
      ⟨t.name, true, ⟨size (hidden (verbWord o).toList ++ a ++ [' ']),
        size (hidden (verbWord o).toList ++ a ++ [' '] ++ w)⟩⟩
      (none, ⟨hidden (verbWord o).toList ++ a ++ hidden (' ' :: w) ++ z⟩) r := by
    constructor
    · rw [hnormal, detect?_verb o hspaced hme]
      rfl
    · rw [hnormal, takeVerb_eq _ _ hverb, Interpreter.windowFor, ← List.append_assoc, hwindow, ite_self]
    · exact htable
    · rw [htake]
      exact hidFor
    · exact hintent _
  refine Interpreter.interpret_of_stages hstages ?_ rfl
  rw [hnormal]
  simp [hverb]

/-- A tidy sentence is its own normal form. -/
theorem normalize_sentence {o : Operation} {x : List Char} (h : TidyEnd x) :
    Interpreter.normalize (String.ofList ((verbWord o).toList ++ x)).toList = (verbWord o).toList ++ x := by
  have hverb : Tidy (verbWord o).toList := by cases o <;> decide
  rw [String.toList_ofList, (hverb.append h).normalize_eq]

section Table

variable (t' : Interpreter) (hs : FreeSchema schema) (ht : t ∈ schema.tables) (o : Operation) {z : List Char}
  (hz : Plain z) (hid : NoId z) {r : Intent × List String}
include hs ht hz hid

/-- The table right behind the verb. -/
theorem interpret_verb_table (hintent : ∀ n, t'.takeIntent (subjectOf schema t) o (size (verbWord o).toList) n
      none none ⟨hidden (verbWord o).toList ++ hidden (' ' :: t.name.toList) ++ z⟩ = .ok r) :
    ∃ i, t'.interpret (String.ofList ((verbWord o).toList ++ ' ' :: (t.name.toList ++ z))) schema = .ok i ∧
      i.intent = r.1 ∧ i.table = t.name ∧ i.known = true := by
  have hfree := hs.tables t ht
  have hplain : Plain (' ' :: (t.name.toList ++ z)) := hfree.plain.append hz
  have hverb : (verbWord o).toList ≠ [] := by cases o <;> decide
  have hmentions := prepositionMentions_eq_nil (lacks_hidden_append (u := (verbWord o).toList).mpr hplain.no_mention)
  have htable := resolveTable?_verb hs ht (congrArg (knownMatch? schema) hmentions) hz.spaced.isWordAt
    (hidden_ne_nil hverb)
  refine interpret_sentence t' o (a := []) (normalize_sentence hplain.tidy) hplain.spaced
    (fun _ => hfree.noMe hz.spaced.isWordAt) hid ?_ ?_ ?_
  · rw [List.append_nil]
    exact takeWindow_eq_none (lacks_hidden_append.mpr hplain.no_time)
  · rw [List.append_nil, ← size_hidden (verbWord o).toList]
    exact htable
  · rw [List.append_nil]
    exact hintent

/-- The table behind a preposition. -/
theorem interpret_preposition_table {k : String} (hk : k = "from" ∨ k = "into") {a : List Char} (ha : Plain a)
    (hme : o = .select → NoMe (a ++ ' ' :: (k.toList ++ ' ' :: t.name.toList ++ z)))
    (hintent : ∀ n, t'.takeIntent (subjectOf schema t) o (size (verbWord o).toList) n none none
      ⟨hidden (verbWord o).toList ++ a ++ hidden (' ' :: (k.toList ++ ' ' :: t.name.toList)) ++ z⟩ = .ok r) :
    ∃ i, t'.interpret (String.ofList ((verbWord o).toList ++ (a ++ ' ' :: (k.toList ++ ' ' :: t.name.toList ++ z))))
        schema = .ok i ∧ i.intent = r.1 ∧ i.table = t.name ∧ i.known = true := by
  have hfree := hs.tables t ht
  have hpreposition : Tidy k.toList := by rcases hk with rfl | rfl <;> decide
  have hno_time : Lacks recencyWords k.toList := by rcases hk with rfl | rfl <;> decide
  have htidy : TidyEnd (a ++ ' ' :: (k.toList ++ ' ' :: t.name.toList ++ z)) :=
    ha.tidy.append (.cons ((hpreposition.space hfree.tidy).append hz.tidy))
  have htime : Lacks recencyWords (a ++ ' ' :: (k.toList ++ ' ' :: t.name.toList ++ z)) := by
    refine Lacks.append_space.mpr ⟨ha.no_time, ?_⟩
    rw [List.append_assoc]
    exact Lacks.append_space.mpr ⟨hno_time, Lacks.space_cons.mp (hfree.plain.append hz).no_time⟩
  refine interpret_sentence t' o (normalize_sentence htidy) htidy.spaced hme hid ?_
    (resolveTable?_preposition hs ht hk (lacks_hidden_append.mpr ha.no_mention) hz.spaced _) hintent
  rw [List.append_assoc]
  exact takeWindow_eq_none (lacks_hidden_append.mpr htime)

end Table

end Parlance.Sentence
