import Parlance.Proofs.Interpretation.Catalog
import Parlance.Proofs.Interpretation.Remains
import Parlance.Proofs.Pattern.Search

/-! When a request is refused, and how. The verb is taken first, then the time phrase, and what is left has
to name the table; behind that a request fails only for a column that its table does not have. -/

namespace Parlance

open Text (Leaves)
open Grammar (TimePhrase nameWord)

theorem Gives.of_error {α : Type} {E : Error → Prop} {P : α → Prop} {x : Except Error α} {e : Error}
    (hx : Gives E P x) (h : x = .error e) : E e := by
  rw [h] at hx
  exact hx

theorem bind_eq_error {α β : Type} {x : Except Error α} {f : α → Except Error β} {e : Error}
    (h : x >>= f = .error e) : x = .error e ∨ ∃ a, x = .ok a ∧ f a = .error e := by
  cases x with
  | error e' =>
    cases h
    exact .inl rfl
  | ok a => exact .inr ⟨a, rfl, h⟩

namespace Interpretation

variable {ws : Workspace} {schema : Schema}

/-! ### Time phrases -/

/-- The number of the phrase does not fit a window; weeks have to fit in days. -/
def Unfit (h : Pattern.Hit) : Prop :=
  ∀ n, (h.text? 1).bind Number.readWord32? = some n →
    isWeek (Text.lower ((h.text? 2).getD [])) = true ∧ Number.maxWord32 < 7 * n

theorem windowOf_lastN (h : Pattern.Hit) :
    (Unfit h ∧ ∃ x, windowOf .lastN h = .error (.unrecognizedIntent x)) ∨
      (¬Unfit h ∧ ∃ w, windowOf .lastN h = .ok w) := by
  simp only [windowOf]
  split
  · next hnone => exact .inl ⟨fun n hn => by simp [hnone] at hn, _, rfl⟩
  · next n hn =>
    have hunfit : Unfit h ↔ isWeek (Text.lower ((h.text? 2).getD [])) = true ∧ Number.maxWord32 < 7 * n := by
      rw [Unfit, hn]
      constructor
      · exact fun hall => hall n rfl
      · rintro hweek m hm
        cases hm
        exact hweek
    rw [hunfit]
    split
    · next hweek => exact .inl ⟨by simpa using hweek, _, rfl⟩
    · next hweek => exact .inr ⟨by simpa using hweek, _, rfl⟩

theorem windowOf_ok {p : TimePhrase} (hp : p ≠ .lastN) (h : Pattern.Hit) : ∃ w, windowOf p h = .ok w := by
  cases p with
  | lastN => exact absurd rfl hp
  | lastUnit =>
    simp only [windowOf]
    split <;> exact ⟨_, rfl⟩
  | yesterday | today => exact ⟨_, rfl⟩

theorem firstWindow_ok {ps : List TimePhrase} (hps : .lastN ∉ ps) : ∃ w, (firstWindow ws ps).1 = .ok w := by
  induction ps with
  | nil => exact ⟨none, rfl⟩
  | cons p ps ih =>
    have hrest := ih fun hmem => hps (.tail _ hmem)
    have hp : p ≠ .lastN := fun h => hps (h ▸ List.mem_cons_self)
    simp only [firstWindow]
    split
    · exact hrest
    · next h _ =>
      obtain ⟨w, hw⟩ := windowOf_ok hp h
      rw [hw]
      cases w with
      | none => exact hrest
      | some w => exact ⟨some w, rfl⟩

theorem takeWindow_cases (ws : Workspace) :
    ((∃ h, TimePhrase.lastN.pattern.find? ws.text = some h ∧ Unfit h) ∧
        ∃ x, (takeWindow ws).1 = .error (.unrecognizedIntent x)) ∨
      ((¬∃ h, TimePhrase.lastN.pattern.find? ws.text = some h ∧ Unfit h) ∧ ∃ w, (takeWindow ws).1 = .ok w) := by
  have hrest : ∃ w, (firstWindow ws [.lastUnit, .yesterday, .today]).1 = .ok w := firstWindow_ok (by decide)
  simp only [takeWindow, TimePhrase.all]
  rw [firstWindow]
  cases hh : TimePhrase.lastN.pattern.find? ws.text with
  | none =>
    refine .inr ⟨?_, hrest⟩
    rintro ⟨h, hnone, -⟩
    cases hnone
  | some h =>
    dsimp only
    rcases windowOf_lastN h with ⟨hunfit, x, hx⟩ | ⟨hfit, w, hw⟩
    · rw [hx]
      exact .inl ⟨⟨h, rfl, hunfit⟩, x, rfl⟩
    · rw [hw]
      refine .inr ⟨?_, ?_⟩
      · rintro ⟨h', hsame, hunfit⟩
        cases hsame
        exact hfit hunfit
      · cases w with
        | none => exact hrest
        | some w => exact ⟨some w, rfl⟩

/-- Looking for a time phrase leaves no new words. -/
theorem leaves_firstWindow (ps : List TimePhrase) : Leaves ws.text (firstWindow ws ps).2.text := by
  induction ps with
  | nil => exact .refl _
  | cons p ps ih =>
    simp only [firstWindow]
    split
    · exact ih
    · next h hh =>
      split
      · exact .refl _
      · exact .blankOut (Pattern.inside_of_find? hh).span_le _
      · exact ih

/-! ### Tables -/

/-- The word names a table of the schema as it stands, in the plural or in the singular. -/
def NamesTable (schema : Schema) (w : List Char) : Prop :=
  ∃ form ∈ [Text.lower w, Inflection.pluralize (Text.lower w), Inflection.singularize (Text.lower w)],
    ∃ table ∈ schema.tables, Text.sameWord table.name.toList form = true

theorem lookupTable?_isSome_iff {w : List Char} : (lookupTable? schema w).isSome = true ↔ NamesTable schema w := by
  simp only [lookupTable?, List.findSome?_isSome_iff, Option.isSome_map, Schema.find?, List.find?_isSome,
    Inflection.mem_candidates_iff, NamesTable]

theorem knownMatch?_eq_none_iff {ms : List Mention} :
    knownMatch? schema ms = none ↔ ∀ m ∈ ms, ¬NamesTable schema m.word := by
  simp only [knownMatch?, List.findSome?_eq_none_iff, Option.map_eq_none_iff, ← lookupTable?_isSome_iff,
    Bool.not_eq_true, Option.isSome_eq_false_iff, Option.isNone_iff_eq_none]

theorem known_of_knownMatch? {ms : List Mention} {m : TableMatch} (h : knownMatch? schema ms = some m) :
    m.known = true := by
  obtain ⟨mention, -, hm⟩ := List.exists_of_findSome?_eq_some h
  obtain ⟨name, -, rfl⟩ := Option.map_eq_some_iff.mp hm
  rfl

theorem resolveTable?_of_names {verbEnd : Nat} {x : Mention}
    (hx : x ∈ prepositionMentions ws.text ++ wordMentions ws.text) (hname : NamesTable schema x.word) : ∃ m, resolveTable? ws verbEnd schema = some m ∧ m.known = true := by
  simp only [resolveTable?]
  cases hm : knownMatch? schema (tableMentions verbEnd ws.text) with
  | some m => exact ⟨m, rfl, known_of_knownMatch? hm⟩
  | none =>
    have hnone := knownMatch?_eq_none_iff.mp hm
    rcases List.mem_append.mp hx with hx | hx
    · exact absurd hname (hnone x (List.mem_append_left _ hx))
    · cases hw : knownMatch? schema (wordMentions ws.text) with
      | some m => exact ⟨m, rfl, known_of_knownMatch? hw⟩
      | none => exact absurd hname (knownMatch?_eq_none_iff.mp hw x hx)

/-- If no word names a table, the first candidate is taken for one. -/
theorem resolveTable?_of_not_names {verbEnd : Nat}
    (h : ∀ x ∈ tableMentions verbEnd ws.text ++ wordMentions ws.text, ¬NamesTable schema x.word) :
    resolveTable? ws verbEnd schema = (tableMentions verbEnd ws.text).head?.map unknownMatch := by
  obtain ⟨htable, hword⟩ := List.forall_mem_append.mp h
  rw [resolveTable?, knownMatch?_eq_none_iff.mpr htable, knownMatch?_eq_none_iff.mpr hword]

/-! ### What the verb leaves -/

end Interpretation

namespace Text

theorem takeTo_spaces (a n : Nat) (v : List Char) :
    takeTo a (List.replicate n ' ' ++ v) = List.replicate (min a n) ' ' ++ takeTo (a - n) v := by
  have hsize : (' ' : Char).utf8Size = 1 := by decide
  induction n generalizing a with
  | zero => simp
  | succ n ih =>
    cases a with
    | zero => simp
    | succ a =>
      rw [List.replicate_succ, List.cons_append, takeTo, hsize, Nat.add_sub_cancel, ih, Nat.add_min_add_right,
        List.replicate_succ, List.cons_append, Nat.add_sub_add_right]
      exact Nat.succ_ne_zero a

theorem dropTo_spaces (a n : Nat) (v : List Char) :
    dropTo a (List.replicate n ' ' ++ v) = List.replicate (n - a) ' ' ++ dropTo (a - n) v := by
  have hsize : (' ' : Char).utf8Size = 1 := by decide
  induction n generalizing a with
  | zero => simp
  | succ n ih =>
    cases a with
    | zero => simp
    | succ a =>
      rw [List.replicate_succ, List.cons_append, dropTo, hsize, Nat.add_sub_cancel, ih, Nat.add_sub_add_right,
        Nat.add_sub_add_right]
      exact Nat.succ_ne_zero a

/-- Spaces at the start of a text stay there. -/
theorem blankOut_spaces {s : Span} (hs : s.start ≤ s.stop) (n : Nat) (v : List Char) :
    ∃ v', blankOut s (List.replicate n ' ' ++ v) = List.replicate n ' ' ++ v' := by
  rw [blankOut, takeTo_spaces, dropTo_spaces]
  by_cases hn : n ≤ s.start
  · rw [Nat.min_eq_right hn]
    exact ⟨takeTo (s.start - n) v ++ (List.replicate (s.stop - s.start) ' ' ++ (List.replicate (n - s.stop) ' ' ++
      dropTo (s.stop - n) v)), by simp only [List.append_assoc]⟩
  · have hmin : min s.start n = s.start := by omega
    have hzero : s.start - n = 0 := by omega
    -- The span and what it leaves of the spaces are spaces again.
    have hcount : s.start + (s.stop - s.start) + (n - s.stop) = n + (s.stop - n) := by omega
    refine ⟨List.replicate (s.stop - n) ' ' ++ dropTo (s.stop - n) v, ?_⟩
    rw [hmin, hzero, takeTo_zero, List.append_nil, List.replicate_append_replicate, ← List.append_assoc,
      List.replicate_append_replicate, hcount, ← List.replicate_append_replicate, List.append_assoc]

end Text

namespace Interpretation

/-- A space cuts the words of a text in two. -/
theorem wordMentions_append_space (u v : List Char) : (wordMentions (u ++ ' ' :: v)).map (·.word) =
    (wordMentions u).map (·.word) ++ (wordMentions v).map (·.word) := by
  have hcut := Pattern.hits_cut (p := nameWord) (q := ' ') (by decide) (by decide) u v
  simp only [wordMentions, hcut, List.filter_append, List.map_append, List.map_map, List.filter_map]
  rfl

theorem wordMentions_spaces (n : Nat) (v : List Char) :
    (wordMentions (List.replicate n ' ' ++ v)).map (·.word) = (wordMentions v).map (·.word) := by
  induction n with
  | zero => rfl
  | succ n ih =>
    have hnil : (wordMentions []).map (·.word) = [] := by decide
    have hcut := wordMentions_append_space [] (List.replicate n ' ' ++ v)
    rw [hnil, List.nil_append, List.nil_append, ih] at hcut
    exact hcut

theorem span_le_of_mem_wordMentions {cs : List Char} {x : Mention} (hx : x ∈ wordMentions cs) :
    x.span.start ≤ x.span.stop := by
  obtain ⟨h, hh, rfl⟩ := List.mem_map.mp hx
  exact (Pattern.inside_of_mem_hits (List.mem_filter.mp hh).1).span_le

theorem span_le_of_mem_tableMentions {verbEnd : Nat} {cs : List Char} {x : Mention}
    (hx : x ∈ tableMentions verbEnd cs) : x.span.start ≤ x.span.stop := by
  rcases List.mem_append.mp hx with hx | hx
  · obtain ⟨h, hh, hm⟩ := List.mem_filterMap.mp hx
    split at hm
    · split at hm
      · cases hm
      · cases hm
        exact (Pattern.inside_of_mem_hits hh).span_le
    · cases hm
  · simp only [verbMention] at hx
    split at hx
    · cases hx
    · obtain ⟨y, hy, rfl⟩ := List.mem_map.mp hx
      exact Nat.add_le_add_left (span_le_of_mem_wordMentions (List.mem_of_mem_take hy)) verbEnd

theorem span_le_of_knownMatch? {ms : List Mention} (hms : ∀ x ∈ ms, x.span.start ≤ x.span.stop) {m : TableMatch}
    (h : knownMatch? schema ms = some m) : m.span.start ≤ m.span.stop := by
  obtain ⟨x, hx, hm⟩ := List.exists_of_findSome?_eq_some h
  obtain ⟨name, -, rfl⟩ := Option.map_eq_some_iff.mp hm
  exact hms x hx

theorem span_le_of_resolveTable? {verbEnd : Nat} {m : TableMatch} (h : resolveTable? ws verbEnd schema = some m) :
    m.span.start ≤ m.span.stop := by
  simp only [resolveTable?] at h
  split at h
  · next hm =>
    cases h
    exact span_le_of_knownMatch? (fun _ => span_le_of_mem_tableMentions) hm
  · split at h
    · next hm =>
      cases h
      exact span_le_of_knownMatch? (fun _ => span_le_of_mem_wordMentions) hm
    · obtain ⟨x, hx, rfl⟩ := Option.map_eq_some_iff.mp h
      exact span_le_of_mem_tableMentions (List.mem_of_mem_head? hx)

end Interpretation

namespace Interpreter

open Interpretation

variable {t : Interpreter} {text : String} {schema : Schema} {cs : List Char}

/-- The verb of the text and where it ends; without a verb a request is read as a SELECT. -/
def verbOf (cs : List Char) : Operation × Nat := (Grammar.detect? cs).getD (.select, 0)

def behindVerb (cs : List Char) : Workspace := takeVerb ⟨cs⟩ (verbOf cs).2

/-- The text with its verb and its time phrase taken. -/
def remains (cs : List Char) : Workspace := (windowFor (verbOf cs).1 (behindVerb cs)).2

/-- The first phrase like "last 3 days" has a number that fits no window. An INSERT has no window. -/
def WindowFault (cs : List Char) : Prop :=
  (verbOf cs).1 ≠ .insert ∧ ∃ h, TimePhrase.lastN.pattern.find? (behindVerb cs).text = some h ∧ Unfit h

/-- The words behind prepositions and all the words that are left, without fillers. -/
def mentions (cs : List Char) : List Mention :=
  prepositionMentions (remains cs).text ++ wordMentions (remains cs).text

/-- The words that can stand for a table that the schema does not have. -/
def candidates (cs : List Char) : List Mention :=
  prepositionMentions (remains cs).text ++ wordMentions ((remains cs).after (verbOf cs).2)

theorem windowFor_cases (cs : List Char) :
    (WindowFault cs ∧ ∃ x, (windowFor (verbOf cs).1 (behindVerb cs)).1 = .error (.unrecognizedIntent x)) ∨
      (¬WindowFault cs ∧ ∃ w, windowFor (verbOf cs).1 (behindVerb cs) = (.ok w, remains cs)) := by
  have hok {w : Option TimeWindow} (h : (windowFor (verbOf cs).1 (behindVerb cs)).1 = .ok w) :
      windowFor (verbOf cs).1 (behindVerb cs) = (.ok w, remains cs) := by
    rw [remains, ← h]
  by_cases hinsert : (verbOf cs).1 = .insert
  · refine .inr ⟨fun hfault => hfault.1 hinsert, none, hok ?_⟩
    rw [windowFor, if_pos hinsert]
  · have hwindow : windowFor (verbOf cs).1 (behindVerb cs) = takeWindow (behindVerb cs) := by
      rw [windowFor, if_neg hinsert]
    rcases takeWindow_cases (behindVerb cs) with ⟨hfault, x, hx⟩ | ⟨hfit, w, hw⟩
    · exact .inl ⟨⟨hinsert, hfault⟩, x, by rw [hwindow, hx]⟩
    · exact .inr ⟨fun hfault => hfit hfault.2, w, hok (by rw [hwindow, hw])⟩

/-! ### Where the verb stood -/

theorem verb_pos {v : Operation × Nat} (h : Grammar.detect? cs = some v) : 0 < v.2 := by
  obtain ⟨verb, hverb, hmatch⟩ := List.exists_of_findSome?_eq_some h
  obtain ⟨hit, hh, rfl⟩ := Option.map_eq_some_iff.mp hmatch
  obtain ⟨a, w, x, hf⟩ := Pattern.findFrom?_eq_some (u := []) hh
  have hopening : ∀ v ∈ Grammar.verbs, v.opening.nullable = false := by decide
  exact Nat.zero_lt_of_lt (hf.low_lt_stop (hopening verb hverb))

theorem spaces_firstWindow {n : Nat} {ws : Workspace} (h : ∃ v, ws.text = List.replicate n ' ' ++ v)
    (ps : List TimePhrase) : ∃ v, (firstWindow ws ps).2.text = List.replicate n ' ' ++ v := by
  induction ps with
  | nil => exact h
  | cons p ps ih =>
    simp only [firstWindow]
    split
    · exact ih
    · next hit hh =>
      split
      · exact h
      · obtain ⟨v, hv⟩ := h
        rw [Workspace.take, hv]
        exact Text.blankOut_spaces (Pattern.inside_of_find? hh).span_le n v
      · exact ih

/-- Where the verb stood are spaces. -/
theorem remains_spaces (cs : List Char) : ∃ v, (remains cs).text = List.replicate (verbOf cs).2 ' ' ++ v := by
  have hverb : ∃ v, (behindVerb cs).text = List.replicate (verbOf cs).2 ' ' ++ v := by
    rw [behindVerb, takeVerb]
    split
    · exact ⟨Text.dropTo (verbOf cs).2 cs, by simp [Workspace.take, Text.blankOut]⟩
    · next hzero =>
      have hnone : (verbOf cs).2 = 0 := by omega
      exact ⟨cs, by simp [hnone]⟩
  rw [remains, windowFor]
  split
  · exact hverb
  · exact spaces_firstWindow hverb _

theorem words_behind_verb (cs : List Char) :
    (wordMentions ((remains cs).after (verbOf cs).2)).map (·.word) =
      (wordMentions (remains cs).text).map (·.word) := by
  obtain ⟨v, hv⟩ := remains_spaces cs
  rw [Workspace.after, hv, Text.dropTo_spaces, Nat.sub_self, List.replicate_zero, List.nil_append, Text.dropTo_zero,
    wordMentions_spaces]

theorem tableMentions_eq_nil_iff {v : Operation × Nat} (h : Grammar.detect? cs = some v) :
    tableMentions (verbOf cs).2 (remains cs).text = [] ↔ candidates cs = [] := by
  have hpos : (verbOf cs).2 ≠ 0 := by
    have := verb_pos h
    rw [verbOf, h]
    exact Nat.ne_of_gt this
  rw [tableMentions, candidates, List.append_eq_nil_iff, List.append_eq_nil_iff, verbMention, if_neg hpos,
    List.map_eq_nil_iff, List.take_eq_nil_iff]
  simp [Workspace.after]

theorem not_names_of_mentions (h : ∀ x ∈ mentions cs, ¬NamesTable schema x.word) :
    ∀ x ∈ tableMentions (verbOf cs).2 (remains cs).text ++ wordMentions (remains cs).text,
      ¬NamesTable schema x.word := by
  obtain ⟨hpreposition, hword⟩ := List.forall_mem_append.mp h
  refine List.forall_mem_append.mpr ⟨List.forall_mem_append.mpr ⟨hpreposition, fun x hx => ?_⟩, hword⟩
  simp only [verbMention] at hx
  split at hx
  · cases hx
  · obtain ⟨y, hy, rfl⟩ := List.mem_map.mp hx
    have hmem : y.word ∈ (wordMentions (remains cs).text).map (·.word) := by
      rw [← words_behind_verb]
      exact List.mem_map_of_mem (List.mem_of_mem_take hy)
    obtain ⟨z, hz, hsame⟩ := List.mem_map.mp hmem
    exact hsame ▸ hword z hz

theorem mentions_eq_nil (h : candidates cs = []) : mentions cs = [] := by
  obtain ⟨hpreposition, hword⟩ := List.append_eq_nil_iff.mp h
  have hwords := words_behind_verb cs
  rw [hword, List.map_nil, eq_comm, List.map_eq_nil_iff] at hwords
  rw [mentions, hpreposition, hwords, List.append_nil]

/-! ### The outcome -/

theorem interpret_of_empty (h : normalize text.toList = []) :
    t.interpret text schema = .error (.unrecognizedIntent text) := by
  simp [interpret, h, throw, throwThe, MonadExceptOf.throw, bind, Except.bind]

theorem interpret_of_window_error {e : Error} (hne : normalize text.toList ≠ [])
    (h : (windowFor (verbOf (normalize text.toList)).1 (behindVerb (normalize text.toList))).1 = .error e) :
    t.interpret text schema = .error e := by
  have hempty : (normalize text.toList).isEmpty = false := by simpa using hne
  have hkept : (windowFor (verbOf (normalize text.toList)).1 (behindVerb (normalize text.toList))).kept =
      .error e := by
    rw [Taken.kept, h]
    rfl
  rw [behindVerb, verbOf] at hkept
  simp only [interpret, hempty, Bool.false_eq_true, if_false, hkept]
  rfl

theorem interpret_of_subject_error {e : Error} {w : Option TimeWindow} (hne : normalize text.toList ≠ [])
    (hw : windowFor (verbOf (normalize text.toList)).1 (behindVerb (normalize text.toList)) =
      (.ok w, remains (normalize text.toList)))
    (h : subjectOf text (Grammar.detect? (normalize text.toList)).isSome
      (resolveTable? (remains (normalize text.toList)) (verbOf (normalize text.toList)).2 schema) = .error e) :
    t.interpret text schema = .error e := by
  have hempty : (normalize text.toList).isEmpty = false := by simpa using hne
  rw [behindVerb, verbOf] at hw
  rw [verbOf] at h
  simp only [interpret, hempty, Bool.false_eq_true, if_false, hw, Taken.kept_ok, ok_bind, h]
  rfl

theorem leaves_take {span : Text.Span} (h : span.start ≤ span.stop) (ws : Workspace) :
    Leaves ws.text (ws.take span).text :=
  .blankOut h ws.text

theorem leaves_takeVerb (ws : Workspace) (n : Nat) : Leaves ws.text (takeVerb ws n).text := by
  rw [takeVerb]
  split
  · exact leaves_take (Nat.zero_le n) ws
  · exact .refl ws.text

theorem leaves_windowFor (o : Operation) (ws : Workspace) : Leaves ws.text (windowFor o ws).2.text := by
  rw [windowFor]
  split
  · exact .refl ws.text
  · exact leaves_firstWindow _

theorem leaves_remains (cs : List Char) : Leaves cs (remains cs).text :=
  (leaves_takeVerb ⟨cs⟩ (verbOf cs).2).trans (leaves_windowFor (verbOf cs).1 (behindVerb cs))

theorem leaves_idFor (o : Operation) (s : Subject) (tableEnd : Nat) (ws : Workspace) :
    Leaves ws.text (idFor o s tableEnd ws).2.text := by
  rw [idFor]
  split
  · exact .refl ws.text
  · exact leaves_takeId tableEnd ws

/-- Behind the table a request fails for one of its words only. -/
theorem interpret_of_subject {w : Option TimeWindow} {m : TableMatch} (hne : normalize text.toList ≠ [])
    (hw : windowFor (verbOf (normalize text.toList)).1 (behindVerb (normalize text.toList)) =
      (.ok w, remains (normalize text.toList)))
    (hm : resolveTable? (remains (normalize text.toList)) (verbOf (normalize text.toList)).2 schema = some m)
    (hok : m.known = true ∨ (Grammar.detect? (normalize text.toList)).isSome = true) :
    (∀ e, t.interpret text schema = .error e → (subject schema m).Blames text.toList e) ∧
      ∀ i, t.interpret text schema = .ok i → i.known = m.known := by
  have hempty : (normalize text.toList).isEmpty = false := by simpa using hne
  have hsubject : subjectOf text (Grammar.detect? (normalize text.toList)).isSome (some m) = .ok m := by
    simp [subjectOf, hok]
  have hleft : Leaves text.toList ((remains (normalize text.toList)).take m.span).text :=
    ((leaves_normalize _).trans (leaves_remains _)).trans (leaves_take (span_le_of_resolveTable? hm) _)
  rw [behindVerb, verbOf] at hw
  rw [verbOf] at hm
  simp only [interpret, hempty, Bool.false_eq_true, if_false, hw, Taken.kept_ok, ok_bind, hm, hsubject]
  generalize remains (normalize text.toList) = ws at hleft ⊢
  generalize (Grammar.detect? (normalize text.toList)).getD (.select, 0) = v
  have hid := hleft.trans (leaves_idFor v.1 (subject schema m) m.span.stop (ws.take m.span))
  have hintent := gives_of_leaves hid (blames_takeIntent (t := t) (s := subject schema m) v.1 v.2 m.span.stop
    (idFor v.1 (subject schema m) m.span.stop (ws.take m.span)).1 (t.recencyOf (subject schema m) w).1 _)
  constructor
  · intro e he
    rcases bind_eq_error he with he | ⟨r, -, he⟩
    · exact hintent.of_error he
    · cases he
  · intro i hi
    obtain ⟨r, -, hi⟩ := bind_eq_ok hi
    cases hi
    rfl

/-- The text is blank, or its time phrase does not fit, or nothing tells what is asked for: neither a verb nor
a word for a table of the schema. -/
def Unrecognized (schema : Schema) (cs : List Char) : Prop :=
  cs = [] ∨ WindowFault cs ∨
    (¬WindowFault cs ∧ Grammar.detect? cs = none ∧ ∀ x ∈ mentions cs, ¬NamesTable schema x.word)

/-- There is a verb, but no word for its table. -/
def Tableless (cs : List Char) : Prop :=
  (Grammar.detect? cs).isSome = true ∧ ¬WindowFault cs ∧ candidates cs = []

theorem detect?_nil : Grammar.detect? [] = none := by decide

theorem Tableless.not_unrecognized (h : Tableless cs) : ¬Unrecognized schema cs := by
  obtain ⟨hverb, hfit, -⟩ := h
  rintro (rfl | hfault | ⟨-, hnone, -⟩)
  · rw [detect?_nil] at hverb
    cases hverb
  · exact hfit hfault
  · rw [hnone] at hverb
    cases hverb

/-- The request has a table, of the schema or not. -/
structure Answered (t : Interpreter) (text : String) (schema : Schema) (m : TableMatch) : Prop where
  recognized : ¬Unrecognized schema (normalize text.toList)
  tabled : ¬Tableless (normalize text.toList)
  table_eq : resolveTable? (remains (normalize text.toList)) (verbOf (normalize text.toList)).2 schema = some m
  known_iff : m.known = true ↔ ∃ x ∈ mentions (normalize text.toList), NamesTable schema x.word
  blames : ∀ e, t.interpret text schema = .error e → (subject schema m).Blames text.toList e
  known_eq : ∀ i, t.interpret text schema = .ok i → i.known = m.known

theorem outcome (t : Interpreter) (text : String) (schema : Schema) :
    (Unrecognized schema (normalize text.toList) ∧ ∃ x, t.interpret text schema = .error (.unrecognizedIntent x)) ∨
      (Tableless (normalize text.toList) ∧ t.interpret text schema = .error (.unresolvedTable text)) ∨
      ∃ m, Answered t text schema m := by
  by_cases hne : normalize text.toList = []
  · exact .inl ⟨.inl hne, text, interpret_of_empty hne⟩
  rcases windowFor_cases (normalize text.toList) with ⟨hfault, x, hx⟩ | ⟨hfit, w, hw⟩
  · exact .inl ⟨.inr (.inl hfault), x, interpret_of_window_error hne hx⟩
  by_cases hnames : ∃ x ∈ mentions (normalize text.toList), NamesTable schema x.word
  · -- A word for a table of the schema is enough.
    obtain ⟨x, hx, hname⟩ := hnames
    obtain ⟨m, hm, hk⟩ : ∃ m, resolveTable? (remains (normalize text.toList)) (verbOf (normalize text.toList)).2
        schema = some m ∧ m.known = true := resolveTable?_of_names hx hname
    obtain ⟨herror, hresult⟩ := interpret_of_subject (t := t) hne hw hm (.inl hk)
    refine .inr (.inr ⟨m, ?_, ?_, hm, iff_of_true hk ⟨x, hx, hname⟩, herror, hresult⟩)
    · rintro (hempty | hfault | ⟨-, -, hnone⟩)
      · exact hne hempty
      · exact hfit hfault
      · exact hnone x hx hname
    · rintro ⟨-, -, hnil⟩
      rw [mentions_eq_nil hnil] at hx
      cases hx
  · have hnone : ∀ x ∈ mentions (normalize text.toList), ¬NamesTable schema x.word := fun x hx h => hnames ⟨x, hx, h⟩
    have hresolve := resolveTable?_of_not_names (not_names_of_mentions hnone)
    cases hverb : Grammar.detect? (normalize text.toList) with
    | none =>
      refine .inl ⟨.inr (.inr ⟨hfit, hverb, hnone⟩), text, interpret_of_subject_error hne hw ?_⟩
      rw [hresolve, hverb]
      cases (tableMentions _ _).head? <;> rfl
    | some v =>
      by_cases hnil : candidates (normalize text.toList) = []
      · refine .inr (.inl ⟨⟨by rw [hverb]; rfl, hfit, hnil⟩, interpret_of_subject_error hne hw ?_⟩)
        rw [hresolve, (tableMentions_eq_nil_iff hverb).mpr hnil, hverb]
        rfl
      · obtain ⟨x, xs, hx⟩ := List.exists_cons_of_ne_nil (mt (tableMentions_eq_nil_iff hverb).mp hnil)
        rw [hx] at hresolve
        obtain ⟨herror, hresult⟩ := interpret_of_subject (t := t) hne hw hresolve (.inr (by rw [hverb]; rfl))
        refine .inr (.inr ⟨_, ?_, fun h => hnil h.2.2, hresolve, iff_of_false Bool.false_ne_true hnames, herror,
          hresult⟩)
        rintro (hempty | hfault | ⟨-, habsent, -⟩)
        · exact hne hempty
        · exact hfit hfault
        · rw [hverb] at habsent
          cases habsent

/-- What a request is refused for is a column that its table does not have. -/
theorem exists_table_of_blames {m : TableMatch} {cs' : List Char} {verbEnd : Nat} {ws : Workspace} {e : Error}
    (hm : resolveTable? ws verbEnd schema = some m) (h : (subject schema m).Blames cs' e) :
    m.known = true ∧ ∃ table ∈ schema.tables, ∃ w, e = .unresolvedColumn table.name (String.ofList w) ∧
      (∀ c ∈ table.columns, c.isNamed w = false) ∧ w <:+: cs' := by
  obtain ⟨w, -, hin, hr⟩ := h
  rw [subject] at hr
  cases hk : m.known with
  | false =>
    rw [hk] at hr
    cases hr
  | true =>
    obtain ⟨table, htable, hname⟩ := find?_of_resolveTable? hm hk
    rw [← hname] at htable
    simp only [hk, ← hname, Subject.resolve, if_true] at hr
    cases hcolumn : schema.findColumn? table.name w with
    | some c =>
      rw [hcolumn] at hr
      cases hr
    | none =>
      rw [hcolumn] at hr
      cases hr
      refine ⟨rfl, table, List.mem_of_find?_eq_some htable, w, rfl, ?_, hin⟩
      simpa [Schema.findColumn?, Schema.columns?_of_find? htable] using hcolumn

/-- When a request is refused, and how. -/
structure RefusalLaws (t : Interpreter) (text : String) (schema : Schema) : Prop where
  kinds : ∀ e, t.interpret text schema = .error e → (∃ x, e = .unrecognizedIntent x) ∨
    (∃ x, e = .unresolvedTable x) ∨ ∃ table column, e = .unresolvedColumn table column
  unrecognizedIntent_iff : (∃ x, t.interpret text schema = .error (.unrecognizedIntent x)) ↔
    Unrecognized schema (normalize text.toList)
  unresolvedTable_iff : (∃ x, t.interpret text schema = .error (.unresolvedTable x)) ↔
    Tableless (normalize text.toList)
  unresolvedColumn : ∀ name column, t.interpret text schema = .error (.unresolvedColumn name column) →
    ∃ table ∈ schema.tables, table.name = name ∧ (∀ c ∈ table.columns, c.isNamed column.toList = false) ∧
      column.toList <:+: text.toList
  unknownTable : (Grammar.detect? (normalize text.toList)).isSome = true → ¬WindowFault (normalize text.toList) →
    candidates (normalize text.toList) ≠ [] → (∀ x ∈ mentions (normalize text.toList), ¬NamesTable schema x.word) →
    ∃ i, t.interpret text schema = .ok i ∧ i.known = false

/-- The three kinds of refusal exclude one another, so that each is told by its condition. -/
theorem interpret_refusals (t : Interpreter) (text : String) (schema : Schema) : RefusalLaws t text schema := by
  rcases outcome t text schema with ⟨hunrecognized, x, hx⟩ | ⟨htableless, hx⟩ | ⟨m, hm⟩
  · refine ⟨fun e he => ?_, iff_of_true ⟨x, hx⟩ hunrecognized,
      iff_of_false ?_ fun h => h.not_unrecognized hunrecognized,
      fun name column he => ?_, fun hverb hfit hcandidates hnone => ?_⟩
    · exact .inl ⟨x, Except.error.inj (he.symm.trans hx)⟩
    · rintro ⟨y, hy⟩
      cases hx.symm.trans hy
    · cases hx.symm.trans he
    · rcases hunrecognized with hempty | hfault | ⟨-, habsent, -⟩
      · rw [hempty, detect?_nil] at hverb
        cases hverb
      · exact absurd hfault hfit
      · rw [habsent] at hverb
        cases hverb
  · refine ⟨fun e he => ?_, iff_of_false ?_ htableless.not_unrecognized, iff_of_true ⟨text, hx⟩ htableless,
      fun name column he => ?_, fun _ _ hcandidates _ => absurd htableless.2.2 hcandidates⟩
    · exact .inr (.inl ⟨text, Except.error.inj (he.symm.trans hx)⟩)
    · rintro ⟨y, hy⟩
      cases hx.symm.trans hy
    · cases hx.symm.trans he
  · have hcolumn {e : Error} (he : t.interpret text schema = .error e) :=
      exists_table_of_blames hm.table_eq (hm.blames e he)
    refine ⟨fun e he => ?_, iff_of_false ?_ hm.recognized, iff_of_false ?_ hm.tabled, fun name column he => ?_,
      fun _ _ _ hnone => ?_⟩
    · obtain ⟨-, table, -, w, rfl, -⟩ := hcolumn he
      exact .inr (.inr ⟨_, _, rfl⟩)
    · rintro ⟨y, hy⟩
      obtain ⟨-, table, -, w, heq, -⟩ := hcolumn hy
      cases heq
    · rintro ⟨y, hy⟩
      obtain ⟨-, table, -, w, heq, -⟩ := hcolumn hy
      cases heq
    · obtain ⟨-, table, htable, w, heq, hlacks, hin⟩ := hcolumn he
      cases heq
      exact ⟨table, htable, rfl, by simpa using hlacks, by simpa using hin⟩
    · have hk : m.known = false := by
        rw [← Bool.not_eq_true, hm.known_iff]
        rintro ⟨y, hy, hname⟩
        exact hnone y hy hname
      cases hi : t.interpret text schema with
      | ok i => exact ⟨i, rfl, (hm.known_eq i hi).trans hk⟩
      | error e =>
        obtain ⟨hknown, -⟩ := hcolumn hi
        rw [hk] at hknown
        cases hknown

end Interpreter

end Parlance
