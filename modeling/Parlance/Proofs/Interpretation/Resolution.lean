import Parlance.Proofs.Grammar.NameWord
import Parlance.Proofs.Interpretation.Refusal

/-! Which table a request is resolved to. There are three places to look for it, one after the other, and a word
decides that names a table of the schema when none before it does; if no word does, the table is unknown. -/

namespace Parlance.Interpretation

open Text (size isBoundary sameWord)
open Grammar (isFiller nameWord tablePreposition WholeName)

variable {ws : Workspace} {verbEnd : Nat} {schema : Schema} {cs w : List Char} {x : Mention} {m : TableMatch}

/-! ### What a word names -/

/-- The schema has a table of this name, and the word names it as it stands, in the plural or in the singular. -/
def Denotes (schema : Schema) (w : List Char) (name : String) : Prop :=
  name ∈ schema.names ∧ ∃ form ∈ [Text.lower w, Inflection.pluralize (Text.lower w), Inflection.singularize (Text.lower w)],
    sameWord name.toList form = true

theorem namesTable_iff : NamesTable schema w ↔ ∃ name, Denotes schema w name := by
  constructor
  · rintro ⟨form, hform, table, htable, hsame⟩
    exact ⟨table.name, List.mem_map_of_mem htable, form, hform, hsame⟩
  · rintro ⟨name, hname, form, hform, hsame⟩
    obtain ⟨table, htable, rfl⟩ := List.mem_map.mp hname
    exact ⟨form, hform, table, htable, hsame⟩

theorem denotes_of_lookupTable? {name : String} (h : lookupTable? schema w = some name) : Denotes schema w name := by
  obtain ⟨form, hform, hfind⟩ := List.exists_of_findSome?_eq_some h
  obtain ⟨table, htable, rfl⟩ := Option.map_eq_some_iff.mp hfind
  exact ⟨List.mem_map_of_mem (List.mem_of_find?_eq_some htable), form, Inflection.mem_candidates_iff.mp hform,
    Schema.sameWord_of_find? htable⟩

/-- The first word of a list that names a table decides. -/
theorem knownMatch?_eq_some {ms : List Mention} (h : knownMatch? schema ms = some m) : ∃ before x after,
    ms = before ++ x :: after ∧ (∀ y ∈ before, ¬NamesTable schema y.word) ∧ Denotes schema x.word m.name ∧
      m.span = x.span := by
  obtain ⟨before, x, after, rfl, hx, hbefore⟩ := List.findSome?_eq_some_iff.mp h
  obtain ⟨name, hname, rfl⟩ := Option.map_eq_some_iff.mp hx
  refine ⟨before, x, after, rfl, fun y hy => ?_, denotes_of_lookupTable? hname, rfl⟩
  have hnone : knownMatch? schema [y] = none := by
    rw [knownMatch?, List.findSome?_cons, hbefore y hy, List.findSome?_nil]
  exact knownMatch?_eq_none_iff.mp hnone y (List.mem_singleton_self y)

/-! ### Where a word stands -/

/-- The span of the mention is a part of the text that has the word in it. -/
def Mention.StandsIn (x : Mention) (cs : List Char) : Prop :=
  ∃ a u v b, cs = a ++ (u ++ (x.word ++ v) ++ b) ∧ x.span = ⟨size a, size (a ++ (u ++ (x.word ++ v)))⟩

theorem mem_prepositionMentions (hx : x ∈ prepositionMentions cs) : x.StandsIn cs ∧ isFiller x.word = false := by
  obtain ⟨h, hh, hm⟩ := List.mem_filterMap.mp hx
  split at hm
  · next w hw =>
    split at hm
    · cases hm
    · next hfiller =>
      cases hm
      obtain ⟨a, b, hstands⟩ := Pattern.exists_stands_of_mem_hits hh
      obtain ⟨u, v, huv⟩ := hstands.group hw
      rw [List.append_assoc] at huv
      exact ⟨⟨a, u, v, b, by rw [huv]; exact hstands.text_eq, by rw [huv]; exact hstands.span_eq⟩, by simpa using hfiller⟩
  · cases hm

/-- The words of a text are its names that are words as a whole, without the fillers. -/
theorem mem_wordMentions_iff : x ∈ wordMentions cs ↔ ∃ u v, cs = u ++ (x.word ++ v) ∧ WholeName u x.word v ∧
    isFiller x.word = false ∧ x.span = ⟨size u, size (u ++ x.word)⟩ := by
  simp only [wordMentions, List.mem_map, List.mem_filter, Grammar.mem_hits_nameWord_iff]
  constructor
  · rintro ⟨h, ⟨⟨u, w, v, rfl, hwhole, rfl⟩, hfiller⟩, rfl⟩
    exact ⟨u, v, rfl, hwhole, by simpa using hfiller, rfl⟩
  · rintro ⟨u, v, rfl, hwhole, hfiller, hspan⟩
    refine ⟨.behind u x.word [], ⟨⟨u, x.word, v, rfl, hwhole, rfl⟩, ?_⟩, ?_⟩
    · rw [Pattern.Hit.text_behind, hfiller]
      rfl
    · rw [Pattern.Hit.span_behind, ← hspan]
      rfl

theorem mem_wordMentions (hx : x ∈ wordMentions cs) : x.StandsIn cs ∧ isFiller x.word = false := by
  obtain ⟨u, v, rfl, -, hfiller, hspan⟩ := mem_wordMentions_iff.mp hx
  exact ⟨⟨u, [], [], v, by simp, by simpa using hspan⟩, hfiller⟩

theorem Mention.StandsIn.shift (h : x.StandsIn (Text.dropTo verbEnd cs)) (hb : isBoundary verbEnd cs = true) :
    Mention.StandsIn ⟨x.word, x.span.shift verbEnd⟩ cs := by
  obtain ⟨a, u, v, b, htext, hspan⟩ := h
  obtain ⟨p, q, rfl, rfl⟩ := Text.isBoundary_iff.mp hb
  rw [Text.dropTo_size_append] at htext
  refine ⟨p ++ a, u, v, b, by rw [htext, List.append_assoc p a], ?_⟩
  rw [hspan, Text.Span.shift, ← Text.size_append, ← Text.size_append, List.append_assoc]

/-- There is one first word behind the verb at most. -/
theorem mem_verbMention (hx : x ∈ verbMention verbEnd cs) : verbMention verbEnd cs = [x] ∧
    (isBoundary verbEnd cs = true → x.StandsIn cs) ∧ isFiller x.word = false := by
  rw [verbMention] at hx ⊢
  split at hx
  · cases hx
  · next hpos =>
    rw [if_neg hpos]
    cases hwords : wordMentions (Text.dropTo verbEnd cs) with
    | nil =>
      rw [hwords] at hx
      cases hx
    | cons y ys =>
      rw [hwords] at hx
      cases List.mem_singleton.mp hx
      obtain ⟨hstands, hfiller⟩ := mem_wordMentions (hwords ▸ List.mem_cons_self)
      exact ⟨rfl, hstands.shift, hfiller⟩

/-! ### The word that decides -/

/-- The mention is where the table is looked for, and nothing that comes before it names a table: the words behind
prepositions come first, from left to right, then the first word behind the verb, then all words of the text. -/
inductive Chosen (schema : Schema) (verbEnd : Nat) (cs : List Char) : Mention → Prop
  | preposition {before after : List Mention} {x : Mention} (h : prepositionMentions cs = before ++ x :: after)
      (hbefore : ∀ y ∈ before, ¬NamesTable schema y.word) : Chosen schema verbEnd cs x
  | verb {x : Mention} (h : verbMention verbEnd cs = [x])
      (hprepositions : ∀ y ∈ prepositionMentions cs, ¬NamesTable schema y.word) : Chosen schema verbEnd cs x
  | word {before after : List Mention} {x : Mention} (h : wordMentions cs = before ++ x :: after)
      (hbefore : ∀ y ∈ prepositionMentions cs ++ verbMention verbEnd cs ++ before, ¬NamesTable schema y.word) :
      Chosen schema verbEnd cs x

theorem Chosen.spec (h : Chosen schema verbEnd cs x) :
    (isBoundary verbEnd cs = true → x.StandsIn cs) ∧ isFiller x.word = false := by
  cases h with
  | preposition h _ =>
    obtain ⟨hstands, hfiller⟩ := mem_prepositionMentions (h ▸ List.mem_append_right _ List.mem_cons_self)
    exact ⟨fun _ => hstands, hfiller⟩
  | verb h _ => exact (mem_verbMention (h ▸ List.mem_singleton_self x)).2
  | word h _ =>
    obtain ⟨hstands, hfiller⟩ := mem_wordMentions (h ▸ List.mem_append_right _ List.mem_cons_self)
    exact ⟨fun _ => hstands, hfiller⟩

theorem chosen_of_resolveTable? (h : resolveTable? ws verbEnd schema = some m) (hk : m.known = true) :
    ∃ x, Chosen schema verbEnd ws.text x ∧ Denotes schema x.word m.name ∧ m.span = x.span := by
  simp only [resolveTable?] at h
  split at h
  · next hknown =>
    cases h
    rw [tableMentions, knownMatch?, List.findSome?_append, ← knownMatch?, ← knownMatch?] at hknown
    cases hprepositions : knownMatch? schema (prepositionMentions ws.text) with
    | some m' =>
      rw [hprepositions, Option.some_or] at hknown
      cases hknown
      obtain ⟨before, x, after, hsplit, hbefore, hname, hspan⟩ := knownMatch?_eq_some hprepositions
      exact ⟨x, .preposition hsplit hbefore, hname, hspan⟩
    | none =>
      rw [hprepositions, Option.none_or] at hknown
      obtain ⟨before, x, after, hsplit, -, hname, hspan⟩ := knownMatch?_eq_some hknown
      have hx : x ∈ verbMention verbEnd ws.text := hsplit ▸ List.mem_append_right _ List.mem_cons_self
      exact ⟨x, .verb (mem_verbMention hx).1 (knownMatch?_eq_none_iff.mp hprepositions), hname, hspan⟩
  · next hnone =>
    split at h
    · next hknown =>
      cases h
      obtain ⟨before, x, after, hsplit, hbefore, hname, hspan⟩ := knownMatch?_eq_some hknown
      have htable := knownMatch?_eq_none_iff.mp hnone
      exact ⟨x, .word hsplit (List.forall_mem_append.mpr ⟨htable, hbefore⟩), hname, hspan⟩
    · obtain ⟨x, -, rfl⟩ := Option.map_eq_some_iff.mp h
      cases hk

theorem not_names_of_resolveTable? (h : ∀ m, resolveTable? ws verbEnd schema = some m → m.known = false) :
    ∀ x ∈ tableMentions verbEnd ws.text ++ wordMentions ws.text, ¬NamesTable schema x.word := by
  have hunknown {m : TableMatch} (hm : resolveTable? ws verbEnd schema = some m) (hk : m.known = true) : False := by
    rw [h m hm] at hk
    cases hk
  cases htable : knownMatch? schema (tableMentions verbEnd ws.text) with
  | some m => exact (hunknown (by simp only [resolveTable?, htable]) (known_of_knownMatch? htable)).elim
  | none =>
    cases hword : knownMatch? schema (wordMentions ws.text) with
    | some m => exact (hunknown (by simp only [resolveTable?, htable, hword]) (known_of_knownMatch? hword)).elim
    | none => exact List.forall_mem_append.mpr ⟨knownMatch?_eq_none_iff.mp htable, knownMatch?_eq_none_iff.mp hword⟩

/-- A table that is known is one that a word names where tables are looked for, and no word before it names any; if
there is none, no word of the text that is no filler names a table, and none behind a preposition does. An offset
inside a character is no place to look behind. -/
theorem resolveTable?_spec (ws : Workspace) (verbEnd : Nat) (schema : Schema) :
    (∀ m, resolveTable? ws verbEnd schema = some m → m.known = true → ∃ x, Chosen schema verbEnd ws.text x ∧
      Denotes schema x.word m.name ∧ isFiller x.word = false ∧ m.span = x.span ∧
      (isBoundary verbEnd ws.text = true → x.StandsIn ws.text)) ∧
    ((∀ m, resolveTable? ws verbEnd schema = some m → m.known = false) →
      (∀ x ∈ prepositionMentions ws.text, ¬NamesTable schema x.word) ∧
      (∀ u w v, ws.text = u ++ (w ++ v) → WholeName u w v → isFiller w = false → ¬NamesTable schema w) ∧
      resolveTable? ws verbEnd schema = (tableMentions verbEnd ws.text).head?.map unknownMatch) := by
  constructor
  · intro m h hk
    obtain ⟨x, hchosen, hname, hspan⟩ := chosen_of_resolveTable? h hk
    exact ⟨x, hchosen, hname, hchosen.spec.2, hspan, hchosen.spec.1⟩
  · intro hunknown
    have hnone := not_names_of_resolveTable? hunknown
    obtain ⟨htable, hword⟩ := List.forall_mem_append.mp hnone
    refine ⟨(List.forall_mem_append.mp htable).1, fun u w v htext hwhole hfiller => ?_, resolveTable?_of_not_names hnone⟩
    have hmem : ⟨w, ⟨size u, size (u ++ w)⟩⟩ ∈ wordMentions ws.text :=
      mem_wordMentions_iff.mpr ⟨u, v, htext, hwhole, hfiller, rfl⟩
    exact hword _ hmem

/-- The word behind the preposition goes before the first word behind the verb. -/
theorem resolveTable?_spec_users :
    let ws : Workspace := ⟨"show orders joined into Users".toList⟩
    let schema : Schema := ⟨[⟨"orders", []⟩, ⟨"user", []⟩]⟩
    ∃ m x, resolveTable? ws 4 schema = some m ∧ m.name = "user" ∧ Chosen schema 4 ws.text x ∧ x.StandsIn ws.text ∧
      m.span = x.span := by
  intro ws schema
  have h : resolveTable? ws 4 schema = some ⟨"user", true, ⟨19, 29⟩⟩ := rfl
  obtain ⟨x, hchosen, -, -, hspan, hstands⟩ := (resolveTable?_spec ws 4 schema).1 _ h rfl
  exact ⟨_, x, h, rfl, hchosen, hstands (by decide), hspan⟩

end Parlance.Interpretation
