import Parlance.Proofs.Grammar.Inflection
import Parlance.Proofs.Interpretation.Resolution
import Parlance.Proofs.Sentence.Opening

/-! A table that is mentioned by its plural or by its singular, as the program forms them. It is found where these
forms lead back to its name. -/

namespace Parlance.Interpretation

open Text (size sameWord IsLowerAscii)
open Pattern (IsName Hit)
open Inflection (PluralMisread SingularMisread pluralize singularize)
open Grammar (isFiller nameWord prepositions)

variable {t : Table} {w m : List Char}

/-- In lower case a word names a table by its letters. -/
theorem namesTable_single_iff (ht : IsLowerAscii t.name.toList) (hm : IsLowerAscii m) :
    NamesTable ⟨[t]⟩ m ↔ t.name.toList ∈ Inflection.candidates m := by
  have hsame {form : List Char} (hform : IsLowerAscii form) : sameWord t.name.toList form = true ↔ t.name.toList = form := by
    rw [sameWord, beq_iff_eq, ht.asciiLower_eq, hform.asciiLower_eq]
  simp only [NamesTable, hm.lower_eq, Inflection.mem_candidates_iff, List.mem_cons, List.not_mem_nil, or_false,
    exists_eq_left, exists_eq_or_imp, hsame hm, hsame hm.pluralize, hsame hm.singularize]

theorem denotes_single {name : String} (h : Denotes ⟨[t]⟩ m name) : name = t.name := by
  simpa [Schema.names] using h.1

/-- The words that are no fillers lack the prepositions, which are. -/
theorem lacks_prepositions (hname : IsName m) (hlow : IsLowerAscii m) (hfiller : isFiller m = false) :
    Text.Lacks prepositions m := by
  refine .of_word hname.isWord fun k hk hspelled => ?_
  have hmem : ∀ k ∈ prepositions, k ∈ Grammar.fillerWords := by decide
  have hsame := Sentence.sameWord_of_spelled hspelled fun c hc => (hlow c hc).1
  have hyes : isFiller m = true := List.any_eq_true.mpr ⟨k, hmem k hk, hsame⟩
  rw [hfiller] at hyes
  cases hyes

theorem wordMentions_name (hname : IsName m) (hfiller : isFiller m = false) : (wordMentions m).map (·.word) = [m] := by
  have hhits : nameWord.hits m = [.behind [] m []] := by
    have hfirst := Sentence.hitsFrom_nameWord (u := []) (x := []) hname rfl rfl (Nat.zero_le 0)
    have hrest : nameWord.hitsFrom (size ([] ++ m)) (.between ([] ++ m) []) [] = [] :=
      Sentence.hitsFrom_nameWord_eq_nil fun c hc => nomatch hc
    rw [List.append_nil, hrest] at hfirst
    exact hfirst
  simp only [wordMentions, hhits, List.filter_cons, Hit.text_behind, hfiller, Bool.not_false, if_true, List.filter_nil,
    List.map_cons, List.map_nil]

/-- Behind the verb there is one word, and nothing stands beside it. -/
theorem mentions_show (hname : IsName m) (hlow : IsLowerAscii m) (hfiller : isFiller m = false) :
    prepositionMentions ("show".toList ++ ' ' :: m) = [] ∧
      verbMention 4 ("show".toList ++ ' ' :: m) = [⟨m, ⟨5, size ("show ".toList ++ m)⟩⟩] ∧
      (wordMentions ("show".toList ++ ' ' :: m)).map (·.word) = ["show".toList, m] := by
  refine ⟨Sentence.prepositionMentions_eq_nil ?_, ?_, ?_⟩
  · exact Text.Lacks.append_space.mpr ⟨by decide, lacks_prepositions hname hlow hfiller⟩
  · have hverb := Sentence.verbMention_name (a := "show".toList) (x := []) hname hfiller rfl (by decide)
    rwa [List.append_nil] at hverb
  · rw [wordMentions_append_space, wordMentions_name (by decide) (by decide), wordMentions_name hname hfiller]
    rfl

section Show

variable (hname : IsName m) (ht : IsLowerAscii t.name.toList) (hm : IsLowerAscii m) (hfiller : isFiller m = false)
include hname ht hm hfiller

theorem resolveTable?_show_of_mem (hmem : t.name.toList ∈ Inflection.candidates m) :
    ∃ span, resolveTable? ⟨"show".toList ++ ' ' :: m⟩ 4 ⟨[t]⟩ = some ⟨t.name, true, span⟩ := by
  obtain ⟨hprepositions, hverb, -⟩ := mentions_show hname hm hfiller
  have hsome : (lookupTable? ⟨[t]⟩ m).isSome = true := lookupTable?_isSome_iff.mpr ((namesTable_single_iff ht hm).mpr hmem)
  obtain ⟨name, hlookup⟩ := Option.isSome_iff_exists.mp hsome
  obtain rfl := denotes_single (denotes_of_lookupTable? hlookup)
  have hknown : knownMatch? ⟨[t]⟩ (tableMentions 4 ("show".toList ++ ' ' :: m)) =
      some ⟨t.name, true, ⟨5, size ("show ".toList ++ m)⟩⟩ := by
    rw [tableMentions, hprepositions, hverb, List.nil_append, knownMatch?, List.findSome?_cons, hlookup]
    rfl
  exact ⟨⟨5, size ("show ".toList ++ m)⟩, by simp only [resolveTable?, hknown]⟩

/-- What is found is found by the word behind the verb or by the verb itself. -/
theorem mem_candidates_of_resolveTable?_show {span : Text.Span}
    (h : resolveTable? ⟨"show".toList ++ ' ' :: m⟩ 4 ⟨[t]⟩ = some ⟨t.name, true, span⟩) :
    t.name.toList ∈ Inflection.candidates m ∨ t.name.toList ∈ Inflection.candidates "show".toList := by
  obtain ⟨hprepositions, hverb, hwords⟩ := mentions_show hname hm hfiller
  obtain ⟨x, hchosen, hdenotes, -⟩ := chosen_of_resolveTable? h rfl
  have hnames : NamesTable ⟨[t]⟩ x.word := namesTable_iff.mpr ⟨_, hdenotes⟩
  have hword : x.word = m ∨ x.word = "show".toList := by
    cases hchosen with
    | preposition hsplit _ =>
      rw [hprepositions] at hsplit
      simp at hsplit
    | verb hsplit _ =>
      rw [hverb] at hsplit
      cases hsplit
      exact .inl rfl
    | @word before after x hsplit _ =>
      have hmem : x.word ∈ (wordMentions ("show".toList ++ ' ' :: m)).map (·.word) := by
        rw [hsplit]
        exact List.mem_map_of_mem (List.mem_append_right _ List.mem_cons_self)
      rw [hwords] at hmem
      rcases List.mem_cons.mp hmem with heq | hmem
      · exact .inr heq
      · exact .inl (List.mem_singleton.mp hmem)
  rcases hword with heq | heq
  · exact .inl ((namesTable_single_iff ht hm).mp (heq ▸ hnames))
  · exact .inr ((namesTable_single_iff ht (by decide)).mp (heq ▸ hnames))

end Show

/-- A table in lower case is found by the plural or the singular that the program forms of its name exactly if the
name is one that a request can hold and the form leads back to it. -/
theorem resolveTable?_inflected (hlow : IsLowerAscii t.name.toList) (hne : t.name ≠ "") :
    (t.name.toList ∈ Inflection.candidates (pluralize t.name.toList) ↔ ¬PluralMisread t.name.toList) ∧
    (t.name.toList ∈ Inflection.candidates (singularize t.name.toList) ↔ ¬SingularMisread t.name.toList) ∧
    ∀ m ∈ [pluralize t.name.toList, singularize t.name.toList], isFiller m = false →
      ((∃ span, resolveTable? ⟨"show ".toList ++ m⟩ 4 ⟨[t]⟩ = some ⟨t.name, true, span⟩) ↔
        IsName t.name.toList ∧ t.name.toList ∈ Inflection.candidates m) := by
  have hnil : t.name.toList ≠ [] := fun h => hne (String.toList_eq_nil_iff.mp h)
  refine ⟨Inflection.mem_candidates_pluralize_iff hlow hnil, Inflection.mem_candidates_singularize_iff hlow,
    fun m hm hfiller => ?_⟩
  have htext : "show ".toList ++ m = "show".toList ++ ' ' :: m := rfl
  simp only [List.mem_cons, List.not_mem_nil, or_false] at hm
  have hmlow : IsLowerAscii m := by
    rcases hm with rfl | rfl
    · exact hlow.pluralize
    · exact hlow.singularize
  have hmname (hname : IsName t.name.toList) : IsName m := by
    rcases hm with rfl | rfl
    · exact hname.pluralize
    · exact hname.singularize
  rw [htext]
  constructor
  · rintro ⟨span, hfound⟩
    have hname : IsName t.name.toList := isName_of_resolveTable? hfound
    refine ⟨hname, (mem_candidates_of_resolveTable?_show (hmname hname) hlow hmlow hfiller hfound).elim id fun hshow => ?_⟩
    -- A table called after the verb is led back to like any other.
    have hverbs : ∀ w ∈ Inflection.candidates "show".toList, w ∈ Inflection.candidates (pluralize w) ∧
        w ∈ Inflection.candidates (singularize w) := by
      decide
    rcases hm with rfl | rfl
    · exact (hverbs _ hshow).1
    · exact (hverbs _ hshow).2
  · rintro ⟨hname, hmem⟩
    exact resolveTable?_show_of_mem (hmname hname) hlow hmlow hfiller hmem

theorem resolveTable?_inflected_user : IsLowerAscii "user".toList ∧ "user" ≠ "" ∧ isFiller "users".toList = false ∧
    ∃ span, resolveTable? ⟨"show users".toList⟩ 4 ⟨[⟨"user", []⟩]⟩ = some ⟨"user", true, span⟩ := by
  have hlow : IsLowerAscii "user".toList := by decide
  have hfiller : isFiller "users".toList = false := by decide
  have hall := resolveTable?_inflected (t := ⟨"user", []⟩) hlow (by decide)
  exact ⟨hlow, by decide, hfiller, (hall.2.2 "users".toList (by decide) hfiller).mpr ⟨by decide, by decide⟩⟩

/-- The plural of "movie" is taken for that of "movy", and "proxys" for a plural of "proxy", which has another. -/
theorem not_found_by_inflection :
    (pluralize "movie".toList = "movies".toList ∧ isFiller "movies".toList = false ∧
      "movie".toList ∉ Inflection.candidates "movies".toList ∧
      resolveTable? ⟨"show movies".toList⟩ 4 ⟨[⟨"movie", []⟩]⟩ = some ⟨"movies", false, ⟨5, 11⟩⟩) ∧
    singularize "proxys".toList = "proxy".toList ∧ isFiller "proxy".toList = false ∧
      "proxys".toList ∉ Inflection.candidates "proxy".toList ∧
      resolveTable? ⟨"show proxy".toList⟩ 4 ⟨[⟨"proxys", []⟩]⟩ = some ⟨"proxy", false, ⟨5, 10⟩⟩ :=
  ⟨⟨by decide, by decide, by decide, rfl⟩, by decide, by decide, by decide, rfl⟩

end Parlance.Interpretation
