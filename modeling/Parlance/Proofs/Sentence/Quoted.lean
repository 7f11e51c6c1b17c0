import Parlance.Proofs.Pattern.Cut
import Parlance.Proofs.Sentence.Read

/-! A condition on a quoted text. The quotes do not keep the text from being normalized with the rest of
the sentence, nor from being searched for recent time and for a table. What is found there is lost to
the value; where nothing is found, the value is the text with its blanks squeezed. -/

namespace Parlance.Sentence

open Pattern Text
open Interpretation
open Grammar (TimePhrase prepositions recencyWords tablePreposition)

variable {schema : Schema} {t : Table}

def quotedCondition (c : ColumnOf t) (s : List Char) : List Char :=
  c.1.toList ++ ' ' :: ((Comparison.sql .equal).toList ++ ' ' :: quoted s)

def quotedSentence (c : ColumnOf t) (s : List Char) : List Char :=
  "show".toList ++ ' ' :: (t.name.toList ++ ' ' :: ("where".toList ++ ' ' :: quotedCondition c s))

/-- The sentence behind its verb and up to the quote. -/
def quotedOpening (c : ColumnOf t) : List Char :=
  ' ' :: (t.name.toList ++ ' ' :: ("where".toList ++ ' ' :: (c.1.toList ++ ' ' ::
    ((Comparison.sql .equal).toList ++ [' ']))))

theorem quotedOpening_append (c : ColumnOf t) (s : List Char) : quotedOpening c ++ quoted s =
    ' ' :: (t.name.toList ++ ' ' :: ("where".toList ++ ' ' :: quotedCondition c s)) := by
  simp [quotedOpening, quotedCondition]

/-- No phrase of recent time and no mention of a table is found in the text. -/
structure Unread (schema : Schema) (s : List Char) : Prop where
  no_time : ∀ p : TimePhrase, p.pattern.holds s = false
  no_table : ∀ m ∈ prepositionMentions s, lookupTable? schema m.word = none

/-! ### Searching a quoted text -/

theorem hits_quoted {p : Pattern} {ws : List String} (h : Needs ws p) (hws : Lettered ws)
    (hp : p.rejects '\'' = true) {a : List Char} (ha : Lacks ws a) (s : List Char) :
    p.hits (a ++ quoted s) = (p.hits s).map (Hit.shift (size (a ++ ['\'']))) := by
  have hquote : isWord '\'' = false := by decide
  have hbehind : p.hits (s ++ ['\'']) = p.hits s := by
    rw [hits_cut hp hquote, h.hits_eq_nil hws .nil, List.map_nil, List.append_nil]
  rw [quoted, hits_cut hp hquote, h.hits_eq_nil hws ha, List.nil_append, hbehind]

theorem find?_quoted {a s : List Char} (ha : Lacks recencyWords a) (p : TimePhrase) (h : p.pattern.holds s = false) :
    p.pattern.find? (a ++ quoted s) = none := by
  have hp : p.pattern.rejects '\'' = true := by cases p <;> decide +kernel
  have hnone : p.pattern.hits s = [] := by
    rw [← List.head?_eq_none_iff, ← find?_eq_head?]
    simpa [holds] using h
  rw [find?_eq_head?, hits_quoted p.needs (by decide) hp ha, hnone]
  rfl

theorem prepositionMentions_quoted {a : List Char} (ha : Lacks prepositions a) (s : List Char) :
    prepositionMentions (a ++ quoted s) =
      (prepositionMentions s).map fun m => ⟨m.word, m.span.shift (size (a ++ ['\'']))⟩ := by
  have hp : tablePreposition.rejects '\'' = true := by decide +kernel
  rw [prepositionMentions, hits_quoted Grammar.keyed_tablePreposition.needs (by decide) hp ha, List.filterMap_map,
    prepositionMentions, List.map_filterMap]
  congr 1
  funext h
  simp only [Function.comp_apply, Hit.text?_shift]
  split
  · split <;> rfl
  · rfl

/-! ### The sentence -/

theorem mem_of_mem_squeeze {c : Char} : ∀ {s : List Char}, c ∈ squeeze s → c ≠ ' ' → c ∈ s := by
  intro s
  induction s with
  | nil => exact fun h _ => h
  | cons d s ih =>
    intro h hc
    rw [squeeze.eq_def] at h
    simp only at h
    split at h
    · split at h
      · split at h
        · exact List.mem_cons_of_mem _ (ih h hc)
        · rcases List.mem_cons.mp h with rfl | h
          · exact absurd rfl hc
          · exact List.mem_cons_of_mem _ (ih h hc)
      · exact absurd (List.mem_singleton.mp h) hc
    · rcases List.mem_cons.mp h with rfl | h
      · exact List.mem_cons_self
      · exact List.mem_cons_of_mem _ (ih h hc)

/-- Normalizing reaches into the quotes. -/
theorem normalize_quoted {u : List Char} (hu : Tidy (u ++ ['\''])) (s : List Char) :
    Interpreter.normalize (u ++ quoted s) = u ++ quoted (squeeze s) := by
  have hshape (s : List Char) : u ++ quoted s = u ++ ['\''] ++ s ++ ['\''] := by simp [quoted]
  have hhead (s : List Char) : ∀ c ∈ (u ++ ['\''] ++ s ++ ['\'']).head?, isBlank c = false := by
    obtain ⟨d, v, hd⟩ := List.exists_cons_of_ne_nil hu.nonempty
    have h := hu.visible
    rw [hd] at h ⊢
    exact h
  have hlast (p : Char → Bool) (hp : p '\'' = false) (s : List Char) :
      ∀ c ∈ (u ++ ['\''] ++ s ++ ['\'']).getLast?, p c = false := by
    intro c hc
    rw [List.getLast?_concat] at hc
    cases hc
    exact hp
  have hquote : isBlank '\'' = false := by decide
  have hsqueeze : squeeze (u ++ ['\''] ++ s ++ ['\'']) = u ++ ['\''] ++ squeeze s ++ ['\''] := by
    rw [squeeze_append fun _ _ d hd => .inr (by cases hd; exact hquote),
      squeeze_append fun c hc _ _ => .inl (isBlank_of_isDropped (hu.last c hc)), hu.squeezed]
    rfl
  rw [hshape, hshape, Interpreter.normalize, trim_eq_self (hhead s) (hlast _ hquote s), hsqueeze,
    dropEndWhile_eq_self (hlast _ (by decide) _), trimEnd, dropEndWhile_eq_self (hlast _ hquote _)]

/-- A condition with no connective behind it is a chain. -/
theorem chain_single {s : Subject} {a z : List Char} {p : Predicate}
    (ha : condition? s (a ++ z) = .ok (some (p, size a))) (hz : Grammar.connective.find? z = none) :
    chain s (a ++ z) = .ok ([(.and, p)], size a) := by
  rw [chain, chainFrom, ha]
  simp only [ok_bind, dropTo_size_append, hz]

section Interpret

variable (t' : Interpreter) (hs : FreeSchema schema) (ht : t ∈ schema.tables) (c : ColumnOf t) {s : List Char}
include hs ht

theorem takeFilter_quoted (hquote : '\'' ∉ s) {a : List Char} (ha : Lacks Grammar.cueWords a) :
    Interpreter.takeFilter (subjectOf schema t) none none
        ⟨a ++ ' ' :: ("where".toList ++ ' ' :: quotedCondition c s)⟩ =
      .ok ([(.and, .compare c.1 .equal (.text (String.ofList s)))],
        ⟨a ++ hidden (' ' :: ("where".toList ++ ' ' :: quotedCondition c s))⟩) := by
  have hcondition := condition?_eq hs ht c.2 .equal (stands_quoted hquote) .nil
  have hchain := chain_single (a := quotedCondition c s) hcondition
    (Grammar.needs_connective.find?_eq_none (by decide) .nil)
  have hvisible := (hs.free_of_mem ht c.2).visible (' ' :: ((Comparison.sql .equal).toList ++ ' ' :: quoted s) ++ [])
  rw [← List.append_assoc] at hvisible
  have htaken := takeConditions_where hchain hvisible ha .nil .nil
  rw [List.append_nil, List.append_nil] at htaken
  simp only [Interpreter.takeFilter, htaken, Taken.kept_ok, ok_bind]
  rfl

theorem takeIntent_quoted (hquote : '\'' ∉ s) (w : List Char) (n : Nat) :
    t'.takeIntent (subjectOf schema t) .select (size "show".toList) n none none
      ⟨hidden "show".toList ++ hidden w ++ ' ' :: ("where".toList ++ ' ' :: quotedCondition c s)⟩ =
        .ok (.select t.name [] ⟨[(.and, .compare c.1 .equal (.text (String.ofList s)))], none, none, none⟩, []) := by
  have hblank : Lacks readWords (hidden "show".toList ++ hidden w) := lacks_append_hidden (lacks_hidden _)
  have hcues : Lacks Grammar.cueWords (hidden "show".toList ++ hidden w) := hblank.mono (by decide)
  have hfilter := takeFilter_quoted hs ht c hquote hcues
  rw [← List.append_nil (hidden (' ' :: _)), ← List.append_assoc] at hfilter
  let bare : Clauses t := ⟨none, none, none, none⟩
  have hread := takeRead_tail t' hs ht false bare (lacks_append_hidden hblank) hfilter
  have htail : bare.tail = [] := rfl
  have hspaces : ∀ d ∈ hidden w ++ hidden (' ' :: ("where".toList ++ ' ' :: quotedCondition c s)), d = ' ' :=
    List.forall_mem_append.mpr ⟨fun _ => eq_space_of_mem_hidden, fun _ => eq_space_of_mem_hidden⟩
  refine takeIntent_columns t' hs ht .space [] List.nodup_nil hspaces ?_ n
  rw [hread, htail]
  simp only [columnsText, List.nil_append, hidden_nil, List.append_nil, List.append_assoc]
  rfl

theorem lacks_quotedOpening {ws : List String} (hws : ws ⊆ reserved) (hwhere : Lacks ws "where".toList) :
    Lacks ws (hidden "show".toList ++ quotedOpening c) := by
  refine lacks_hidden_append.mpr ?_
  simp only [quotedOpening, Lacks.space_cons, Lacks.append_space]
  exact ⟨(hs.tables t ht).lacks hws, hwhere, (hs.free_of_mem ht c.2).lacks hws, lacks_of_no_word (by decide), .nil⟩

theorem normalize_quotedSentence (s : List Char) :
    Interpreter.normalize (String.ofList (quotedSentence c s)).toList = quotedSentence c (squeeze s) := by
  have htidy : Tidy ("show".toList ++ quotedOpening c ++ ['\'']) := by
    have hshow : Tidy "show".toList := by decide
    have hwhere : Tidy "where".toList := by decide
    have hsign : Tidy ((Comparison.sql .equal).toList ++ ' ' :: ['\'']) := by decide
    have h := hshow.space ((hs.tables t ht).tidy.space (hwhere.space ((hs.free_of_mem ht c.2).tidy.space hsign)))
    simpa [quotedOpening] using h
  rw [String.toList_ofList, quotedSentence, quotedSentence, ← quotedOpening_append, ← quotedOpening_append,
    ← List.append_assoc, normalize_quoted htidy, List.append_assoc]

theorem takeWindow_quoted (h : ∀ p : TimePhrase, p.pattern.holds s = false) :
    takeWindow ⟨hidden "show".toList ++ quotedOpening c ++ quoted s⟩ =
      (.ok none, ⟨hidden "show".toList ++ quotedOpening c ++ quoted s⟩) :=
  takeWindow_eq fun p => find?_quoted (lacks_quotedOpening hs ht c (by decide) (by decide)) p (h p)

theorem knownMatch?_quoted (h : ∀ m ∈ prepositionMentions s, lookupTable? schema m.word = none) :
    knownMatch? schema (prepositionMentions (hidden "show".toList ++ quotedOpening c ++ quoted s)) = none := by
  rw [prepositionMentions_quoted (lacks_quotedOpening hs ht c (by decide) (by decide)), knownMatch?,
    List.findSome?_map, List.findSome?_eq_none_iff]
  intro m hm
  rw [Function.comp_apply, h m hm]
  rfl

/-- A quoted text is the value as it stands, but for its blanks, if no phrase of recent time and no table
is found in it. -/
theorem interpret_quoted (hquote : '\'' ∉ s) (hs' : Unread schema (squeeze s)) :
    ∃ i, t'.interpret (String.ofList (quotedSentence c s)) schema = .ok i ∧
      i.intent = .select t.name [] ⟨[(.and, .compare c.1 .equal (.text (String.ofList (squeeze s))))], none, none, none⟩ ∧
      i.table = t.name ∧ i.known = true := by
  have hquote' : '\'' ∉ squeeze s := fun h => hquote (mem_of_mem_squeeze h (by decide))
  have hblank : isWordAt (' ' :: ("where".toList ++ ' ' :: quotedCondition c (squeeze s))).head? = false := by
    exact (by decide : isWord ' ' = false)
  have hwindow := takeWindow_quoted hs ht c hs'.no_time
  have hmentions := knownMatch?_quoted hs ht c hs'.no_table
  rw [List.append_assoc, quotedOpening_append] at hwindow hmentions
  have htable := resolveTable?_verb hs ht hmentions hblank (hidden_ne_nil (by decide))
  rw [size_hidden] at htable
  have h := interpret_sentence t' .select (a := []) (normalize_quotedSentence hs ht c s) (.cons _)
    (fun _ => (hs.tables t ht).noMe hblank) (.word (by decide) (by decide)) hwindow htable
    (takeIntent_quoted t' hs ht c hquote' _)
  exact h

end Interpret

/-- Words of the grammar are left alone between quotes. -/
theorem interpret_quoted_words :
    let users : Table := ⟨"users", [.ofType "name" "text"]⟩
    let schema : Schema := ⟨[⟨"orders", [.ofType "id" "integer"]⟩, users]⟩
    let name : ColumnOf users := ⟨"name", by decide⟩
    let s := "a  or x > 1 limit 2 of us".toList
    FreeSchema schema ∧ users ∈ schema.tables ∧ '\'' ∉ s ∧ Unread schema (squeeze s) ∧
    ∃ i, (Interpreter.ofDialect .postgres).interpret (String.ofList (quotedSentence name s)) schema = .ok i ∧
      i.intent = .select "users" []
        ⟨[(.and, .compare "name" .equal (.text (String.ofList (squeeze s))))], none, none, none⟩ ∧
      i.table = "users" ∧ i.known = true := by
  intro users schema name s
  have hs : FreeSchema schema := ⟨by decide +kernel, by decide +kernel, by decide +kernel, by decide +kernel⟩
  have ht : users ∈ schema.tables := by decide
  have hquote : '\'' ∉ s := by decide
  have hs' : Unread schema (squeeze s) := ⟨fun p => by cases p <;> decide +kernel, by decide +kernel⟩
  exact ⟨hs, ht, hquote, hs', interpret_quoted (.ofDialect .postgres) hs ht name hquote hs'⟩

/-- The intent compares with that text. -/
def comparesWith (s : String) : Intent → Bool
  | .select _ _ ⟨[(_, .compare _ _ (.text v))], _, _, _⟩ => v = s
  | _ => false

/-- Two blanks, a day and the mention of a table do not come through the quotes. -/
theorem quoted_not_opaque :
    let u : Table := ⟨"u", [.ofType "x" "text"]⟩
    let schema : Schema := ⟨[⟨"t", []⟩, u]⟩
    let x : ColumnOf u := ⟨"x", by decide⟩
    FreeSchema schema ∧ ∀ s ∈ ["a  b", "today", "of t"], '\'' ∉ s.toList ∧
      ¬∃ i, (Interpreter.ofDialect .postgres).interpret (String.ofList (quotedSentence x s.toList)) schema = .ok i ∧
        i.intent = .select "u" [] ⟨[(.and, .compare "x" .equal (.text s))], none, none, none⟩ := by
  intro u schema x
  refine ⟨⟨by decide +kernel, by decide +kernel, by decide +kernel, by decide +kernel⟩, fun s hs => ⟨?_, ?_⟩⟩
  · exact (by decide : ∀ s ∈ ["a  b", "today", "of t"], '\'' ∉ s.toList) s hs
  · rintro ⟨i, hi, hintent⟩
    have hother : ∀ s ∈ ["a  b", "today", "of t"],
        ((Interpreter.ofDialect .postgres).interpret (String.ofList (quotedSentence x s.toList)) schema).toOption.all
          (fun i => !comparesWith s i.intent) = true := by
      decide +kernel
    have h := hother s hs
    rw [hi] at h
    simp [Except.toOption, hintent, comparesWith] at h

end Parlance.Sentence
