import Parlance.Proofs.Filter.Chains
import Parlance.Proofs.Grammar.Keys

/-! When a write is left without a filter. An UPDATE or a DELETE concerns the whole table exactly if
there is no id, no window, and no condition that can be read behind a cue in what is left of the text;
a condition behind the word "where" that can be read is never dropped. -/

namespace Parlance

open Pattern (Prefers Matches Opens Spelled)
open Text (size isBlank isWord isWordAt sameWord)

namespace Interpretation

open Grammar (conditionCue)

variable {s : Subject}

/-! ### The word "where" -/

def cuePhrases : List String :=
  ["where", "whose", "with", "having", "that have", "that has", "which have", "which has"]

theorem spells_conditionCue {w : List Char} (h : conditionCue.Spells w) :
    ∃ u g, w = u ++ g ∧ (Pattern.phrases cuePhrases).Spells u ∧ g ≠ [] ∧ ∀ c ∈ g, isBlank c = true := by
  obtain ⟨e, w, rfl, he, h⟩ := Pattern.spells_seq_cons h
  obtain ⟨u, g, rfl, hu, h⟩ := Pattern.spells_seq_cons h
  obtain ⟨c, cs, rfl, hg⟩ := Pattern.spells_gap h
  cases he
  exact ⟨u, c :: cs, rfl, hu, List.cons_ne_nil c cs, hg⟩

theorem length_of_spelled {w m : List Char} (h : Spelled w m) : m.length = w.length := by
  induction h with
  | nil => rfl
  | cons _ _ ih => rw [List.length_cons, List.length_cons, ih]

/-- No cue that begins before a whole word "where" runs into it. -/
theorem cue_ends_before {a d w x v : List Char} (hm : Matches conditionCue a w x) (hwx : w ++ x = d ++ v)
    (hd : d ≠ []) (hlast : isWordAt d.getLast? = false) (hv : Opens ["where"] v) : ∃ y, d = w ++ y := by
  obtain ⟨k, hk, m, z, rfl, hspelled, hz⟩ := hv
  obtain rfl := List.mem_singleton.mp hk
  have hword : ∀ c ∈ m, isWord c = true := hspelled.isWord (by decide)
  rcases List.append_eq_append_iff.mp hwx with ⟨y, rfl, -⟩ | ⟨y, rfl, hy⟩
  · exact ⟨y, rfl⟩
  · cases y with
    | nil => exact ⟨[], by simp⟩
    | cons c y =>
      exfalso
      have hc : isWord c = true := by
        obtain ⟨c', m', rfl⟩ := List.exists_cons_of_ne_nil (hspelled.ne_nil (by decide))
        obtain ⟨rfl, -⟩ := List.cons.inj hy
        exact hword c' List.mem_cons_self
      obtain ⟨u, g, hw, hu, hgne, hg⟩ := spells_conditionCue hm.spells
      -- The blanks of the cue hold no letter, so the word would be the last one of its phrase.
      have hnotin : c ∉ g := by
        intro hmem
        rw [Text.isWord_of_isBlank (hg c hmem)] at hc
        cases hc
      rcases List.append_eq_append_iff.mp hw with ⟨r, rfl, hr⟩ | ⟨r, -, rfl⟩
      · cases r with
        | nil => exact hnotin (by rw [← List.nil_append g, ← hr]; exact List.mem_cons_self)
        | cons c' r =>
          obtain ⟨rfl, rfl⟩ := List.cons.inj hr
          obtain ⟨k, hk, k', hk', n, z', hn, hn', hz'⟩ :=
            Pattern.opens_of_spells_phrases (by decide) hu rfl hd hlast hc
          obtain ⟨hkne, hkalpha⟩ : k'.toList ≠ [] ∧ ∀ l ∈ k'.toList, l.isAlpha = true :=
            (by decide : ∀ k ∈ cuePhrases, Pattern.Lettered (Pattern.phraseWords k).tail) k hk k' hk'
          have hend : isWordAt (z' ++ (g ++ x)).head? = false := by
            cases z' with
            | cons e z' => exact hz'
            | nil =>
              obtain ⟨e, g', rfl⟩ := List.exists_cons_of_ne_nil hgne
              exact Text.isWord_of_isBlank (hg e List.mem_cons_self)
          have hsame : m ++ z = n ++ (z' ++ (g ++ x)) := by
            calc m ++ z = c :: r ++ (g ++ x) := by simpa using hy
              _ = n ++ (z' ++ (g ++ x)) := by rw [hn, List.append_assoc]
          obtain rfl := Pattern.eq_of_append_eq_append hsame hword (hn'.isWord hkalpha) hz hend
          have hlength : ∀ k ∈ cuePhrases, ∀ k' ∈ (Pattern.phraseWords k).tail,
              k'.toList.length ≠ "where".toList.length := by
            decide
          exact hlength k hk k' hk' ((length_of_spelled hn').symm.trans (length_of_spelled hspelled))
      · exact hnotin (by simp)

theorem hit_of_where {u m g x : List Char} (hu : isWordAt u.getLast? = false) (hm : Spelled "where".toList m)
    (hg : g ≠ []) (hblank : ∀ c ∈ g, isBlank c = true) (hx : ∀ c ∈ x.head?, isBlank c = false) :
    ∃ cue ∈ conditionCue.hits (u ++ (m ++ (g ++ x))), cue.span.stop = size (u ++ (m ++ g)) := by
  have hword : ∀ c ∈ m, isWord c = true := hm.isWord (by decide)
  have hne : m ≠ [] := hm.ne_nil (by decide)
  have hgap : isWordAt (g ++ x).head? = false := by
    obtain ⟨c, g', rfl⟩ := List.exists_cons_of_ne_nil hg
    exact Text.isWord_of_isBlank (hblank c List.mem_cons_self)
  have hedge : Prefers .edge u [] (m ++ (g ++ x)) [] := by
    refine .edge ?_
    rw [Cursor.atEdge_before hne hword, hu]
    rfl
  have hphrase : Prefers (Pattern.phrases cuePhrases) u m (g ++ x) [] := by
    refine .oneOf_head ?_
    rw [Pattern.phrase_of_word (by decide)]
    exact .spelled hm
  have hcue : Prefers conditionCue u (m ++ g) x [] := by
    refine .seq_nil (by simpa using hedge) (.seq_cons hphrase (.seq_last (.some1 hg hblank hx)))
  have hit := hcue.hitAt?
  rw [List.append_assoc] at hit
  have hclear : ∀ a d w y, u = a ++ d → d ≠ [] → Matches conditionCue ([] ++ a) w y →
      w ++ y = d ++ (m ++ (g ++ x)) → ∃ z, d = w ++ z := by
    intro a d w y hud hd hmatch hwy
    rw [hud] at hu
    have hlast : isWordAt d.getLast? = false := Pattern.isWordAt_last hu
    exact cue_ends_before hmatch hwy hd hlast ⟨"where", List.mem_singleton_self _, m, g ++ x, rfl, hm, hgap⟩
  exact ⟨_, Pattern.mem_hitsFrom (u := []) (Nat.zero_le _) hit hclear, rfl⟩

/-- Where a write looks for its conditions. An UPDATE takes its values out of the text before. -/
def conditionText (s : Subject) (o : Operation) (ws : Workspace) : Workspace :=
  if o = .update then (takeSet s ws).2 else ws

end Interpretation

def Intent.restriction? : Intent → Option Filter
  | .update _ _ f | .delete _ f => some f
  | .select .. | .count .. | .insert .. => none

namespace Interpreter

open Interpretation
open Grammar (conditionCue)

variable {t : Interpreter} {s : Subject} {id recency : Option Predicate} {f : Filter}

theorem isGroup_idFor {o : Operation} {tableEnd : Nat} {ws : Workspace} {p : Predicate}
    (h : (idFor o s tableEnd ws).1 = some p) : p.isGroup = false := by
  unfold idFor at h
  split at h
  · cases h
  · unfold takeId at h
    split at h
    · cases h
    · split at h
      · cases h
      · cases h
        rfl

theorem isGroup_recencyOf {window : Option TimeWindow} {p : Predicate}
    (h : (t.recencyOf s window).1 = some p) : p.isGroup = false := by
  unfold recencyOf at h
  split at h
  · cases h
  · split at h
    · cases h
      rfl
    · cases h

/-- A filter says nothing exactly if there was nothing to say. -/
theorem takeFilter_nil_iff {ws rest : Workspace} (hid : ∀ p, id = some p → p.isGroup = false)
    (hrecency : ∀ p, recency = some p → p.isGroup = false) (h : takeFilter s id recency ws = .ok (f, rest)) :
    f = [] ↔ id = none ∧ recency = none ∧
      ∀ cue ∈ conditionCue.hits ws.text, condition? s (ws.after cue.span.stop) = .ok none := by
  obtain ⟨chains, hrun, rfl⟩ := takeFilter_eq_ok h
  constructor
  · intro hnil
    have hjoined : joined id chains recency = [] := by
      unfold Filter.flattened at hnil
      split at hnil
      · next c terms heq =>
        -- A lone group would be one of the parts, but none of them is an empty group.
        exfalso
        have hparts := eq_of_joined_eq_group hrun.chains_plain heq
        rw [hnil] at hparts
        have hmem : Predicate.group [] ∈ id.toList ++ chains.map .group ++ recency.toList := by
          rw [hparts]
          exact List.mem_singleton_self _
        simp only [List.mem_append, Option.mem_toList, List.mem_map] at hmem
        rcases hmem with (hmem | ⟨g, hg, hgroup⟩) | hmem
        · cases hid _ hmem
        · cases hgroup
          exact (hrun.chains_plain [] hg).1 rfl
        · cases hrecency _ hmem
      · exact hnil
    simp only [joined, List.append_eq_nil_iff, List.map_eq_nil_iff, Option.toList_eq_nil_iff,
      List.flatMap_eq_nil_iff] at hjoined
    obtain ⟨⟨hid, hchains⟩, hrecency⟩ := hjoined
    have hnone : chains = [] := by
      cases chains with
      | nil => rfl
      | cons g chains =>
        have hg := (hrun.chains_plain g List.mem_cons_self).1
        exact absurd (hchains g List.mem_cons_self) (chainTerms_ne_nil hg)
    exact ⟨hid, hrecency, hrun.none_behind hnone⟩
  · rintro ⟨rfl, rfl, hnone⟩
    obtain ⟨rfl, -⟩ := hrun.unique (cueRun_nil_iff.mpr hnone)
    rfl

theorem takeFilter_of_takeIntent {o : Operation} {verbEnd tableEnd : Nat} {ws : Workspace}
    {r : Intent × List String} (h : t.takeIntent s o verbEnd tableEnd id recency ws = .ok r)
    (hf : r.1.restriction? = some f) : ∃ rest, takeFilter s id recency (conditionText s o ws) = .ok (f, rest) := by
  cases o with
  | insert =>
    obtain ⟨values, -, h⟩ := bind_eq_ok h
    cases h
    cases hf
  | update =>
    obtain ⟨⟨values, left⟩, hset, h⟩ := bind_eq_ok h
    obtain ⟨⟨filter, rest⟩, hfilter, h⟩ := bind_eq_ok h
    cases h
    cases hf
    refine ⟨rest, ?_⟩
    rw [conditionText, if_pos rfl, Taken.eq_of_kept hset]
    exact hfilter
  | delete =>
    obtain ⟨⟨filter, rest⟩, hfilter, h⟩ := bind_eq_ok h
    cases h
    cases hf
    exact ⟨rest, hfilter⟩
  | count =>
    obtain ⟨clauses, -, h⟩ := bind_eq_ok h
    cases h
    cases hf
  | select =>
    obtain ⟨clauses, -, h⟩ := bind_eq_ok h
    cases h
    cases hf

/-- A filter leaves nothing out that can be read in `left`. -/
structure Heeds (s : Subject) (left : Workspace) (id recency : Option Predicate) (f : Filter) : Prop where
  nil_iff : f = [] ↔ id = none ∧ recency = none ∧
    ∀ cue ∈ conditionCue.hits left.text, condition? s (left.after cue.span.stop) = .ok none
  /-- A condition that can be read behind the word "where". -/
  ne_nil : ∀ u m g x, left.text = u ++ (m ++ (g ++ x)) → isWordAt u.getLast? = false →
    sameWord m "where".toList = true → g ≠ [] → (∀ c ∈ g, isBlank c = true) →
    (∀ c ∈ x.head?, isBlank c = false) → condition? s x ≠ .ok none → f ≠ []

theorem heeds_takeFilter {left rest : Workspace} (hid : ∀ p, id = some p → p.isGroup = false)
    (hrecency : ∀ p, recency = some p → p.isGroup = false)
    (h : takeFilter s id recency left = .ok (f, rest)) : Heeds s left id recency f := by
  have hiff := takeFilter_nil_iff hid hrecency h
  refine ⟨hiff, fun u m g x htext hu hm hg hblank hx hread hnil => ?_⟩
  obtain ⟨-, -, hnone⟩ := hiff.mp hnil
  have hspelled : Spelled "where".toList m := by
    rw [Pattern.spelled_iff (by decide)]
    simpa [sameWord, Text.asciiLower] using hm
  obtain ⟨cue, hcue, hstop⟩ := hit_of_where hu hspelled hg hblank hx
  rw [← htext] at hcue
  have hbehind := hnone cue hcue
  have hafter : left.after cue.span.stop = x := by
    have hjoin : u ++ (m ++ (g ++ x)) = u ++ (m ++ g) ++ x := by simp
    rw [Workspace.after, htext, hstop, hjoin, Text.dropTo_size_append]
  rw [hafter] at hbehind
  exact hread hbehind

/-- A write concerns the whole table only if nothing that can be read restricts it. -/
theorem interpret_unfiltered_iff {text : String} {schema : Schema} {i : Interpretation}
    (h : t.interpret text schema = .ok i) (hf : i.intent.restriction? = some f) :
    ∃ v window ws m id warnings, Stages t text schema v window ws m id (i.intent, warnings) ∧
      Heeds (subject schema m) (conditionText (subject schema m) v.1 id.2) id.1
        (t.recencyOf (subject schema m) window).1 f := by
  obtain ⟨v, window, ws, m, id, warnings, hs, -, -⟩ := stages_of_interpret h
  obtain ⟨rest, hfilter⟩ := takeFilter_of_takeIntent hs.intent_eq hf
  refine ⟨v, window, ws, m, id, warnings, hs, heeds_takeFilter ?_ (fun p hp => isGroup_recencyOf hp) hfilter⟩
  rw [← hs.id_eq]
  exact fun p hp => isGroup_idFor hp

/-- The values of the UPDATE are taken before its condition is looked for. -/
theorem interpret_unfiltered_iff_update :
    let t := ofDialect .sqlite
    ∃ i f, t.interpret "update t set x=1 where y=2" .empty = .ok i ∧ i.intent.restriction? = some f ∧ f ≠ [] ∧
      ∃ v window ws m id warnings,
        Stages t "update t set x=1 where y=2" .empty v window ws m id (i.intent, warnings) ∧
        Heeds (subject .empty m) (conditionText (subject .empty m) v.1 id.2) id.1
          (t.recencyOf (subject .empty m) window).1 f := by
  intro t
  have hok : (t.interpret "update t set x=1 where y=2" .empty).toOption.any
      (fun i => i.intent.restriction?.any (!·.isEmpty)) = true := by
    decide +kernel
  obtain ⟨i, h, hsome⟩ := exists_ok_of_any hok
  obtain ⟨f, hf, hne⟩ := (Option.any_eq_true _ _).mp hsome
  exact ⟨i, f, h, hf, by simpa using hne, interpret_unfiltered_iff h hf⟩

/-- The word "where" stands behind the verb, outside quotes, and yet nothing restricts the write: once
it is taken for a value, once nothing can be read behind it. -/
theorem unfiltered_despite_where :
    let t := ofDialect .postgres
    let schema : Schema := ⟨[⟨"users", [.ofType "id" "integer", .ofType "name" "text"]⟩]⟩
    ∀ text ∈ ["update users set name where id = 3", "delete from users where (id = 3)"],
      '\'' ∉ text.toList ∧ '"' ∉ text.toList ∧
      (∃ o n, Grammar.detect? (normalize text.toList) = some (o, n) ∧
        Text.hasWord "where" (Text.dropTo n (normalize text.toList)) = true) ∧
      ∃ i, t.interpret text schema = .ok i ∧ i.intent.restriction? = some [] := by
  intro t schema text htext
  have hquotes : ∀ text ∈ ["update users set name where id = 3", "delete from users where (id = 3)"],
      '\'' ∉ text.toList ∧ '"' ∉ text.toList := by
    decide
  have hverb : ∀ text ∈ ["update users set name where id = 3", "delete from users where (id = 3)"],
      (Grammar.detect? (normalize text.toList)).any
        (fun v => Text.hasWord "where" (Text.dropTo v.2 (normalize text.toList))) = true := by
    decide +kernel
  have hok : ∀ text ∈ ["update users set name where id = 3", "delete from users where (id = 3)"],
      (t.interpret text schema).toOption.any (fun i => i.intent.restriction?.any List.isEmpty) = true := by
    decide +kernel
  obtain ⟨hq, hq'⟩ := hquotes text htext
  obtain ⟨⟨o, n⟩, hdetect, hwhere⟩ := (Option.any_eq_true _ _).mp (hverb text htext)
  obtain ⟨i, h, hsome⟩ := exists_ok_of_any (hok text htext)
  obtain ⟨f, hf, hnil⟩ := (Option.any_eq_true _ _).mp hsome
  rw [List.isEmpty_iff.mp hnil] at hf
  exact ⟨hq, hq', ⟨o, n, hdetect, hwhere⟩, i, h, hf⟩

end Interpreter
end Parlance
