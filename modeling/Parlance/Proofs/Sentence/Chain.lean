import Parlance.Proofs.Sentence.Condition

/-! Chains of conditions behind "where". A chain of any length is read to its end, each condition with
the connective before it, and its terms are the filter of the sentence. -/

namespace Parlance.Sentence

open Pattern Text
open Interpretation

variable {schema : Schema} {t : Table}

structure Condition (t : Table) where
  column : ColumnOf t
  op : Comparison
  value : Numeral

namespace Condition

def text (c : Condition t) : List Char :=
  c.column.1.toList ++ ' ' :: (c.op.sql.toList ++ ' ' :: c.value.digits)

def predicate (c : Condition t) : Predicate := .compare c.column.1 c.op c.value.literal

end Condition

def connectiveWord : Connective → String
  | .and => "and"
  | .or => "or"

/-- Further conditions of a chain, each behind its connective. -/
def linked : List (Connective × Condition t) → List Char
  | [] => []
  | (k, c) :: rest => ' ' :: ((connectiveWord k).toList ++ ' ' :: (c.text ++ linked rest))

/-- Conditions joined by connectives, one at least. -/
structure Chain (t : Table) where
  first : Condition t
  rest : List (Connective × Condition t)

namespace Chain

def text (c : Chain t) : List Char := c.first.text ++ linked c.rest

def filter (c : Chain t) : Filter :=
  (.and, c.first.predicate) :: c.rest.map fun (k, c) => (k, c.predicate)

end Chain

theorem spaced_linked (rest : List (Connective × Condition t)) : Spaced (linked rest) := by
  cases rest with
  | nil => exact .nil
  | cons => exact .cons _

theorem prefers_connective (k : Connective) {x : List Char} (hx : ∀ c ∈ x.head?, isBlank c = false) :
    Prefers Grammar.connective [] (' ' :: ((connectiveWord k).toList ++ [' '])) x
      [(1, .behind [' '] (connectiveWord k).toList)] := by
  have hword : Prefers (phrases ["and", "or"]) [' '] (connectiveWord k).toList (' ' :: x) [] := by
    cases k with
    | and => exact .oneOf_head (.phrase (by decide))
    | or =>
      refine .oneOf_tail (fails_of_begins rfl fun c hc => ?_) (.oneOf_head (.phrase (by decide)))
      cases hc
      decide
  have hvisible : ∀ c ∈ ((connectiveWord k).toList ++ [' '] ++ x).head?, isBlank c = false := by
    cases k <;> (intro c hc; cases hc; decide)
  have hrest : Prefers (seq [group 1 (phrases ["and", "or"]), gap]) [' '] ((connectiveWord k).toList ++ [' ']) x _ :=
    .seq_cons hword.group (.seq_last (.gap_space hx))
  exact .seq_cons (v := []) .start (.seq_cons (v := [' ']) (.gap_space hvisible) hrest)

theorem connectiveOf_word (k : Connective) : connectiveOf (connectiveWord k).toList = k := by
  cases k <;> decide

theorem Condition.visible (hs : FreeSchema schema) (ht : t ∈ schema.tables) (c : Condition t)
    (x : List Char) : ∀ d ∈ (c.text ++ x).head?, isBlank d = false := by
  rw [Condition.text, List.append_assoc]
  exact (hs.free_of_mem ht c.column.2).visible _

theorem Condition.condition?_eq (hs : FreeSchema schema) (ht : t ∈ schema.tables) (c : Condition t)
    {x : List Char} (hx : Spaced x) :
    condition? (subjectOf schema t) (c.text ++ x) = .ok (some (c.predicate, size c.text)) :=
  Sentence.condition?_eq hs ht c.column.2 c.op c.value.stands hx

/-- A chain is read to its end, if the sentence does not go on with a connective. -/
theorem chainFrom_eq (hs : FreeSchema schema) (ht : t ∈ schema.tables) {z : List Char} (hz : Spaced z)
    (hend : Grammar.connective.find? z = none) (rest : List (Connective × Condition t)) :
    ∀ (fuel : Nat) (k : Connective) (c : Condition t), rest.length < fuel →
      chainFrom (subjectOf schema t) fuel k (c.text ++ (linked rest ++ z)) =
        .ok ((k, c.predicate) :: rest.map fun (k, c) => (k, c.predicate), size (c.text ++ linked rest)) := by
  induction rest with
  | nil =>
    intro fuel k c hfuel
    obtain ⟨fuel, rfl⟩ : ∃ n, fuel = n + 1 := ⟨fuel - 1, by omega⟩
    rw [chainFrom, linked, List.nil_append, c.condition?_eq hs ht hz]
    simp only [ok_bind, dropTo_size_append, hend, List.append_nil]
    rfl
  | cons link rest ih =>
    intro fuel k c hfuel
    obtain ⟨k', c'⟩ := link
    obtain ⟨fuel, rfl⟩ : ∃ n, fuel = n + 1 := ⟨fuel - 1, by omega⟩
    have hshape : linked ((k', c') :: rest) ++ z =
        ' ' :: ((connectiveWord k').toList ++ [' ']) ++ (c'.text ++ (linked rest ++ z)) := by
      simp [linked]
    have hlink := (prefers_connective k' (c'.visible hs ht (linked rest ++ z))).find?
    have hspaced : Spaced (linked rest ++ z) := (spaced_linked rest).append hz
    have hnext := ih fuel k' c' (by simp only [List.length_cons] at hfuel; omega)
    rw [chainFrom, c.condition?_eq hs ht (((spaced_linked _).append hz))]
    simp only [ok_bind, dropTo_size_append, hshape, hlink, Hit.span_behind, List.nil_append,
      c'.condition?_eq hs ht hspaced, Hit.text?_behind]
    have hword : (List.lookup 1 [(1, Capture.behind [' '] (connectiveWord k').toList)]) =
        some (.behind [' '] (connectiveWord k').toList) := rfl
    rw [hword, Option.map_some, Capture.text_behind, Option.getD_some, connectiveOf_word, hnext]
    simp only [ok_bind, List.map_cons]
    congr 2
    simp only [linked, size_append, size]
    omega

theorem length_le_linked (rest : List (Connective × Condition t)) : rest.length ≤ (linked rest).length := by
  induction rest with
  | nil => exact Nat.zero_le _
  | cons link rest ih =>
    obtain ⟨k, c⟩ := link
    simp only [linked, List.length_cons, List.length_append]
    omega

theorem Chain.chain_eq (hs : FreeSchema schema) (ht : t ∈ schema.tables) (c : Chain t) {z : List Char}
    (hz : Spaced z) (hend : Grammar.connective.find? z = none) :
    chain (subjectOf schema t) (c.text ++ z) = .ok (c.filter, size c.text) := by
  have hlength : c.rest.length < (c.first.text ++ (linked c.rest ++ z)).length + 1 := by
    have hle := length_le_linked c.rest
    simp only [List.length_append]
    omega
  rw [chain, Chain.text, List.append_assoc]
  exact chainFrom_eq hs ht hz hend c.rest _ .and c.first hlength

/-! ### The filter -/

def whereText : Option (Chain t) → List Char
  | none => []
  | some c => ' ' :: ("where".toList ++ ' ' :: c.text)

def filterOf : Option (Chain t) → Filter
  | none => []
  | some c => c.filter

theorem spaced_whereText (c : Option (Chain t)) : Spaced (whereText c) := by
  cases c with
  | none => exact .nil
  | some => exact .cons _

/-- A cue is found where it stands as a word of its own. -/
theorem prefers_cue {p : Pattern} {a w x : List Char} (hp : Prefers p (a ++ [' ']) w (' ' :: x) []) (hne : w ≠ [])
    (hword : ∀ c ∈ w, isWord c = true) (hx : ∀ c ∈ x.head?, isBlank c = false) :
    Prefers (seq [edge, p, gap]) (a ++ [' ']) (w ++ [' ']) x [] := by
  have hedge : Prefers edge (a ++ [' ']) [] (w ++ [' '] ++ x) [] := by
    rw [List.append_assoc]
    exact .edge_before hne hword
  exact .seq_nil hedge (.seq_cons hp (.seq_last (.gap_space hx)))

theorem conditionsFrom_eq_nil {s : Subject} {fuel low : Nat} {cs : List Char} (h : Lacks Grammar.cueWords cs) :
    conditionsFrom s fuel low ⟨cs⟩ = (.ok [], ⟨cs⟩) := by
  cases fuel with
  | zero => rfl
  | succ fuel =>
    rw [conditionsFrom, Grammar.keyed_conditionCue.needs.findAfter?_eq_none (by decide) h]

/-- The conditions behind "where" are taken together with it. -/
theorem takeConditions_where {s : Subject} {cond a z : List Char} {e : Connective × Predicate} {f : Filter}
    (hchain : chain s (cond ++ z) = .ok (e :: f, size cond)) (hcond : ∀ c ∈ (cond ++ z).head?, isBlank c = false)
    (ha : Lacks Grammar.cueWords a) (hz : Lacks Grammar.cueWords z) (hspaced : Spaced z) :
    takeConditions s ⟨a ++ (' ' :: ("where".toList ++ ' ' :: cond) ++ z)⟩ =
      (.ok (chainTerms (e :: f)), ⟨a ++ (hidden (' ' :: ("where".toList ++ ' ' :: cond)) ++ z)⟩) := by
  have hcue : Prefers Grammar.conditionCue (a ++ [' ']) ("where".toList ++ [' ']) (cond ++ z) [] :=
    prefers_cue (.oneOf_head (.phrase (by decide))) (by decide) (by decide) hcond
  have hfind : Grammar.conditionCue.findAfter? 0 (a ++ ' ' :: ("where".toList ++ [' '] ++ (cond ++ z))) = _ :=
    Grammar.keyed_conditionCue.find?_eq (by decide) ha hcue
  have hshape : ' ' :: ("where".toList ++ ' ' :: cond) ++ z = ' ' :: ("where".toList ++ [' '] ++ (cond ++ z)) := by
    simp
  have hafter : dropTo (size (a ++ [' '] ++ ("where".toList ++ [' '])))
      (a ++ ' ' :: ("where".toList ++ [' '] ++ (cond ++ z))) = cond ++ z := by
    have h := dropTo_size_append (a ++ [' '] ++ ("where".toList ++ [' '])) (cond ++ z)
    simpa using h
  have htaken := take_segment a ("where".toList ++ [' '] ++ cond) z
  have hleft : Lacks Grammar.cueWords (a ++ (hidden (' ' :: ("where".toList ++ [' '] ++ cond)) ++ z)) :=
    lacks_append_spaced ha (lacks_hidden_append.mpr hz) ((spaced_hidden _).append hspaced)
  have hstop : size (a ++ [' '] ++ ("where".toList ++ [' '])) + size cond =
      size (a ++ [' '] ++ ("where".toList ++ [' '] ++ cond)) := by
    simp only [size_append, Nat.add_assoc]
  have hsegment : ' ' :: ("where".toList ++ ' ' :: cond) = ' ' :: ("where".toList ++ [' '] ++ cond) := by simp
  rw [List.append_assoc] at htaken
  rw [takeConditions, hshape, conditionsFrom]
  simp only [hfind, Hit.span_behind, Workspace.after, hafter, hchain, hstop, htaken, conditionsFrom_eq_nil hleft]
  simp only [Except.map, List.append_nil, hsegment]

theorem flattened_chainTerms (c : Chain t) : Filter.flattened (chainTerms c.filter) = c.filter := by
  rw [chainTerms]
  split
  · rfl
  · next h =>
    have hand : ∀ e ∈ c.filter, e.1 = .and := by
      intro e he
      cases hk : e.1 with
      | and => rfl
      | or => exact absurd (List.any_eq_true.mpr ⟨e, he, by simp [hk]⟩) h
    have hmap : c.filter.map (fun e => (Connective.and, e.2)) = c.filter := by
      have hid : c.filter.map (fun e => (Connective.and, e.2)) = c.filter.map id :=
        List.map_congr_left fun e he => by rw [← hand e he]; rfl
      rw [hid, List.map_id]
    rw [hmap]
    rfl

theorem takeFilter_eq (hs : FreeSchema schema) (ht : t ∈ schema.tables) (c : Option (Chain t)) {a z : List Char}
    (ha : Lacks Grammar.cueWords a) (hz : Lacks Grammar.cueWords z) (hspaced : Spaced z)
    (hend : Lacks ["and", "or"] z) :
    Interpreter.takeFilter (subjectOf schema t) none none ⟨a ++ (whereText c ++ z)⟩ =
      .ok (filterOf c, ⟨a ++ (hidden (whereText c) ++ z)⟩) := by
  cases c with
  | none =>
    have hnone : takeConditions (subjectOf schema t) ⟨a ++ z⟩ = (.ok [], ⟨a ++ z⟩) :=
      conditionsFrom_eq_nil (lacks_append_spaced ha hz hspaced)
    simp only [Interpreter.takeFilter, whereText, List.nil_append, hnone, Taken.kept_ok, ok_bind]
    rfl
  | some c =>
    have hcond := c.first.visible hs ht (linked c.rest ++ z)
    rw [← List.append_assoc] at hcond
    have hchain := c.chain_eq hs ht hspaced (Grammar.needs_connective.find?_eq_none (by decide) hend)
    have htaken : takeConditions (subjectOf schema t) ⟨a ++ (whereText (some c) ++ z)⟩ =
        (.ok (chainTerms c.filter), ⟨a ++ (hidden (whereText (some c)) ++ z)⟩) :=
      takeConditions_where hchain hcond ha hz hspaced
    simp only [Interpreter.takeFilter, htaken, Taken.kept_ok, ok_bind,
      Option.toList_none, List.map_nil, List.nil_append, List.append_nil, flattened_chainTerms, filterOf]

/-! ### Words of a chain -/

theorem lacks_of_no_word {ws : List String} {cs : List Char} (h : ∀ c ∈ cs, isWord c = false) : Lacks ws cs := by
  induction cs with
  | nil => exact .nil
  | cons c cs ih =>
    obtain ⟨hc, hcs⟩ := List.forall_mem_cons.mp h
    exact (Lacks.cons_iff hc).mpr (ih hcs)

theorem Numeral.lacks {ws : List String} (n : Numeral) (hws : Lettered ws) : Lacks ws n.digits := by
  refine .of_word n.isWord fun k hk hspelled => ?_
  obtain ⟨hne, hl⟩ := hws k hk
  obtain ⟨d, ds, hd, hdigit⟩ := n.exists_cons
  rw [hd] at hspelled
  generalize k.toList = letters at hspelled hl
  cases hspelled with
  | @cons l _ w _ hsame =>
    have halpha := hl l List.mem_cons_self
    have hlower := isLower_toLower_of_isAlpha halpha
    have hascii := ascii_of_isAsciiDigit hdigit
    have hlong : d.toNat ≠ 0x17f := by omega
    have hkelvin : d.toNat ≠ 0x212a := by omega
    have heq : d.toLower = l.toLower := by simpa [sameLetter, hlong, hkelvin] using hsame
    rw [← heq] at hlower
    have hnot := forall_ascii (P := fun c => isAsciiDigit c = true → c.toLower.isLower = false) (by decide)
      hascii hdigit
    rw [hnot] at hlower
    cases hlower

variable {ws : List String}

theorem Condition.lacks (hs : FreeSchema schema) (ht : t ∈ schema.tables) (c : Condition t) (hws : ws ⊆ reserved)
    (hl : Lettered ws) : Lacks ws c.text := by
  have hsign : Lacks ws c.op.sql.toList := lacks_of_no_word (by cases c.op <;> decide)
  simp only [Condition.text, Lacks.append_space]
  exact ⟨(hs.free_of_mem ht c.column.2).lacks hws, hsign, c.value.lacks hl⟩

theorem lacks_linked (hs : FreeSchema schema) (ht : t ∈ schema.tables) (hws : ws ⊆ reserved) (hl : Lettered ws)
    (hand : ∀ k, Lacks ws (connectiveWord k).toList) (rest : List (Connective × Condition t)) :
    Lacks ws (linked rest) := by
  induction rest with
  | nil => exact .nil
  | cons link rest ih =>
    obtain ⟨k, c⟩ := link
    simp only [linked, Lacks.space_cons, Lacks.append_space]
    exact ⟨hand k, lacks_append_spaced (c.lacks hs ht hws hl) ih (spaced_linked rest)⟩

theorem lacks_whereText (hs : FreeSchema schema) (ht : t ∈ schema.tables) (hws : ws ⊆ reserved) (hl : Lettered ws)
    (hand : ∀ k, Lacks ws (connectiveWord k).toList) (hwhere : Lacks ws "where".toList) (c : Option (Chain t)) :
    Lacks ws (whereText c) := by
  cases c with
  | none => exact .nil
  | some c =>
    simp only [whereText, Lacks.space_cons, Lacks.append_space]
    exact ⟨hwhere, lacks_append_spaced (c.first.lacks hs ht hws hl) (lacks_linked hs ht hws hl hand c.rest)
      (spaced_linked c.rest)⟩

end Parlance.Sentence
