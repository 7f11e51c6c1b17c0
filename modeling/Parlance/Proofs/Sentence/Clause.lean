import Parlance.Proofs.Sentence.Chain

/-! The clauses behind the filter of a read. Each is taken as a whole, and what is not there is not
found in the clauses that are. -/

namespace Parlance.Sentence

open Pattern Text
open Interpretation

variable {t : Table}

def groupText : Option (ColumnOf t) → List Char
  | none => []
  | some c => ' ' :: ("grouped".toList ++ ' ' :: "by".toList ++ ' ' :: c.1.toList)

def directionWord (descending : Bool) : String := if descending then "desc" else "asc"

/-- A column and a direction, descending or not. -/
def orderText : Option (ColumnOf t × Bool) → List Char
  | none => []
  | some (c, descending) =>
    ' ' :: ("order".toList ++ ' ' :: ("by".toList ++ ' ' :: (c.1.toList ++ ' ' ::
      (directionWord descending).toList)))

/-- Numbers that fit a word of 64 bits. -/
abbrev Limit := {n : Nat // n < Nat.pow 2 64}

/-- The decimal numeral of a number. -/
def numeralOf (n : Nat) : Numeral where
  digits := Nat.toDigits 10 n
  nonempty := Nat.toDigits_ne_nil
  forall_digit c hc := by
    have hdigit := Nat.isDigit_of_mem_toDigits (by decide) (by decide) hc
    simp only [Char.isDigit, Bool.and_eq_true, decide_eq_true_eq] at hdigit
    simp only [isAsciiDigit, Bool.and_eq_true, decide_eq_true_eq]
    exact hdigit

def limitText : Option Limit → List Char
  | none => []
  | some n => ' ' :: ("limit".toList ++ ' ' :: (numeralOf n.1).digits)

theorem spaced_groupText (g : Option (ColumnOf t)) : Spaced (groupText g) := by
  cases g with
  | none => exact .nil
  | some => exact .cons _

theorem spaced_orderText (o : Option (ColumnOf t × Bool)) : Spaced (orderText o) := by
  cases o with
  | none => exact .nil
  | some => exact .cons _

theorem spaced_limitText (l : Option Limit) : Spaced (limitText l) := by
  cases l with
  | none => exact .nil
  | some => exact .cons _

/-! ### Limits -/

theorem readWord64?_numeralOf (n : Limit) : Number.readWord64? (numeralOf n.1).digits = some n.1 := by
  have hall : (numeralOf n.1).digits.all isAsciiDigit = true := List.all_eq_true.mpr (numeralOf n.1).forall_digit
  have hempty : (numeralOf n.1).digits.isEmpty = false := List.isEmpty_eq_false_iff.mpr (numeralOf n.1).nonempty
  have hvalue : Number.ofDigits (numeralOf n.1).digits = n.1 := Nat.ofDigitChars_ten_toDigits
  have hdigits : Number.readDigits? (numeralOf n.1).digits = some n.1 := by
    rw [Number.readDigits?, hall, hempty, hvalue]
    rfl
  have hnat : Number.readNat? (numeralOf n.1).digits = some n.1 := by
    obtain ⟨c, cs, hd, hc⟩ := (numeralOf n.1).exists_cons
    have hplus : c ≠ '+' := ne_of_holds hc (by decide)
    rw [hd] at hdigits ⊢
    unfold Number.readNat?
    split
    · next h => exact absurd (List.cons.inj h).1 hplus
    · exact hdigits
  have hmax : n.1 ≤ Number.maxWord64 := Nat.le_sub_one_of_lt n.2
  simp [Number.readWord64?, hnat, hmax]

theorem prefers_number {u x : List Char} (n : Numeral) (hx : Spaced x) :
    Prefers (seq [gap, group 1 digits, edge]) u (' ' :: n.digits) x [(1, .behind (u ++ [' ']) n.digits)] := by
  have hdigit : ∀ c ∈ n.digits, isDigit c = true := by
    intro c hc
    simp [isDigit, n.forall_digit c hc]
  have hnumber : Prefers (seq [group 1 digits, edge]) (u ++ [' ']) n.digits x [(1, .behind (u ++ [' ']) n.digits)] :=
    .both_nil (Prefers.some1 n.nonempty hdigit (hx.forall_head (by decide))).group
      (.edge_behind n.nonempty n.isWord hx.isWordAt)
  exact .seq_cons (v := [' ']) (.gap_space (n.visible x)) hnumber

theorem prefers_limit {a x : List Char} (n : Numeral) (hx : Spaced x) :
    Prefers Grammar.limit (a ++ [' ']) ("limit".toList ++ ' ' :: n.digits) x
      [(1, .behind (a ++ [' '] ++ "limit".toList ++ [' ']) n.digits)] := by
  have hto : Fails (both gap (word "to")) (a ++ [' '] ++ "limit".toList) (' ' :: (n.digits ++ x)) := by
    exact fails_gap (n.visible x) (fails_of_begins rfl (n.forall_head_append (by decide)))
  have hword : Prefers (oneOf [both (word "limit") (optional (both gap (word "to"))), word "top", word "first"])
      (a ++ [' ']) "limit".toList (' ' :: (n.digits ++ x)) [] :=
    .oneOf_head (.both_nil (.word _) (.optional_absent hto))
  have hedge : Prefers edge (a ++ [' ']) [] ("limit".toList ++ ' ' :: n.digits ++ x) [] := by
    rw [List.append_assoc]
    exact .edge_before (by decide) (by decide)
  exact .seq_nil hedge (.seq_cons hword (prefers_number n hx))

theorem takeLimit_eq (l : Option Limit) {a z : List Char} (ha : Lacks Grammar.limitWords a)
    (hz : Lacks Grammar.limitWords z) (hspaced : Spaced z) :
    takeLimit ⟨a ++ (limitText l ++ z)⟩ = (l.map (·.1), ⟨a ++ (hidden (limitText l) ++ z)⟩) := by
  cases l with
  | none =>
    have hnone := Grammar.keyed_limit.needs.find?_eq_none (by decide) (lacks_append_spaced ha hz hspaced)
    simp only [takeLimit, takeNumber, limitText, List.nil_append, hnone]
    rfl
  | some n =>
    have hfind := Grammar.keyed_limit.find?_eq (by decide) ha (prefers_limit (numeralOf n.1) hspaced)
    have htake := take_segment a ("limit".toList ++ ' ' :: (numeralOf n.1).digits) z
    simp only [takeLimit, takeNumber, limitText, List.cons_append, hfind, Hit.text?_behind, Hit.span_behind]
    simp only [List.lookup_cons_self, Option.map_some, Capture.text_behind, Option.bind_some, readWord64?_numeralOf]
    rw [htake]

theorem takeLatest_eq {cs : List Char} (h : Lacks Grammar.latestWords cs) : takeLatest ⟨cs⟩ = (none, ⟨cs⟩) := by
  simp only [takeLatest, takeNumber, Grammar.keyed_latest.needs.find?_eq_none (by decide) h]

/-! ### Orders -/

/-- The direction of an order, if there is one. -/
def direction : Pattern := optional (both gap (group 2 (phrases ["asc", "ascending", "desc", "descending"])))

theorem directionWord_spec (descending : Bool) : (directionWord descending).toList ≠ [] ∧
    (∀ c ∈ (directionWord descending).toList, isWord c = true) ∧
    startsDescending (directionWord descending).toList = descending := by
  cases descending <;> decide

theorem prefers_direction {u x : List Char} (descending : Bool) :
    Prefers direction u (' ' :: (directionWord descending).toList) x
      [(2, .behind (u ++ [' ']) (directionWord descending).toList)] := by
  have hvisible : ∀ c ∈ ((directionWord descending).toList ++ x).head?, isBlank c = false := by
    cases descending <;> (intro c hc; cases hc; decide)
  have hphrase : Prefers (phrases ["asc", "ascending", "desc", "descending"]) (u ++ [' '])
      (directionWord descending).toList x [] := by
    cases descending with
    | false => exact .oneOf_head (.phrase (by decide))
    | true =>
      have hnot {w : String} (hn : (phrase w).nullable = false) (hb : (phrase w).begins 'd' = false) :
          Fails (phrase w) (u ++ [' ']) ((directionWord true).toList ++ x) := by
        refine fails_of_begins hn fun c hc => ?_
        cases hc
        exact hb
      exact .oneOf_tail (hnot rfl (by decide)) (.oneOf_tail (hnot rfl (by decide))
        (.oneOf_head (.phrase (by decide))))
  exact .optional_present (.both (v := [' ']) (.gap_space hvisible) hphrase.group)

theorem prefers_orderBy {a x : List Char} {c : String} (hc : FreeName c) (descending : Bool) (hx : Spaced x) :
    ∃ u v, Prefers Grammar.orderBy (a ++ [' ']) ("order".toList ++ ' ' :: ("by".toList ++ ' ' :: (c.toList ++ ' ' ::
      (directionWord descending).toList))) x
      [(2, .behind u (directionWord descending).toList), (1, .behind v c.toList)] := by
  obtain ⟨hne, hword, -⟩ := directionWord_spec descending
  have hlast {u : List Char} : Prefers (seq [direction, edge]) u (' ' :: (directionWord descending).toList) x
      [(2, .behind (u ++ [' ']) (directionWord descending).toList)] := by
    have hedge : Prefers edge (u ++ [' '] ++ (directionWord descending).toList) [] x [] :=
      .edge_behind hne hword hx.isWordAt
    rw [List.append_assoc] at hedge
    exact .both_nil (prefers_direction descending) hedge
  have hname {u : List Char} : Prefers (seq [lead ["the"], group 1 name, direction, edge]) u
      (c.toList ++ ' ' :: (directionWord descending).toList) x
      [(2, .behind (u ++ c.toList ++ [' ']) (directionWord descending).toList), (1, .behind u c.toList)] := by
    refine .seq_nil ?_ (.seq_cons (hc.prefers_name (.cons _)).group hlast)
    rw [List.append_assoc]
    exact hc.prefers_lead (by decide) (by decide) (.cons _)
  have hby {u : List Char} : Prefers (seq [gap, word "by", gap, lead ["the"], group 1 name, direction, edge]) u
      (' ' :: ("by".toList ++ ' ' :: (c.toList ++ ' ' :: (directionWord descending).toList))) x
      [(2, .behind (u ++ [' '] ++ "by".toList ++ [' '] ++ c.toList ++ [' ']) (directionWord descending).toList),
        (1, .behind (u ++ [' '] ++ "by".toList ++ [' ']) c.toList)] := by
    have hshown : ∀ d ∈ ("by".toList ++ ' ' :: (c.toList ++ ' ' :: (directionWord descending).toList) ++ x).head?,
        isBlank d = false := by
      intro d hd
      cases hd
      decide
    have hvisible := hc.visible (' ' :: (directionWord descending).toList ++ x)
    rw [← List.append_assoc] at hvisible
    exact .seq_cons (v := [' ']) (.gap_space hshown) (.seq_cons (.word "by")
      (.seq_cons (v := [' ']) (.gap_space hvisible) hname))
  have horder {u y : List Char} : Prefers (oneOf [both (word "order") (optional (word "ed")),
      both (word "sort") (optional (word "ed"))]) u "order".toList (' ' :: y) [] := by
    refine .oneOf_head (.both_nil (.word "order") (.optional_absent (fails_of_begins rfl fun c hc => ?_)))
    cases hc
    decide
  have hedge {y : List Char} : Prefers edge (a ++ [' ']) [] ("order".toList ++ y) [] :=
    .edge_before (by decide) (by decide)
  exact ⟨_, _, .seq_nil (by rw [List.append_assoc]; exact hedge) (.seq_cons horder hby)⟩

theorem takeOrderBy_eq {schema : Schema} (hs : FreeSchema schema) (ht : t ∈ schema.tables) (count : Bool)
    (o : Option (ColumnOf t × Bool)) {a z : List Char} (ha : Lacks Grammar.orderingWords a)
    (hz : Lacks Grammar.orderingWords z) (hspaced : Spaced z) :
    takeOrderBy (subjectOf schema t) count ⟨a ++ (orderText o ++ z)⟩ =
      (.ok (o.map fun o => ⟨o.1.1, o.2⟩), ⟨a ++ (hidden (orderText o) ++ z)⟩) := by
  cases o with
  | none =>
    have hnone := Grammar.keyed_orderBy.needs.find?_eq_none (by decide) (lacks_append_spaced ha hz hspaced)
    simp only [takeOrderBy, orderText, List.nil_append, hnone]
    rfl
  | some o =>
    obtain ⟨c, descending⟩ := o
    have hfree := hs.free_of_mem ht c.2
    obtain ⟨u, v, hprefers⟩ := prefers_orderBy (a := a) hfree descending hspaced
    have hfind := Grammar.keyed_orderBy.find?_eq (by decide) ha hprefers
    have hcolumn : orderColumn (subjectOf schema t) count c.1.toList = .ok c.1 := by
      have hcount : sameWord c.1.toList "count".toList = false := by
        rw [sameWord_comm, hfree.not_sameWord (by decide)]
      rw [orderColumn, hcount, Bool.and_false, if_neg Bool.false_ne_true, hs.resolve_eq ht c.2]
    have hfirst : List.lookup 1 [(2, Capture.behind u (directionWord descending).toList), (1, .behind v c.1.toList)] =
        some (.behind v c.1.toList) := rfl
    have htake := take_segment a ("order".toList ++ ' ' :: ("by".toList ++ ' ' :: (c.1.toList ++ ' ' ::
      (directionWord descending).toList))) z
    simp only [takeOrderBy, orderText, List.cons_append]
    rw [hfind]
    simp only [Hit.text?_behind, Hit.span_behind, hfirst, List.lookup_cons_self, Option.map_some,
      Capture.text_behind, Option.getD_some, hcolumn, Option.any_some, (directionWord_spec descending).2.2]
    rw [htake]

/-! ### Groups -/

/-- What the grouping pattern finds from "by" on. -/
theorem prefers_by {u x : List Char} {c : String} (hc : FreeName c) (hx : Spaced x) :
    ∃ v, Prefers (seq [gap, lead ["the", "each"], group 2 name]) u (' ' :: c.toList) x [(2, .behind v c.toList)] := by
  have hlead : Prefers (lead ["the", "each"]) (u ++ [' ']) [] (c.toList ++ x) [] :=
    hc.prefers_lead (by decide) (by decide) hx
  exact ⟨_, .seq_cons (v := [' ']) (.gap_space (hc.visible x)) (.seq_nil hlead (.seq_last (hc.prefers_name hx).group))⟩

theorem phrase_two {w k l : String} (h : pieces (· = ' ') w.toList = [k.toList, l.toList]) :
    phrase w = seq [word k, gap, word l] := by
  simp [phrase, h, List.intersperse]

theorem prefers_groupedBy {a x : List Char} {c : String} (hc : FreeName c) (hx : Spaced x) : ∃ u v,
    Prefers Grammar.groupBy (a ++ [' ']) ("grouped".toList ++ ' ' :: "by".toList ++ ' ' :: c.toList) x
      [(2, .behind u c.toList), (1, .behind v ("grouped".toList ++ ' ' :: "by".toList))] := by
  have hphrase {y : List Char} : Prefers (phrase "grouped by") (a ++ [' ']) ("grouped".toList ++ ' ' :: "by".toList) y [] := by
    rw [phrase_two (w := "grouped by") (k := "grouped") (l := "by") (by decide)]
    have hshown : ∀ d ∈ ("by".toList ++ y).head?, isBlank d = false := by
      intro d hd
      cases hd
      decide
    exact .seq_cons (.word _) (.seq_cons (v := [' ']) (.gap_space hshown) (.seq_last (.word _)))
  obtain ⟨u, hby⟩ := prefers_by (u := a ++ [' '] ++ ("grouped".toList ++ ' ' :: "by".toList)) hc hx
  have hedge {y : List Char} : Prefers edge (a ++ [' ']) [] ("grouped".toList ++ y) [] :=
    .edge_before (by decide) (by decide)
  refine ⟨u, _, .seq_nil ?_ (.seq_cons (Prefers.oneOf_head hphrase).group hby)⟩
  rw [List.append_assoc, List.append_assoc]
  exact hedge

/-- "by" alone groups as well, so that it is found behind an ordering word. -/
theorem prefers_bareBy {a x : List Char} {c : String} (hc : FreeName c) (hx : Spaced x) : ∃ u v,
    Prefers Grammar.groupBy (a ++ [' ']) ("by".toList ++ ' ' :: c.toList) x
      [(2, .behind u c.toList), (1, .behind v "by".toList)] := by
  have hnot {w : String} {y : List Char} (hn : (phrase w).nullable = false) (hb : (phrase w).begins 'b' = false) :
      Fails (phrase w) (a ++ [' ']) ("by".toList ++ y) := by
    refine fails_of_begins hn fun c hc => ?_
    cases hc
    exact hb
  have hbroken {y : List Char} : Fails (phrase "broken down by") (a ++ [' ']) ("by".toList ++ y) := fun _ => rfl
  have hphrase {y : List Char} : Prefers (phrases ["grouped by", "group by", "broken down by", "per", "by"])
      (a ++ [' ']) "by".toList y [] :=
    .oneOf_tail (hnot rfl (by decide)) (.oneOf_tail (hnot rfl (by decide)) (.oneOf_tail hbroken
      (.oneOf_tail (hnot rfl (by decide)) (.oneOf_head (.phrase (by decide))))))
  obtain ⟨u, hby⟩ := prefers_by (u := a ++ [' '] ++ "by".toList) hc hx
  have hedge {y : List Char} : Prefers edge (a ++ [' ']) [] ("by".toList ++ y) [] :=
    .edge_before (by decide) (by decide)
  refine ⟨u, _, .seq_nil ?_ (.seq_cons hphrase.group hby)⟩
  rw [List.append_assoc]
  exact hedge

theorem isGrouping_grouped (bare : Bool) (cs : List Char) {u w : List Char} {g : Captures}
    (h : (Hit.behind u w g).text? 1 = some ("grouped".toList ++ ' ' :: "by".toList)) :
    isGrouping bare cs (.behind u w g) = true := by
  have hby : lower ("grouped".toList ++ ' ' :: "by".toList) ≠ "by".toList := by decide
  have hper : lower ("grouped".toList ++ ' ' :: "by".toList) ≠ "per".toList := by decide
  simp only [isGrouping, h, Option.getD_some, hby, hper, decide_false, Bool.or_self, Bool.false_and, Bool.not_false,
    Bool.and_self]

theorem wordBefore_size (a v : List Char) {w : List Char} (hne : w ≠ []) (hw : ∀ c ∈ w, isBlank c = false) :
    wordBefore (size (a ++ ' ' :: w ++ [' '])) (a ++ ' ' :: w ++ ' ' :: v) = w := by
  have hwords : words (a ++ ' ' :: w ++ [' ']) = words a ++ [w] := by
    rw [words, List.append_assoc, List.cons_append, pieces_append isBlank_space, pieces_append isBlank_space,
      pieces_of_forall hw]
    simp [words, pieces, hne]
  have htake : takeTo (size (a ++ ' ' :: w ++ [' '])) (a ++ ' ' :: w ++ ' ' :: v) = a ++ ' ' :: w ++ [' '] := by
    have h := takeTo_size_append (a ++ ' ' :: w ++ [' ']) v
    rwa [List.append_assoc _ [' '], List.singleton_append] at h
  rw [wordBefore, htake, hwords, List.getLast?_concat]
  rfl

/-- "by" does not group behind an ordering word. -/
theorem isGrouping_ordered (bare : Bool) (a v : List Char) {w : List Char} {g : Captures}
    (h : (Hit.behind (a ++ ' ' :: "order".toList ++ [' ']) w g).text? 1 = some "by".toList) :
    isGrouping bare (a ++ ' ' :: "order".toList ++ ' ' :: v)
      (.behind (a ++ ' ' :: "order".toList ++ [' ']) w g) = false := by
  have hby : lower "by".toList = "by".toList := by decide
  have hbefore := wordBefore_size a v (w := "order".toList) (by decide) (by decide)
  have horder : Grammar.isOneOf orderWords "order".toList = true := by decide
  simp only [isGrouping, h, Option.getD_some, hby, Hit.span_behind, hbefore, horder, decide_true, Bool.and_self,
    Bool.not_true, Bool.and_false]

variable {schema : Schema} (hs : FreeSchema schema) (ht : t ∈ schema.tables)
include hs ht

theorem takeGroupBy_eq (bare : Bool) (g : Option (ColumnOf t)) (o : Option (ColumnOf t × Bool)) {a z : List Char}
    (ha : Lacks Grammar.groupWords a) (hz : Lacks Grammar.groupWords z) (hspaced : Spaced z) :
    takeGroupBy (subjectOf schema t) bare ⟨a ++ (groupText g ++ (orderText o ++ z))⟩ =
      (.ok (g.map (·.1)), ⟨a ++ (hidden (groupText g) ++ (orderText o ++ z))⟩) := by
  cases g with
  | some c =>
    obtain ⟨u, v, hprefers⟩ := prefers_groupedBy (a := a) (hs.free_of_mem ht c.2) ((spaced_orderText o).append hspaced)
    have hhits := Grammar.keyed_groupBy.hits_eq (by decide) ha hprefers (by simp)
    have htake := take_segment a ("grouped".toList ++ ' ' :: "by".toList ++ ' ' :: c.1.toList) (orderText o ++ z)
    have hgroups (cs : List Char) := isGrouping_grouped bare cs (u := a ++ [' '])
      (w := "grouped".toList ++ ' ' :: "by".toList ++ ' ' :: c.1.toList)
      (g := [(2, .behind u c.1.toList), (1, .behind v ("grouped".toList ++ ' ' :: "by".toList))]) rfl
    simp only [takeGroupBy, groupText, List.cons_append]
    rw [hhits, List.find?_cons_of_pos (hgroups _)]
    simp only [Hit.text?_behind, List.lookup_cons_self, Option.map_some, Capture.text_behind, Option.getD_some,
      hs.resolve_eq ht c.2, Hit.span_behind]
    rw [htake]
  | none =>
    cases o with
    | none =>
      have hnone := Grammar.keyed_groupBy.needs.hits_eq_nil (by decide) (lacks_append_spaced ha hz hspaced)
      simp only [takeGroupBy, groupText, orderText, List.nil_append, hnone, List.find?_nil]
      rfl
    | some o =>
      obtain ⟨c, descending⟩ := o
      have hrest : Spaced (' ' :: (directionWord descending).toList ++ z) := .cons _
      obtain ⟨u, v, hprefers⟩ := prefers_bareBy (a := a ++ ' ' :: "order".toList) (hs.free_of_mem ht c.2) hrest
      have hbefore : Lacks Grammar.groupWords (a ++ ' ' :: "order".toList) :=
        Lacks.append_space.mpr ⟨ha, by decide⟩
      have hbehind : Lacks Grammar.groupWords (' ' :: (directionWord descending).toList ++ z) := by
        refine lacks_append_spaced (Lacks.space_cons.mpr ?_) hz hspaced
        cases descending <;> decide
      have hhits := Grammar.keyed_groupBy.hits_eq (by decide) hbefore hprefers (by simp)
      rw [Grammar.keyed_groupBy.hitsFrom_eq_nil (by decide) hbehind] at hhits
      have hshape : a ++ (orderText (some (c, descending)) ++ z) = a ++ ' ' :: "order".toList ++
          ' ' :: ("by".toList ++ ' ' :: c.1.toList ++ (' ' :: (directionWord descending).toList ++ z)) := by
        simp [orderText]
      have hnot := isGrouping_ordered bare a ("by".toList ++ ' ' :: c.1.toList ++
        (' ' :: (directionWord descending).toList ++ z)) (w := "by".toList ++ ' ' :: c.1.toList)
        (g := [(2, .behind u c.1.toList), (1, .behind v "by".toList)]) rfl
      simp only [takeGroupBy, groupText, List.nil_append, hidden_nil, hshape, hhits]
      rw [List.find?_cons_of_neg (by rw [hnot]; exact Bool.false_ne_true), List.find?_nil]
      rfl

end Parlance.Sentence
