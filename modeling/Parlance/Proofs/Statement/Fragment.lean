import Parlance.Proofs.Pattern.Name
import Parlance.Proofs.Statement.Literals

/-! Fragments of SQL: they begin and end outside string literals, and what they show outside is
harmless. Fragments may be written one behind the other, in parentheses and in lists. -/

namespace Parlance.Statement

open Pattern (IsName isNameChar)
open Text (isDigit)

/-- The quotation marks of every script, the accents that stand for them, and the brackets that
quote names. -/
def quoteMarks : Text.Ranges := [
  (0x22, 0x22), (0x27, 0x27), (0x5b, 0x5b), (0x5d, 0x5d), (0x60, 0x60), (0xab, 0xab), (0xb4, 0xb4),
  (0xbb, 0xbb), (0x2018, 0x201f), (0x2032, 0x2037), (0x2039, 0x203a), (0x275b, 0x2760),
  (0x2e42, 0x2e42), (0x300c, 0x300f), (0x301d, 0x301f), (0xfe41, 0xfe44), (0xff02, 0xff02),
  (0xff07, 0xff07), (0xff40, 0xff40), (0xff62, 0xff63), (0x1f676, 0x1f678)]

def isQuoteMark (c : Char) : Bool := quoteMarks.holds c.toNat

/-- The parentheses left open behind `n` open ones, unless one is closed that was not open. -/
def depthAfter : Nat → List Char → Option Nat
  | n, [] => some n
  | n, c :: cs =>
    if c = '(' then depthAfter (n + 1) cs
    else if c = ')' then
      match n with
      | 0 => none
      | m + 1 => depthAfter m cs
    else depthAfter n cs

/-- Nothing in the text opens another literal, escapes a character, ends the statement or starts a
comment, and its parentheses are balanced. -/
structure Contained (cs : List Char) : Prop where
  marks : ∀ c ∈ cs, isQuoteMark c = false
  escape : '\\' ∉ cs
  terminator : ';' ∉ cs
  lineComment : ¬ "--".toList <:+: cs
  blockComment : ¬ "/*".toList <:+: cs
  balanced : depthAfter 0 cs = some 0

/-- The characters that fragments show. -/
def isPlain (c : Char) : Bool := isNameChar c || isDigit c || " =!<>,()*.-".toList.contains c

/-- No hyphen stands before another one or at the end. -/
def noHyphens : List Char → Bool
  | [] => true
  | [c] => c ≠ '-'
  | c :: d :: cs => !(c = '-' && d = '-') && noHyphens (d :: cs)

/-! ### Characters -/

theorem isPlain_of_isNameChar {c : Char} (h : isNameChar c = true) : isPlain c = true := by
  simp [isPlain, h]

theorem isPlain_of_isDigit {c : Char} (h : isDigit c = true) : isPlain c = true := by
  simp [isPlain, h]

theorem digitRanges_disjoint : ∀ p ∈ Text.digitRanges, 128 ≤ p.1 ∧
    ∀ q ∈ quoteMarks, p.2 < q.1 ∨ q.2 < p.1 := by
  decide

/-- What is plain beyond ASCII. -/
theorem isPlain_cases {c : Char} (h : isPlain c = true) : c.toNat < 128 ∨
    c = Char.ofNat 0x17f ∨ c = Char.ofNat 0x212a ∨ Text.digitRanges.holds c.toNat = true := by
  simp only [isPlain, isDigit, Bool.or_eq_true] at h
  rcases h with (h | h | h) | h
  · rcases Pattern.isNameChar_cases h with h | h | h
    · exact .inl h
    · exact .inr (.inl h)
    · exact .inr (.inr (.inl h))
  · exact .inl (Text.ascii_of_isAsciiDigit h)
  · exact .inr (.inr (.inr h))
  · have hall : ∀ d ∈ " =!<>,()*.-".toList, d.toNat < 128 := by decide
    exact .inl (hall c (List.contains_iff_mem.mp h))

theorem isQuoteMark_of_isPlain {c : Char} (h : isPlain c = true) : isQuoteMark c = false := by
  rcases isPlain_cases h with hc | rfl | rfl | hc
  · exact Text.forall_ascii (P := fun c => isPlain c = true → isQuoteMark c = false)
      (by decide +kernel) hc h
  · decide
  · decide
  · obtain ⟨p, hp, hl, hr⟩ := Text.Ranges.holds_iff.mp hc
    rw [isQuoteMark, Bool.eq_false_iff]
    intro hq
    obtain ⟨q, hq, hql, hqr⟩ := Text.Ranges.holds_iff.mp hq
    rcases (digitRanges_disjoint p hp).2 q hq with hd | hd <;> omega

/-! ### Hyphens and parentheses -/

theorem noHyphens_append {a b : List Char} (ha : noHyphens a = true) (hb : noHyphens b = true) :
    noHyphens (a ++ b) = true := by
  induction a using noHyphens.induct with
  | case1 => exact hb
  | case2 c =>
    cases b with
    | nil => exact ha
    | cons d b =>
      have hc : c ≠ '-' := by simpa [noHyphens] using ha
      simp only [List.singleton_append, noHyphens, Bool.and_eq_true]
      exact ⟨by simp [hc], hb⟩
  | case3 c d cs ih =>
    simp only [noHyphens, Bool.and_eq_true] at ha
    simp only [List.cons_append, noHyphens, Bool.and_eq_true]
    exact ⟨ha.1, ih ha.2⟩

theorem noHyphens_of_not_mem {cs : List Char} (h : '-' ∉ cs) : noHyphens cs = true := by
  induction cs using noHyphens.induct with
  | case1 => rfl
  | case2 c => simpa [noHyphens] using Ne.symm (List.ne_of_not_mem_cons h)
  | case3 c d cs ih =>
    have hc := Ne.symm (List.ne_of_not_mem_cons h)
    simp [noHyphens, hc, ih (List.not_mem_of_not_mem_cons h)]

theorem not_infix_of_noHyphens {cs : List Char} (h : noHyphens cs = true) :
    ¬ "--".toList <:+: cs := by
  rintro ⟨u, v, rfl⟩
  induction u with
  | nil => exact absurd h (by simp [noHyphens])
  | cons c u ih =>
    refine ih ?_
    cases u with
    | nil => exact (Bool.and_eq_true_iff.mp h).2
    | cons d u => exact (Bool.and_eq_true_iff.mp h).2

theorem depthAfter_append (n : Nat) (a b : List Char) :
    depthAfter n (a ++ b) = (depthAfter n a).bind (depthAfter · b) := by
  induction a generalizing n with
  | nil => rfl
  | cons c a ih =>
    simp only [List.cons_append, depthAfter, ih]
    split
    · rfl
    · split
      · cases n <;> rfl
      · rfl

/-- Parentheses that are open already stay open. -/
theorem depthAfter_add {n m : Nat} {cs : List Char} (h : depthAfter n cs = some m) (k : Nat) :
    depthAfter (n + k) cs = some (m + k) := by
  induction cs generalizing n with
  | nil => simpa [depthAfter] using h
  | cons c cs ih =>
    simp only [depthAfter] at h ⊢
    split at h
    · rw [if_pos ‹_›, Nat.add_right_comm]
      exact ih h
    · rw [if_neg ‹_›]
      split at h
      · rw [if_pos ‹_›]
        cases n with
        | zero => cases h
        | succ n =>
          rw [Nat.add_right_comm]
          exact ih h
      · rw [if_neg ‹_›]
        exact ih h

theorem depthAfter_of_not_mem {cs : List Char} (ho : '(' ∉ cs) (hc : ')' ∉ cs) (n : Nat) :
    depthAfter n cs = some n := by
  induction cs with
  | nil => rfl
  | cons c cs ih =>
    have hco : c ≠ '(' := Ne.symm (List.ne_of_not_mem_cons ho)
    have hcc : c ≠ ')' := Ne.symm (List.ne_of_not_mem_cons hc)
    simp only [depthAfter, hco, hcc, if_false]
    exact ih (List.not_mem_of_not_mem_cons ho) (List.not_mem_of_not_mem_cons hc)

/-! ### Fragments -/

structure Fragment (s : String) : Prop where
  closed : inside false s.toList = false
  plain : ∀ c ∈ bare false s.toList, isPlain c = true
  hyphens : noHyphens (bare false s.toList) = true
  depth : depthAfter 0 (bare false s.toList) = some 0

instance (s : String) : Decidable (Fragment s) :=
  decidable_of_iff (inside false s.toList = false ∧ (∀ c ∈ bare false s.toList, isPlain c = true) ∧
    noHyphens (bare false s.toList) = true ∧ depthAfter 0 (bare false s.toList) = some 0)
    ⟨fun ⟨a, b, c, d⟩ => ⟨a, b, c, d⟩, fun ⟨a, b, c, d⟩ => ⟨a, b, c, d⟩⟩

namespace Fragment

variable {a b : String}

theorem empty : Fragment "" := by decide

theorem append (ha : Fragment a) (hb : Fragment b) : Fragment (a ++ b) := by
  have hbare : bare false (a ++ b).toList = bare false a.toList ++ bare false b.toList := by
    rw [String.toList_append, bare_append, ha.closed]
  constructor
  · rw [String.toList_append, inside_append, ha.closed, hb.closed]
  · rw [hbare]
    exact List.forall_mem_append.mpr ⟨ha.plain, hb.plain⟩
  · rw [hbare]
    exact noHyphens_append ha.hyphens hb.hyphens
  · rw [hbare, depthAfter_append, ha.depth]
    exact hb.depth

theorem parenthesized (h : Fragment a) : Fragment ("(" ++ a ++ ")") := by
  have hbare : bare false ("(" ++ a ++ ")").toList = '(' :: (bare false a.toList ++ [')']) := by
    simp only [String.toList_append, bare_append, List.append_assoc]
    rw [show inside false "(".toList = false from rfl, h.closed]
    rfl
  constructor
  · simp only [String.toList_append, inside_append]
    rw [show inside false "(".toList = false from rfl, h.closed]
    rfl
  · rw [hbare]
    refine List.forall_mem_cons.mpr ⟨by decide, List.forall_mem_append.mpr ⟨h.plain, ?_⟩⟩
    decide
  · rw [hbare]
    exact noHyphens_append (a := ['(']) (by decide) (noHyphens_append h.hyphens (by decide))
  · rw [hbare, depthAfter, if_pos rfl, depthAfter_append, depthAfter_add h.depth 1]
    rfl

theorem quoted (h : Within a.toList) : Fragment ("'" ++ a ++ "'") := by
  have hbare : bare false ("'" ++ a ++ "'").toList = [] := by
    simp only [String.toList_append, bare_append, inside_append]
    rw [show inside false "'".toList = true from rfl, h.stays, h.hidden]
    rfl
  constructor
  · simp only [String.toList_append, inside_append]
    rw [show inside false "'".toList = true from rfl, h.stays]
    rfl
  · rw [hbare]
    exact List.forall_mem_nil _
  · rw [hbare]
    rfl
  · rw [hbare]
    rfl

theorem of_plain {s : String} (hp : ∀ c ∈ s.toList, isPlain c = true ∧ c ≠ '(' ∧ c ≠ ')')
    (hh : noHyphens s.toList = true) : Fragment s := by
  have hq : '\'' ∉ s.toList := fun h => Text.ne_of_holds (hp _ h).1 (by decide) rfl
  have hbare : bare false s.toList = s.toList := bare_of_not_mem hq
  constructor
  · exact inside_of_not_mem hq false
  · rw [hbare]
    exact fun c hc => (hp c hc).1
  · rw [hbare, hh]
  · rw [hbare]
    exact depthAfter_of_not_mem (fun h => (hp _ h).2.1 rfl) (fun h => (hp _ h).2.2 rfl) 0

/-- A text of one class of plain characters, without parentheses or hyphens. -/
theorem of_holds {p : Char → Bool} (hplain : ∀ c, p c = true → isPlain c = true)
    (hp : ∀ d ∈ ['(', ')', '-'], p d = false) {s : String} (h : ∀ c ∈ s.toList, p c = true) :
    Fragment s := by
  have hne (c : Char) (hc : c ∈ s.toList) (d : Char) (hd : d ∈ ['(', ')', '-']) : c ≠ d :=
    Text.ne_of_holds (h c hc) (hp d hd)
  refine of_plain (fun c hc => ⟨hplain c (h c hc), ?_, ?_⟩) (noHyphens_of_not_mem fun hm => ?_)
  · exact hne c hc '(' (by decide)
  · exact hne c hc ')' (by decide)
  · exact hne '-' hm '-' (by decide) rfl

theorem of_isName {s : String} (h : IsName s.toList) : Fragment s :=
  of_holds (fun _ => isPlain_of_isNameChar) (by decide) h.isNameChar

theorem of_isDigit {s : String} (h : ∀ c ∈ s.toList, isDigit c = true) : Fragment s :=
  of_holds (fun _ => isPlain_of_isDigit) (by decide) h

theorem intercalate {sep : String} (hs : Fragment sep) {parts : List String}
    (h : ∀ p ∈ parts, Fragment p) : Fragment (sep.intercalate parts) := by
  induction parts with
  | nil =>
    rw [String.intercalate_nil]
    exact empty
  | cons p parts ih =>
    cases parts with
    | nil =>
      rw [String.intercalate_singleton]
      exact h p List.mem_cons_self
    | cons q parts =>
      rw [String.intercalate_cons_cons]
      have hp := h p List.mem_cons_self
      exact (hp.append hs).append (ih fun r hr => h r (List.mem_cons_of_mem p hr))

/-- What a fragment shows outside its literals is harmless. -/
theorem contained {s : String} (h : Fragment s) : Contained (bare false s.toList) where
  marks c hc := isQuoteMark_of_isPlain (h.plain c hc)
  escape hm := Text.ne_of_holds (h.plain _ hm) (by decide) rfl
  terminator hm := Text.ne_of_holds (h.plain _ hm) (by decide) rfl
  lineComment := not_infix_of_noHyphens h.hyphens
  blockComment hi := Text.ne_of_holds (h.plain '/' (hi.subset (by decide))) (by decide) rfl
  balanced := h.depth

end Fragment

end Parlance.Statement
