import Parlance.Proofs.Pattern.Name
import Parlance.Proofs.Text.Words
import Parlance.Validation

/-! A pattern holds in a text if it has an end at some place of it. For the pattern of a whole word
this says that the text has the word. -/

namespace Parlance

open Text (size sameWord hasWord isWord isWordAt)

/-- The place behind `u` and before `v`. -/
def Cursor.between (u v : List Char) : Cursor := ⟨u.getLast?, size u, v⟩

theorem Cursor.pass_between (u : List Char) (x : Char) (v : List Char) :
    (between u (x :: v)).pass x v = between (u ++ [x]) v := by
  simp [between, pass, Text.size_append, size]

theorem Cursor.Over.between {u v w : List Char} {d : Cursor} (h : (Cursor.between u v).Over w d) :
    ∃ x, v = w ++ x ∧ d = .between (u ++ w) x := by
  obtain ⟨hrest, hpos, hbefore⟩ := h
  obtain ⟨before, pos, x⟩ := d
  refine ⟨x, hrest, ?_⟩
  simp only [Cursor.between] at hpos hbefore
  subst hpos hbefore
  simp only [Cursor.between, List.getLast?_append, Text.size_append]

namespace Pattern

theorem hitAt?_isSome (p : Pattern) (c : Cursor) : (p.hitAt? c).isSome = !(p.ends c []).isEmpty := by
  rw [hitAt?_eq, Option.isSome_map]
  cases p.ends c [] <;> rfl

theorem findFrom?_isSome_iff (p : Pattern) (u v : List Char) :
    (p.findFrom? 0 (.between u v) v).isSome = true ↔
      ∃ w x, v = w ++ x ∧ p.ends (.between (u ++ w) x) [] ≠ [] := by
  have hat (u v : List Char) : (p.hitAt? (.between u v)).isSome = true ↔ p.ends (.between u v) [] ≠ [] := by
    rw [hitAt?_isSome]
    simp
  constructor
  · intro h
    obtain ⟨hit, hfound⟩ := Option.isSome_iff_exists.mp h
    obtain ⟨w, d, hover, -, hhere⟩ := hitAt?_of_findFrom? rfl hfound
    obtain ⟨x, rfl, rfl⟩ := hover.between
    exact ⟨w, x, rfl, (hat _ _).mp (Option.isSome_of_eq_some hhere)⟩
  · rintro ⟨w, x, rfl, h⟩
    induction w generalizing u with
    | nil =>
      rw [List.append_nil, ← hat] at h
      obtain ⟨hit, hhere⟩ := Option.isSome_iff_exists.mp h
      cases x <;> simp [findFrom?, hhere]
    | cons c w ih =>
      have hrest := ih (u ++ [c]) (by simpa using h)
      rw [← Cursor.pass_between] at hrest
      simp only [List.cons_append, findFrom?, Nat.zero_le, if_true]
      split
      · rfl
      · exact hrest

theorem holds_iff (p : Pattern) (cs : List Char) :
    p.holds cs = true ↔ ∃ u v, cs = u ++ v ∧ p.ends (.between u v) [] ≠ [] :=
  p.findFrom?_isSome_iff [] cs

theorem ends_seq_cons (p : Pattern) (ps : List Pattern) (c : Cursor) (g : Captures) :
    (seq (p :: ps)).ends c g = (p.ends c g).flatMap fun e => (seq ps).ends e.1 e.2 := by
  cases ps with
  | nil => simp [seq, ends]
  | cons q qs => rfl

/-- The letters of a word, each in either case. -/
inductive Spelled : List Char → List Char → Prop
  | nil : Spelled [] []
  | cons {l c : Char} {w m : List Char} (hc : sameLetter l c = true) (hm : Spelled w m) :
      Spelled (l :: w) (c :: m)

theorem mem_ends_letters {w u v : List Char} {g : Captures} {e : Cursor × Captures} :
    e ∈ (seq (w.map fun l => one (sameLetter l))).ends (.between u v) g ↔
      ∃ m x, v = m ++ x ∧ Spelled w m ∧ e = (.between (u ++ m) x, g) := by
  induction w generalizing u v with
  | nil =>
    simp only [List.map_nil, seq, ends, List.mem_singleton]
    constructor
    · rintro rfl
      exact ⟨[], v, rfl, .nil, by simp⟩
    · rintro ⟨m, x, rfl, hm, rfl⟩
      cases hm
      simp
  | cons l w ih =>
    rw [List.map_cons, ends_seq_cons]
    cases v with
    | nil =>
      refine iff_of_false (by simp [ends, Cursor.between]) ?_
      rintro ⟨m, x, hv, hm, -⟩
      obtain ⟨rfl, -⟩ := List.nil_eq_append_iff.mp hv
      cases hm
    | cons c v =>
      have hrest : (Cursor.between u (c :: v)).rest = c :: v := rfl
      simp only [ends, hrest]
      cases hc : sameLetter l c with
      | false =>
        refine iff_of_false (by simp) ?_
        rintro ⟨m, x, hv, hm, -⟩
        cases hm with
        | cons h _ =>
          obtain ⟨rfl, -⟩ := List.cons.inj hv
          rw [hc] at h
          cases h
      | true =>
        simp only [if_true, List.flatMap_cons, List.flatMap_nil, List.append_nil,
          Cursor.pass_between, ih]
        constructor
        · rintro ⟨m, x, rfl, hm, rfl⟩
          exact ⟨c :: m, x, rfl, .cons hc hm, by simp⟩
        · rintro ⟨m, x, hv, hm, rfl⟩
          cases hm with
          | cons hd hm =>
            obtain ⟨rfl, rfl⟩ := List.cons.inj hv
            exact ⟨_, x, rfl, hm, by simp⟩

/-- The letters that nothing beyond ASCII resembles. -/
def isCommon (l : Char) : Bool := l.isAlpha && l.toLower ≠ 's' && l.toLower ≠ 'k'

theorem spelled_iff {w m : List Char} (hw : ∀ l ∈ w, isCommon l = true) :
    Spelled w m ↔ m.map Char.toLower = w.map Char.toLower := by
  induction w generalizing m with
  | nil =>
    cases m with
    | nil => exact iff_of_true .nil rfl
    | cons c m => exact iff_of_false (fun h => nomatch h) (by simp)
  | cons l w ih =>
    obtain ⟨hl, hw⟩ := List.forall_mem_cons.mp hw
    simp only [isCommon, Bool.and_eq_true, decide_eq_true_eq] at hl
    cases m with
    | nil => exact iff_of_false (fun h => nomatch h) (by simp)
    | cons c m =>
      have hc : sameLetter l c = true ↔ c.toLower = l.toLower := by
        simp [sameLetter, hl.1.2, hl.2]
      rw [List.map_cons, List.map_cons, List.cons.injEq, ← hc, ← ih hw]
      constructor
      · intro h
        cases h with
        | cons hc hm => exact ⟨hc, hm⟩
      · rintro ⟨hc, hm⟩
        exact .cons hc hm

theorem isWord_of_isLower_toLower {c : Char} (h : c.toLower.isLower = true) : isWord c = true := by
  by_cases hc : c.toNat < 128
  · exact Text.forall_ascii (P := fun c => c.toLower.isLower = true → isWord c = true)
      (by decide) hc h
  · rw [Text.toLower_of_not_ascii (by omega)] at h
    exact absurd (Text.ascii_of_isLower h) hc

theorem isLower_toLower_of_isAlpha {l : Char} (h : l.isAlpha = true) : l.toLower.isLower = true :=
  Text.forall_ascii (P := fun l => l.isAlpha = true → l.toLower.isLower = true)
    (by decide) (Text.ascii_of_isAlpha h) h

theorem isWord_of_spelled {w m : List Char} (hw : ∀ l ∈ w, isCommon l = true)
    (h : m.map Char.toLower = w.map Char.toLower) : ∀ c ∈ m, isWord c = true := by
  intro c hc
  have hm : c.toLower ∈ w.map Char.toLower := h ▸ List.mem_map_of_mem hc
  obtain ⟨l, hl, he⟩ := List.mem_map.mp hm
  have ha := hw l hl
  simp only [isCommon, Bool.and_eq_true] at ha
  apply isWord_of_isLower_toLower
  rw [← he]
  exact isLower_toLower_of_isAlpha ha.1.1

end Pattern

open Pattern

/-- A word character on one side is an edge if there is none on the other. -/
theorem Cursor.atEdge_before {u m x : List Char} (hm : m ≠ []) (hw : ∀ c ∈ m, isWord c = true) :
    (Cursor.between u (m ++ x)).atEdge = !isWordAt u.getLast? := by
  obtain ⟨c, m, rfl⟩ := List.exists_cons_of_ne_nil hm
  have hc : isWordAt (c :: m ++ x).head? = true := by simp [isWordAt, hw c List.mem_cons_self]
  simp only [atEdge, between, hc]
  cases isWordAt u.getLast? <;> rfl

theorem Cursor.atEdge_behind {u m x : List Char} (hm : m ≠ []) (hw : ∀ c ∈ m, isWord c = true) :
    (Cursor.between (u ++ m) x).atEdge = !isWordAt x.head? := by
  have hl : isWordAt (u ++ m).getLast? = true := by
    rw [List.getLast?_append, List.getLast?_eq_some_getLast hm]
    exact hw _ (List.getLast_mem hm)
  simp only [atEdge, between, hl]
  cases isWordAt x.head? <;> rfl

namespace Pattern

theorem mem_ends_between_edges {w : String} {u v : List Char} {g : Captures} {e : Cursor × Captures} :
    e ∈ (seq [edge, word w, edge]).ends (.between u v) g ↔ (Cursor.between u v).atEdge = true ∧
      ∃ m x, v = m ++ x ∧ Spelled w.toList m ∧ (Cursor.between (u ++ m) x).atEdge = true ∧
        e = (.between (u ++ m) x, g) := by
  have hedge (c : Cursor) (g : Captures) (e : Cursor × Captures) :
      e ∈ edge.ends c g ↔ c.atEdge = true ∧ e = (c, g) := by
    simp only [ends]
    split <;> simp [*]
  have hlast (c : Cursor) (g : Captures) : (seq [edge]).ends c g = edge.ends c g := rfl
  simp only [ends_seq_cons edge [word w, edge], List.mem_flatMap, hedge]
  constructor
  · rintro ⟨_, ⟨hu, rfl⟩, he⟩
    rw [ends_seq_cons, List.mem_flatMap] at he
    obtain ⟨_, hmiddle, he⟩ := he
    obtain ⟨m, x, rfl, hm, rfl⟩ := mem_ends_letters.mp hmiddle
    rw [hlast, hedge] at he
    exact ⟨hu, m, x, rfl, hm, he.1, he.2⟩
  · rintro ⟨hu, m, x, rfl, hm, hx, rfl⟩
    refine ⟨_, ⟨hu, rfl⟩, ?_⟩
    rw [ends_seq_cons, List.mem_flatMap]
    refine ⟨_, mem_ends_letters.mpr ⟨m, x, rfl, hm, rfl⟩, ?_⟩
    rw [hlast, hedge]
    exact ⟨hx, rfl⟩

end Pattern

theorem Validation.holds_wholeWord {w : String} (hne : w.toList ≠ [])
    (hw : ∀ l ∈ w.toList, isCommon l = true) (cs : List Char) :
    (wholeWord w).holds cs = hasWord w cs := by
  have hphrase : phrase w = word w := by
    have hspace : ∀ l ∈ w.toList, decide (l = ' ') = false := by
      intro l hl
      refine decide_eq_false ?_
      rintro rfl
      exact absurd (hw _ hl) (by decide)
    simp [phrase, Text.pieces_of_forall hspace, seq]
  have hsame (m : List Char) : Spelled w.toList m ↔ sameWord m w.toList = true := by
    rw [spelled_iff hw]
    simp [sameWord, Text.asciiLower]
  have hword {m : List Char} (h : Spelled w.toList m) : m ≠ [] ∧ ∀ c ∈ m, isWord c = true := by
    refine ⟨?_, isWord_of_spelled hw ((spelled_iff hw).mp h)⟩
    rintro rfl
    cases hl : w.toList with
    | nil => exact hne hl
    | cons l ls =>
      rw [hl] at h
      cases h
  rw [Bool.eq_iff_iff, holds_iff, Text.hasWord_iff, wholeWord, hphrase]
  constructor
  · rintro ⟨u, v, rfl, h⟩
    obtain ⟨e, he⟩ := List.exists_mem_of_ne_nil _ h
    obtain ⟨hu, m, x, rfl, hm, hx, -⟩ := mem_ends_between_edges.mp he
    obtain ⟨hmne, hmw⟩ := hword hm
    rw [Cursor.atEdge_before hmne hmw] at hu
    rw [Cursor.atEdge_behind hmne hmw] at hx
    exact ⟨m, u, x, by simp, (hsame m).mp hm, hmw, by simpa using hu, by simpa using hx⟩
  · rintro ⟨m, u, x, rfl, hm, hmw, hu, hx⟩
    have hs := (hsame m).mpr hm
    have hmne := (hword hs).1
    refine ⟨u, m ++ x, by simp, List.ne_nil_of_mem (mem_ends_between_edges.mpr ⟨?_, m, x, rfl, hs, ?_, rfl⟩)⟩
    · rw [Cursor.atEdge_before hmne hmw, hu]
      rfl
    · rw [Cursor.atEdge_behind hmne hmw, hx]
      rfl

theorem Validation.holds_whereClause (cs : List Char) : whereClause.holds cs = hasWord "where" cs :=
  holds_wholeWord (by decide) (by decide) cs

end Parlance
