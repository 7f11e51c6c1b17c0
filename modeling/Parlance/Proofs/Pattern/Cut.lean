import Parlance.Proofs.Pattern.Preferred

/-! A character that a pattern cannot run over, and that is no part of a word, cuts a text in two: the
hits are those before the character and those behind it, and neither side sees the other. -/

namespace Parlance

open Text (Span size isWord isWordAt)

/-! ### A text within another one -/

/-- The same place with `a` before the text and `z` behind it. -/
def Cursor.within (a z : List Char) (c : Cursor) : Cursor :=
  ⟨c.before.or a.getLast?, size a + c.pos, c.rest ++ z⟩

theorem Cursor.within_between (a u v z : List Char) :
    (between u v).within a z = between (a ++ u) (v ++ z) := by
  rw [within, between, between, List.getLast?_append, Text.size_append]

def Capture.shift (n : Nat) (c : Capture) : Capture := ⟨c.span.shift n, c.text⟩

def Captures.shift (n : Nat) (g : Captures) : Captures := g.map fun e => (e.1, e.2.shift n)

theorem Captures.lookup_shift (n k : Nat) (g : Captures) :
    (Captures.shift n g).lookup k = (g.lookup k).map (Capture.shift n) := by
  induction g with
  | nil => rfl
  | cons e g ih =>
    rw [Captures.shift, List.map_cons, List.lookup_cons, List.lookup_cons]
    cases k == e.1 with
    | true => rfl
    | false => exact ih

theorem Cursor.captureTo_within (a z : List Char) (c d : Cursor) :
    (c.within a z).captureTo (d.within a z) = (c.captureTo d).shift (size a) := by
  have hlength : (c.rest ++ z).length - (d.rest ++ z).length = c.rest.length - d.rest.length := by
    rw [List.length_append, List.length_append, Nat.add_sub_add_right]
  simp only [captureTo, within, Capture.shift, Span.shift, hlength]
  rw [List.take_append_of_le_length (Nat.sub_le _ _)]

namespace Pattern

/-- No class of the pattern holds the character, and the pattern does not ask for the start. -/
def rejects (q : Char) : Pattern → Bool
  | .empty | .edge => true
  | .one f | .many f => !f q
  | .both a b | .either a b => a.rejects q && b.rejects q
  | .group _ a => a.rejects q
  | .start => false

def Hit.shift (n : Nat) (h : Hit) : Hit := ⟨h.span.shift n, h.text, h.captures.shift n⟩

theorem Hit.text?_shift (n k : Nat) (h : Hit) : (h.shift n).text? k = h.text? k := by
  rw [Hit.text?, Hit.capture?, Hit.shift, Captures.lookup_shift, Option.map_map]
  rfl

section Within

variable {p : Pattern} {q : Char} {a z : List Char} (hq : isWord q = false) (ha : isWordAt a.getLast? = false)
  (hz : ∀ c ∈ z.head?, c = q)

theorem runEnds_within {f : Char → Bool} (hf : f q = false) (hz : ∀ c ∈ z.head?, c = q) (a cs : List Char) (c : Cursor) :
    runEnds.go f (c.within a z) (cs ++ z) = (runEnds.go f c cs).map (·.within a z) := by
  induction cs generalizing c with
  | nil =>
    cases z with
    | nil => rfl
    | cons d z =>
      obtain rfl := hz d rfl
      simp only [List.nil_append, runEnds.go, hf, Bool.false_eq_true, if_false, List.map_cons, List.map_nil]
  | cons x cs ih =>
    have hpass : (c.within a z).pass x (cs ++ z) = (c.pass x cs).within a z := by
      simp only [Cursor.pass, Cursor.within, Option.some_or, Nat.add_assoc]
    rw [List.cons_append, runEnds.go, runEnds.go, hpass, ih]
    split <;> simp

include hq ha hz

theorem atEdge_within (c : Cursor) : (c.within a z).atEdge = c.atEdge := by
  obtain ⟨before, pos, rest⟩ := c
  have hbefore : isWordAt (before.or a.getLast?) = isWordAt before := by
    cases before with
    | none => exact ha
    | some => rfl
  have hrest : isWordAt (rest ++ z).head? = isWordAt rest.head? := by
    cases rest with
    | cons => rfl
    | nil =>
      cases z with
      | nil => rfl
      | cons d z =>
        obtain rfl := hz d rfl
        exact hq
  simp only [Cursor.atEdge, Cursor.within, hbefore, hrest]

/-- The ends of a pattern do not depend on what stands around the text. -/
theorem ends_within (hp : p.rejects q = true) (c : Cursor) (g : Captures) :
    p.ends (c.within a z) (g.shift (size a)) =
      (p.ends c g).map fun e => (e.1.within a z, e.2.shift (size a)) := by
  induction p generalizing c g with
  | empty => rfl
  | one f =>
    have hf : f q = false := by simpa [rejects] using hp
    obtain ⟨before, pos, rest⟩ := c
    cases rest with
    | nil =>
      cases z with
      | nil => rfl
      | cons d z =>
        obtain rfl := hz d rfl
        simp [ends, Cursor.within, hf]
    | cons x rest =>
      simp only [ends, Cursor.within, List.cons_append]
      split
      · simp only [List.map_cons, List.map_nil, Cursor.pass, Option.some_or, Nat.add_assoc]
      · rfl
  | many f =>
    have hf : f q = false := by simpa [rejects] using hp
    have hruns := runEnds_within hf hz a c.rest c
    simp only [ends, runEnds, List.map_map]
    rw [show (c.within a z).rest = c.rest ++ z from rfl, hruns, List.map_map]
    rfl
  | both p₁ p₂ ih₁ ih₂ =>
    obtain ⟨h₁, h₂⟩ := (Bool.and_eq_true ..).mp hp
    simp only [ends, ih₁ h₁, List.flatMap_map, ih₂ h₂, List.map_flatMap]
  | either p₁ p₂ ih₁ ih₂ =>
    obtain ⟨h₁, h₂⟩ := (Bool.and_eq_true ..).mp hp
    simp only [ends, ih₁ h₁, ih₂ h₂, List.map_append]
  | group n p ih =>
    simp only [ends, ih hp, List.map_map, Function.comp_def, Cursor.captureTo_within]
    rfl
  | start => cases hp
  | edge =>
    simp only [ends, atEdge_within hq ha hz c]
    split <;> rfl

theorem hitAt?_within (hp : p.rejects q = true) (c : Cursor) :
    p.hitAt? (c.within a z) = (p.hitAt? c).map (Hit.shift (size a)) := by
  have hends := ends_within hq ha hz hp c []
  rw [show Captures.shift (size a) [] = [] from rfl] at hends
  rw [hitAt?_eq, hitAt?_eq, hends, List.head?_map, Option.map_map, Option.map_map]
  refine Option.map_congr fun e _ => ?_
  simp only [Function.comp_apply, Cursor.captureTo_within]
  rfl

end Within

@[simp] theorem Hit.shift_zero (h : Hit) : h.shift 0 = h := by
  have hspan (s : Span) : s.shift 0 = s := by simp [Span.shift]
  have hcaptures : Captures.shift 0 h.captures = h.captures := by
    have hid : h.captures.map (fun e => (e.1, e.2.shift 0)) = h.captures.map id :=
      List.map_congr_left fun e _ => by simp [Capture.shift, hspan]
    rw [Captures.shift, hid, List.map_id]
  rw [Hit.shift, hspan, hcaptures]

/-! ### Hits on both sides -/

theorem hitsFrom_between_nil (p : Pattern) (low : Nat) (u : List Char) :
    p.hitsFrom low (.between u []) [] = (if low ≤ size u then p.hitAt? (.between u []) else none).toList := rfl

theorem stop_le_of_hitAt? {p : Pattern} {u v : List Char} {h : Hit} (hh : p.hitAt? (.between u v) = some h) :
    h.span.stop ≤ size (u ++ v) := by
  obtain ⟨d, hruns, hspan⟩ := runs_of_hitAt? hh
  obtain ⟨x, rfl, rfl⟩ := hruns.toOver.between
  rw [hspan, ← List.append_assoc, Text.size_append (u ++ h.text)]
  exact Nat.le_add_right _ _

/-- Once scanning is past them, it does not matter which places are left out. -/
theorem hitsFrom_low {p : Pattern} {low low' : Nat} {u v : List Char} (h : low ≤ size u) (h' : low' ≤ size u) :
    p.hitsFrom low (.between u v) v = p.hitsFrom low' (.between u v) v := by
  induction v generalizing u with
  | nil =>
    rw [hitsFrom, hitsFrom, if_pos (show low ≤ (Cursor.between u []).pos from h),
      if_pos (show low' ≤ (Cursor.between u []).pos from h')]
  | cons c v ih =>
    have hle : size u ≤ size (u ++ [c]) := by rw [Text.size_append]; omega
    rw [hitsFrom_between_cons, hitsFrom_between_cons, if_pos h, if_pos h', ih (Nat.le_trans h hle) (Nat.le_trans h' hle)]

section Cut

variable {p : Pattern} {q : Char} (hp : p.rejects q = true) (hq : isWord q = false)
include hp hq

/-- What stands before the text only shifts its hits. -/
theorem hitsFrom_behind {a : List Char} (ha : isWordAt a.getLast? = false) (v : List Char) :
    ∀ (low : Nat) (u : List Char), p.hitsFrom (size a + low) (.between (a ++ u) v) v =
      (p.hitsFrom low (.between u v) v).map (Hit.shift (size a)) := by
  have hit (low : Nat) (u v : List Char) :
      (if size a + low ≤ size (a ++ u) then p.hitAt? (.between (a ++ u) v) else none) =
        (if low ≤ size u then p.hitAt? (.between u v) else none).map (Hit.shift (size a)) := by
    have h := hitAt?_within (z := []) hq ha (fun c hc => nomatch hc) hp (.between u v)
    rw [Cursor.within_between, List.append_nil] at h
    simp only [h, Text.size_append, Nat.add_le_add_iff_left]
    split <;> rfl
  induction v with
  | nil =>
    intro low u
    rw [hitsFrom_between_nil, hitsFrom_between_nil, hit]
    cases (if low ≤ size u then p.hitAt? (.between u []) else none) <;> rfl
  | cons c v ih =>
    intro low u
    rw [hitsFrom_between_cons, hitsFrom_between_cons, hit, List.append_assoc]
    cases (if low ≤ size u then p.hitAt? (.between u (c :: v)) else none) with
    | some h =>
      have hrest := ih h.span.stop (u ++ [c])
      simp only [Option.map_some, List.map_cons]
      exact congrArg _ hrest
    | none => exact ih low (u ++ [c])

/-- A hit before the character does not reach it, and scanning goes on behind it. -/
theorem hitsFrom_before (b v : List Char) : ∀ (low : Nat) (u : List Char), low ≤ size (u ++ v) →
    ∃ low' ≤ size (u ++ v), p.hitsFrom low (.between u (v ++ q :: b)) (v ++ q :: b) =
      p.hitsFrom low (.between u v) v ++ p.hitsFrom low' (.between (u ++ v ++ [q]) b) b := by
  have hit (u v : List Char) : p.hitAt? (.between u (v ++ q :: b)) = p.hitAt? (.between u v) := by
    have h := hitAt?_within (a := []) (z := q :: b) hq rfl (fun c hc => by cases hc; rfl) hp (.between u v)
    rw [Cursor.within_between, List.nil_append] at h
    rw [h]
    cases p.hitAt? (.between u v) with
    | none => rfl
    | some h => exact congrArg some h.shift_zero
  induction v with
  | nil =>
    intro low u hlow
    have hend := hit u []
    rw [List.nil_append] at hend
    rw [List.append_nil] at hlow ⊢
    rw [List.nil_append, hitsFrom_between_cons, hitsFrom_between_nil, if_pos hlow, if_pos hlow, hend]
    cases hh : p.hitAt? (.between u []) with
    | some h =>
      have hstop := stop_le_of_hitAt? hh
      rw [List.append_nil] at hstop
      exact ⟨h.span.stop, hstop, rfl⟩
    | none => exact ⟨low, hlow, rfl⟩
  | cons c v ih =>
    intro low u hlow
    have hmid : u ++ c :: v = u ++ [c] ++ v := by simp
    have hc := hit u (c :: v)
    rw [List.cons_append] at hc
    rw [List.cons_append, hitsFrom_between_cons, hitsFrom_between_cons, hc, hmid]
    rw [hmid] at hlow
    cases hh : (if low ≤ size u then p.hitAt? (.between u (c :: v)) else none) with
    | some h =>
      have hstop : h.span.stop ≤ size (u ++ [c] ++ v) := by
        rw [← hmid]
        split at hh
        · exact stop_le_of_hitAt? hh
        · cases hh
      obtain ⟨low', hlow', hrest⟩ := ih h.span.stop (u ++ [c]) hstop
      exact ⟨low', hlow', congrArg (h :: ·) hrest⟩
    | none => exact ih low (u ++ [c]) hlow

/-- The character cuts the text in two. -/
theorem hits_cut (a b : List Char) :
    p.hits (a ++ q :: b) = p.hits a ++ (p.hits b).map (Hit.shift (size (a ++ [q]))) := by
  obtain ⟨low, hlow, hbefore⟩ := hitsFrom_before hp hq b a 0 [] (Nat.zero_le _)
  have hend : isWordAt (a ++ [q]).getLast? = false := by
    rw [List.getLast?_concat]
    exact hq
  have hle : low ≤ size (a ++ [q]) := by
    rw [List.nil_append] at hlow
    rw [Text.size_append]
    omega
  have hbehind := hitsFrom_behind hp hq hend b 0 []
  rw [List.append_nil, Nat.add_zero] at hbehind
  rw [List.nil_append, hitsFrom_low hle (Nat.le_refl _), hbehind] at hbefore
  exact hbefore

end Cut

/-- The first hit is the one that a search finds. -/
theorem find?_eq_head? (p : Pattern) (cs : List Char) : p.find? cs = (p.hits cs).head? := by
  suffices ∀ (low : Nat) (c : Cursor), p.findFrom? low c cs = (p.hitsFrom low c cs).head? from this 0 (.ofText cs)
  induction cs with
  | nil =>
    intro low c
    rw [findFrom?, hitsFrom]
    cases (if low ≤ c.pos then p.hitAt? c else none) <;> rfl
  | cons x xs ih =>
    intro low c
    rw [findFrom?, hitsFrom]
    cases (if low ≤ c.pos then p.hitAt? c else none) with
    | some h => rfl
    | none => exact ih low (c.pass x xs)

end Pattern
end Parlance
