import Parlance.Proofs.Pattern.WholeWord

/-! What a pattern can run over, seen with the text before and behind it. A pattern fails where there
is nothing it can run over; this is how a search is shown to pass over a place. -/

namespace Parlance

open Text (isBlank isWord isWordAt)

namespace Pattern

/-- Behind `u` and before `x` the pattern can run over `w`. -/
inductive Matches : Pattern → List Char → List Char → List Char → Prop
  | empty {u x : List Char} : Matches .empty u [] x
  | one {f : Char → Bool} {c : Char} {u x : List Char} (h : f c = true) : Matches (.one f) u [c] x
  | many {f : Char → Bool} {u w x : List Char} (h : ∀ c ∈ w, f c = true) : Matches (.many f) u w x
  | both {a b : Pattern} {u v w x : List Char} (ha : Matches a u v (w ++ x)) (hb : Matches b (u ++ v) w x) :
      Matches (.both a b) u (v ++ w) x
  | left {a b : Pattern} {u w x : List Char} (h : Matches a u w x) : Matches (.either a b) u w x
  | right {a b : Pattern} {u w x : List Char} (h : Matches b u w x) : Matches (.either a b) u w x
  | group {n : Nat} {a : Pattern} {u w x : List Char} (h : Matches a u w x) : Matches (.group n a) u w x
  | start {x : List Char} : Matches .start [] [] x
  | edge {u x : List Char} (h : (Cursor.between u x).atEdge = true) : Matches .edge u [] x

theorem Runs.matches {p : Pattern} {c d : Cursor} {w u x : List Char} {new : Captures} (h : p.Runs c w d new)
    (hc : c = .between u (w ++ x)) : Matches p u w x := by
  induction h generalizing u x with
  | empty => exact .empty
  | one _ hx => exact .one hx
  | many _ hf => exact .many hf
  | both ha _ iha ihb =>
    rw [List.append_assoc] at hc
    obtain ⟨y, hy, hd⟩ := (hc ▸ ha.toOver).between
    obtain rfl := List.append_cancel_left hy
    exact .both (iha hc) (ihb hd)
  | left _ ih => exact .left (ih hc)
  | right _ ih => exact .right (ih hc)
  | group _ ih => exact .group (ih hc)
  | start hpos =>
    subst hc
    cases u with
    | nil => exact .start
    | cons c u =>
      have hsize := c.utf8Size_pos
      simp only [Cursor.between, Text.size] at hpos
      omega
  | edge hedge =>
    subst hc
    exact .edge hedge

theorem matches_of_mem_ends {p : Pattern} {u v : List Char} {e : Cursor × Captures} {g : Captures}
    (h : e ∈ p.ends (.between u v) g) :
    ∃ w x, v = w ++ x ∧ e.1 = .between (u ++ w) x ∧ Matches p u w x := by
  obtain ⟨w, new, hruns, -⟩ := runs_of_mem_ends h
  obtain ⟨x, rfl, he⟩ := hruns.toOver.between
  exact ⟨w, x, rfl, he, hruns.matches rfl⟩

theorem Matches.spells {p : Pattern} {u w x : List Char} (h : Matches p u w x) : p.Spells w := by
  induction h with
  | empty => exact .empty
  | one h => exact .one h
  | many h => exact .many h
  | both _ _ iha ihb => exact .both iha ihb
  | left _ ih => exact .left ih
  | right _ ih => exact .right ih
  | group _ ih => exact .group ih
  | start => exact .start
  | edge => exact .edge

/-! ### Failing -/

/-- Between `u` and `v` the pattern has no end. -/
def Fails (p : Pattern) (u v : List Char) : Prop := ∀ g, p.ends (.between u v) g = []

theorem ends_oneOf_cons (p : Pattern) (ps : List Pattern) (c : Cursor) (g : Captures) :
    (oneOf (p :: ps)).ends c g = p.ends c g ++ (oneOf ps).ends c g := by
  cases ps with
  | cons q qs => rfl
  | nil =>
    have hnone : (oneOf []).ends c g = [] := by
      simp only [oneOf, ends]
      split <;> simp
    rw [hnone, List.append_nil]
    rfl

section Fails

variable {p q : Pattern} {ps : List Pattern} {u v : List Char}

theorem fails_of_matches (h : ∀ w x, v = w ++ x → ¬Matches p u w x) : Fails p u v := by
  intro g
  refine List.eq_nil_iff_forall_not_mem.mpr fun e he => ?_
  obtain ⟨w, x, hv, -, hm⟩ := matches_of_mem_ends he
  exact h w x hv hm

theorem fails_one {f : Char → Bool} {c : Char} (h : f c = false) : Fails (.one f) u (c :: v) := by
  refine fails_of_matches fun w x hv hm => ?_
  cases hm with
  | one hc =>
    obtain ⟨rfl, -⟩ := List.cons.inj hv
    rw [h] at hc
    cases hc

theorem Fails.both (h : Fails p u v) : Fails (.both p q) u v := by
  intro g
  rw [ends, h g, List.flatMap_nil]

/-- Two patterns in a row fail if the second one fails behind all that the first can run over. -/
theorem fails_both (h : ∀ w x, v = w ++ x → Matches p u w x → Fails q (u ++ w) x) :
    Fails (.both p q) u v := by
  intro g
  rw [ends, List.flatMap_eq_nil_iff]
  intro e he
  obtain ⟨w, x, hv, hcursor, hm⟩ := matches_of_mem_ends he
  rw [hcursor, h w x hv hm]

theorem Fails.oneOf (h : ∀ p ∈ ps, Fails p u v) : Fails (oneOf ps) u v := by
  induction ps with
  | nil =>
    intro g
    simp only [Pattern.oneOf, ends]
    split <;> simp
  | cons p ps ih =>
    obtain ⟨hp, hps⟩ := List.forall_mem_cons.mp h
    intro g
    rw [ends_oneOf_cons, hp g, ih hps g, List.append_nil]

theorem fails_start (hu : u ≠ []) : Fails .start u v := by
  refine fails_of_matches fun w x _ hm => ?_
  cases hm
  contradiction

theorem fails_behind_start (h : Fails q [] v) : Fails (.both start q) [] v := by
  refine fails_both fun w x hv hm => ?_
  cases hm
  subst hv
  exact h

def nullable : Pattern → Bool
  | .empty | .many _ | .start | .edge => true
  | .one _ => false
  | .both a b => a.nullable && b.nullable
  | .either a b => a.nullable || b.nullable
  | .group _ a => a.nullable

/-- A text of the pattern may begin with the character. -/
def begins (c : Char) : Pattern → Bool
  | .one f | .many f => f c
  | .both a b => a.begins c || (a.nullable && b.begins c)
  | .either a b => a.begins c || b.begins c
  | .group _ a => a.begins c
  | .empty | .start | .edge => false

theorem Spells.nullable_or_begins {w : List Char} (h : p.Spells w) :
    (w = [] → p.nullable = true) ∧ ∀ c ∈ w.head?, p.begins c = true := by
  induction h with
  | empty | start | edge => exact ⟨fun _ => rfl, fun c hc => nomatch hc⟩
  | one hc =>
    refine ⟨fun h => (nomatch h), fun d hd => ?_⟩
    cases hd
    exact hc
  | many hw => exact ⟨fun _ => rfl, fun c hc => hw c (List.mem_of_mem_head? hc)⟩
  | @both a b v w _ _ iha ihb =>
    constructor
    · intro h
      obtain ⟨rfl, rfl⟩ := List.append_eq_nil_iff.mp h
      simp [nullable, iha.1 rfl, ihb.1 rfl]
    · intro c hc
      cases v with
      | nil => simp [begins, iha.1 rfl, ihb.2 c hc]
      | cons d v => simp [begins, iha.2 c hc]
  | left _ ih =>
    exact ⟨fun h => by simp [nullable, ih.1 h], fun c hc => by simp [begins, ih.2 c hc]⟩
  | right _ ih =>
    exact ⟨fun h => by simp [nullable, ih.1 h], fun c hc => by simp [begins, ih.2 c hc]⟩
  | group _ ih => exact ih

/-- A pattern fails in front of a character that none of its texts begins with. -/
theorem fails_of_begins (hn : p.nullable = false) (hb : ∀ c ∈ v.head?, p.begins c = false) :
    Fails p u v := by
  refine fails_of_matches fun w x hv hm => ?_
  obtain ⟨hnull, hhead⟩ := hm.spells.nullable_or_begins
  cases w with
  | nil => simp [hnull rfl] at hn
  | cons c w =>
    have hc := hb c (by simp [hv])
    simp [hhead c rfl] at hc

/-- Every text of the pattern begins with a character outside the class. -/
def Avoids (f : Char → Bool) (p : Pattern) : Prop := ∀ w, p.Spells w → ∃ c cs, w = c :: cs ∧ f c = false

section Avoids

variable {f g : Char → Bool}

theorem Avoids.one (h : ∀ c, g c = true → f c = false) : Avoids f (.one g) := by
  intro w hw
  cases hw with
  | one hc => exact ⟨_, _, rfl, h _ hc⟩

theorem Avoids.both (h : Avoids f p) : Avoids f (.both p q) := by
  intro w hw
  cases hw with
  | both hu hv =>
    obtain ⟨c, cs, rfl, hc⟩ := h _ hu
    exact ⟨c, _, rfl, hc⟩

theorem Avoids.many_both (h : ∀ c, g c = true → f c = false) (hq : Avoids f q) :
    Avoids f (.both (.many g) q) := by
  intro w hw
  cases hw with
  | @both _ _ u v hu hv =>
    cases hu with
    | many hu =>
      cases u with
      | nil => exact hq v hv
      | cons c u => exact ⟨c, _, rfl, h c (hu c List.mem_cons_self)⟩

theorem Avoids.oneOf (h : ∀ p ∈ ps, Avoids f p) : Avoids f (oneOf ps) := by
  induction ps with
  | nil =>
    intro w hw
    cases hw
    contradiction
  | cons p ps ih =>
    obtain ⟨hp, hps⟩ := List.forall_mem_cons.mp h
    cases ps with
    | nil => exact hp
    | cons q qs =>
      intro w hw
      cases hw with
      | left hw => exact hp w hw
      | right hw => exact ih hps w hw

theorem Avoids.fails (h : Avoids f p) {c : Char} (hc : f c = true) : Fails p u (c :: v) := by
  refine fails_of_matches fun w x hv hm => ?_
  obtain ⟨d, ds, rfl, hd⟩ := h w hm.spells
  obtain ⟨rfl, -⟩ := List.cons.inj hv
  rw [hc] at hd
  cases hd

end Avoids

/-! What stands behind a single blank, and behind a name. -/

theorem Matches.of_many {f : Char → Bool} {w x : List Char} (h : Matches (.many f) u w x) :
    ∀ c ∈ w, f c = true := by
  cases h
  assumption

theorem Matches.gap_eq {w x : List Char} (h : Matches gap u w x) (hx : w ++ x = ' ' :: v)
    (hv : ∀ c ∈ v.head?, isBlank c = false) : w = [' '] ∧ x = v := by
  cases h with
  | @both _ _ _ b w _ hone hmany =>
    have hw := hmany.of_many
    cases hone with
    | one hc =>
      obtain ⟨rfl, hrest⟩ := List.cons.inj hx
      cases w with
      | nil => exact ⟨rfl, hrest⟩
      | cons d w =>
        subst hrest
        have hd := hv d rfl
        rw [hw d List.mem_cons_self] at hd
        cases hd

theorem Matches.maybeGap_eq {w x : List Char} (h : Matches maybeGap u w x) (hx : w ++ x = ' ' :: v)
    (hv : ∀ c ∈ v.head?, isBlank c = false) : w = [] ∧ x = ' ' :: v ∨ w = [' '] ∧ x = v := by
  have hw := h.of_many
  match w, hx with
  | [], hx => exact .inl ⟨rfl, hx⟩
  | [c], hx =>
    obtain ⟨rfl, rfl⟩ := List.cons.inj hx
    exact .inr ⟨rfl, rfl⟩
  | c :: d :: w, hx =>
    obtain ⟨rfl, rfl⟩ := List.cons.inj hx
    have hd := hv d rfl
    rw [hw d (by simp)] at hd
    cases hd

theorem fails_blank (h : Fails q (u ++ [' ']) v) : Fails (.both blank q) u (' ' :: v) := by
  refine fails_both fun w x hx hm => ?_
  cases hm with
  | one =>
    obtain ⟨rfl, rfl⟩ := List.cons.inj hx
    exact h

theorem fails_gap (hv : ∀ c ∈ v.head?, isBlank c = false) (h : Fails q (u ++ [' ']) v) :
    Fails (.both gap q) u (' ' :: v) := by
  refine fails_both fun w x hx hm => ?_
  obtain ⟨rfl, rfl⟩ := hm.gap_eq hx.symm hv
  exact h

theorem fails_maybeGap (hv : ∀ c ∈ v.head?, isBlank c = false) (h₁ : Fails q u (' ' :: v))
    (h₂ : Fails q (u ++ [' ']) v) : Fails (.both maybeGap q) u (' ' :: v) := by
  refine fails_both fun w x hx hm => ?_
  rcases hm.maybeGap_eq hx.symm hv with ⟨rfl, rfl⟩ | ⟨rfl, rfl⟩
  · simpa using h₁
  · exact h₂

/-- What begins with no character of names fails behind a name if it fails behind the whole of it. -/
theorem fails_behind_name {n : List Char}
    (hp : ∀ w x, w ++ x = n ++ v → Matches p u w x → ∀ c ∈ w, isNameChar c = true)
    (hq : Avoids isNameChar q) (hn : ∀ c ∈ n, isNameChar c = true)
    (hv : ∀ c ∈ v.head?, isNameChar c = false) (h : Fails q (u ++ n) v) : Fails (.both p q) u (n ++ v) := by
  refine fails_both fun w x hx hm => ?_
  have hw := hp w x hx.symm hm
  rcases List.append_eq_append_iff.mp hx with ⟨y, rfl, rfl⟩ | ⟨y, rfl, rfl⟩
  · cases y with
    | nil => simpa using h
    | cons c y =>
      have hc := hv c rfl
      rw [hw c (by simp)] at hc
      cases hc
  · cases y with
    | nil => simpa using h
    | cons c y => exact hq.fails (hn c (by simp))

end Fails

end Pattern
end Parlance
