import Parlance.Pattern

/-! The language of a pattern: the texts that it runs over, its anchors left aside. Every end
that matching finds lies behind such a text, and whatever a group captures is a text of the
pattern inside that group. -/

namespace Parlance

open Text (size)

/-- `d` stands behind the text `w` that begins at `c`. -/
def Cursor.Over (c : Cursor) (w : List Char) (d : Cursor) : Prop :=
  c.rest = w ++ d.rest ∧ d.pos = c.pos + size w ∧ d.before = w.getLast?.or c.before

namespace Cursor

theorem over_nil (c : Cursor) : c.Over [] c := ⟨rfl, rfl, rfl⟩

theorem Over.trans {c d e : Cursor} {u v : List Char} (h₁ : c.Over u d) (h₂ : d.Over v e) :
    c.Over (u ++ v) e := by
  obtain ⟨hr₁, hp₁, hb₁⟩ := h₁
  obtain ⟨hr₂, hp₂, hb₂⟩ := h₂
  refine ⟨?_, ?_, ?_⟩
  · rw [hr₁, hr₂, List.append_assoc]
  · rw [hp₂, hp₁, Text.size_append, Nat.add_assoc]
  · rw [hb₂, hb₁, List.getLast?_append, Option.or_assoc]

theorem over_pass {c : Cursor} {x : Char} {xs : List Char} (h : c.rest = x :: xs) :
    c.Over [x] (c.pass x xs) := by
  refine ⟨h, ?_, rfl⟩
  simp [pass, size]

theorem captureTo_text {c d : Cursor} {w : List Char} (h : c.Over w d) :
    (c.captureTo d).text = w := by
  simp only [captureTo, h.1, List.length_append, Nat.add_sub_cancel]
  exact List.take_left

end Cursor

namespace Pattern

inductive Spells : Pattern → List Char → Prop
  | empty : Spells .empty []
  | one {p : Char → Bool} {c : Char} (h : p c = true) : Spells (.one p) [c]
  | many {p : Char → Bool} {w : List Char} (h : ∀ c ∈ w, p c = true) : Spells (.many p) w
  | both {a b : Pattern} {u v : List Char} (hu : Spells a u) (hv : Spells b v) :
      Spells (.both a b) (u ++ v)
  | left {a b : Pattern} {w : List Char} (h : Spells a w) : Spells (.either a b) w
  | right {a b : Pattern} {w : List Char} (h : Spells b w) : Spells (.either a b) w
  | group {n : Nat} {a : Pattern} {w : List Char} (h : Spells a w) : Spells (.group n a) w
  | start : Spells .start []
  | edge : Spells .edge []

theorem spells_some1 {f : Char → Bool} {w : List Char} (h : (some1 f).Spells w) : w ≠ [] ∧ ∀ c ∈ w, f c = true := by
  cases h with
  | both hu hv =>
    cases hu with
    | one hc =>
      cases hv with
      | many hcs => exact ⟨List.cons_ne_nil _ _, List.forall_mem_cons.mpr ⟨hc, hcs⟩⟩

/-- The patterns inside the groups of number `n`. -/
def bodies (n : Nat) : Pattern → List Pattern
  | .both a b | .either a b => a.bodies n ++ b.bodies n
  | .group m a => if m = n then a :: a.bodies n else a.bodies n
  | .empty | .one _ | .many _ | .start | .edge => []

/-- The capture is a text of a group of its number. -/
def Captured (p : Pattern) (e : Nat × Capture) : Prop := ∃ a ∈ p.bodies e.1, a.Spells e.2.text

theorem Captured.mono {p q : Pattern} {e : Nat × Capture} (h : p.Captured e)
    (hs : ∀ n, p.bodies n ⊆ q.bodies n) : q.Captured e := by
  obtain ⟨a, ha, hw⟩ := h
  exact ⟨a, hs _ ha, hw⟩

theorem mem_runEnds {p : Char → Bool} {c d : Cursor} (h : d ∈ runEnds p c) :
    ∃ w, c.Over w d ∧ ∀ x ∈ w, p x = true := by
  suffices ∀ (xs : List Char) (c : Cursor), c.rest = xs → d ∈ runEnds.go p c xs →
      ∃ w, c.Over w d ∧ ∀ x ∈ w, p x = true from this c.rest c rfl h
  intro xs
  induction xs with
  | nil =>
    intro c _ hd
    simp only [runEnds.go, List.mem_singleton] at hd
    subst hd
    exact ⟨[], d.over_nil, by simp⟩
  | cons x xs ih =>
    intro c hc hd
    by_cases hx : p x = true
    · simp only [runEnds.go, hx, if_true, List.mem_append, List.mem_singleton] at hd
      rcases hd with hd | rfl
      · obtain ⟨w, hw, hall⟩ := ih _ rfl hd
        refine ⟨[x] ++ w, (Cursor.over_pass hc).trans hw, ?_⟩
        simpa [hx] using hall
      · exact ⟨[], d.over_nil, by simp⟩
    · simp only [runEnds.go, hx, if_false, List.mem_singleton, Bool.false_eq_true] at hd
      subst hd
      exact ⟨[], d.over_nil, by simp⟩

/-- Every match captures a group of number `n`. -/
def always (n : Nat) : Pattern → Bool
  | .both a b => a.always n || b.always n
  | .either a b => a.always n && b.always n
  | .group m a => m == n || a.always n
  | .empty | .one _ | .many _ | .start | .edge => false

/-- What a match of `p` adds to the captures. -/
def Adds (p : Pattern) (new : Captures) : Prop :=
  (∀ e ∈ new, p.Captured e) ∧ ∀ n, p.always n = true → ∃ e ∈ new, e.1 = n

/-- From `c` the pattern can run over `w` to `d`, and adds the captures `new` on its way. -/
inductive Runs : Pattern → Cursor → List Char → Cursor → Captures → Prop
  | empty {c : Cursor} : Runs .empty c [] c []
  | one {f : Char → Bool} {c : Cursor} {x : Char} {xs : List Char} (hc : c.rest = x :: xs) (hx : f x = true) :
      Runs (.one f) c [x] (c.pass x xs) []
  | many {f : Char → Bool} {c d : Cursor} {w : List Char} (hw : c.Over w d) (hf : ∀ x ∈ w, f x = true) :
      Runs (.many f) c w d []
  | both {a b : Pattern} {c d e : Cursor} {v w : List Char} {new new' : Captures} (ha : Runs a c v d new)
      (hb : Runs b d w e new') : Runs (.both a b) c (v ++ w) e (new' ++ new)
  | left {a b : Pattern} {c d : Cursor} {w : List Char} {new : Captures} (h : Runs a c w d new) :
      Runs (.either a b) c w d new
  | right {a b : Pattern} {c d : Cursor} {w : List Char} {new : Captures} (h : Runs b c w d new) :
      Runs (.either a b) c w d new
  | group {n : Nat} {a : Pattern} {c d : Cursor} {w : List Char} {new : Captures} (h : Runs a c w d new) :
      Runs (.group n a) c w d ((n, c.captureTo d) :: new)
  | start {c : Cursor} (hc : c.pos = 0) : Runs .start c [] c []
  | edge {c : Cursor} (hc : c.atEdge = true) : Runs .edge c [] c []

/-- Every end is reached by a run, and the captures of the run come before those there were. -/
theorem runs_of_mem_ends {p : Pattern} {c : Cursor} {g : Captures} {e : Cursor × Captures} (h : e ∈ p.ends c g) :
    ∃ w new, p.Runs c w e.1 new ∧ e.2 = new ++ g := by
  induction p generalizing c g e with
  | empty =>
    cases List.mem_singleton.mp h
    exact ⟨[], [], .empty, rfl⟩
  | one f =>
    simp only [ends] at h
    split at h
    · cases h
    · next x xs hc =>
      split at h
      · next hx =>
        cases List.mem_singleton.mp h
        exact ⟨[x], [], .one hc hx, rfl⟩
      · cases h
  | many f =>
    obtain ⟨d, hd, rfl⟩ := List.mem_map.mp h
    obtain ⟨w, hw, hf⟩ := mem_runEnds hd
    exact ⟨w, [], .many hw hf, rfl⟩
  | both a b iha ihb =>
    obtain ⟨d, hd, he⟩ := List.mem_flatMap.mp h
    obtain ⟨v, new, hv, hg⟩ := iha hd
    obtain ⟨w, new', hw, hg'⟩ := ihb he
    exact ⟨v ++ w, new' ++ new, .both hv hw, by rw [hg', hg, List.append_assoc]⟩
  | either a b iha ihb =>
    rcases List.mem_append.mp h with h | h
    · obtain ⟨w, new, hw, hg⟩ := iha h
      exact ⟨w, new, .left hw, hg⟩
    · obtain ⟨w, new, hw, hg⟩ := ihb h
      exact ⟨w, new, .right hw, hg⟩
  | group n a ih =>
    obtain ⟨e', he', rfl⟩ := List.mem_map.mp h
    obtain ⟨w, new, hw, hg⟩ := ih he'
    exact ⟨w, (n, c.captureTo e'.1) :: new, .group hw, congrArg _ hg⟩
  | start =>
    simp only [ends] at h
    split at h
    · next hc =>
      cases List.mem_singleton.mp h
      exact ⟨[], [], .start hc, rfl⟩
    · cases h
  | edge =>
    simp only [ends] at h
    split at h
    · next hc =>
      cases List.mem_singleton.mp h
      exact ⟨[], [], .edge hc, rfl⟩
    · cases h

namespace Runs

variable {p : Pattern} {c d : Cursor} {w : List Char} {new : Captures}

theorem toOver (h : p.Runs c w d new) : c.Over w d := by
  induction h with
  | one hc _ => exact Cursor.over_pass hc
  | many hw _ => exact hw
  | both _ _ iha ihb => exact iha.trans ihb
  | left _ ih | right _ ih | group _ ih => exact ih
  | empty | start _ | edge _ => exact Cursor.over_nil _

theorem spells (h : p.Runs c w d new) : p.Spells w := by
  induction h with
  | empty => exact .empty
  | one _ hx => exact .one hx
  | many _ hf => exact .many hf
  | both _ _ iha ihb => exact .both iha ihb
  | left _ ih => exact .left ih
  | right _ ih => exact .right ih
  | group _ ih => exact .group ih
  | start _ => exact .start
  | edge _ => exact .edge

theorem captured (h : p.Runs c w d new) : ∀ e ∈ new, p.Captured e := by
  induction h with
  | both _ _ iha ihb =>
    intro e he
    rcases List.mem_append.mp he with he | he
    · exact (ihb e he).mono fun n => List.subset_append_right ..
    · exact (iha e he).mono fun n => List.subset_append_left ..
  | left _ ih => exact fun e he => (ih e he).mono fun n => List.subset_append_left ..
  | right _ ih => exact fun e he => (ih e he).mono fun n => List.subset_append_right ..
  | @group m a c d w new h ih =>
    intro e he
    rcases List.mem_cons.mp he with rfl | he
    · refine ⟨a, by simp [bodies], ?_⟩
      simpa only [Cursor.captureTo_text h.toOver] using h.spells
    · refine (ih e he).mono fun n => ?_
      simp only [bodies]
      split
      · exact List.subset_cons_self ..
      · exact List.Subset.refl _
  | empty | one _ _ | many _ _ | start _ | edge _ => exact fun e he => absurd he List.not_mem_nil

theorem exists_captured {n : Nat} (h : p.Runs c w d new) (hn : p.always n = true) : ∃ e ∈ new, e.1 = n := by
  induction h with
  | both _ _ iha ihb =>
    rcases Bool.or_eq_true_iff.mp hn with hn | hn
    · obtain ⟨e, he, rfl⟩ := iha hn
      exact ⟨e, List.mem_append_right _ he, rfl⟩
    · obtain ⟨e, he, rfl⟩ := ihb hn
      exact ⟨e, List.mem_append_left _ he, rfl⟩
  | left _ ih => exact ih (Bool.and_eq_true_iff.mp hn).1
  | right _ ih => exact ih (Bool.and_eq_true_iff.mp hn).2
  | group _ ih =>
    rcases Bool.or_eq_true_iff.mp hn with hn | hn
    · exact ⟨_, List.mem_cons_self, by simpa using hn⟩
    · obtain ⟨e, he, rfl⟩ := ih hn
      exact ⟨e, List.mem_cons_of_mem _ he, rfl⟩
  | empty | one _ _ | many _ _ | start _ | edge _ => cases hn

/-- A run adds captures of the pattern's groups only. -/
theorem adds (h : p.Runs c w d new) : p.Adds new := ⟨h.captured, fun _ => h.exists_captured⟩

/-- Whatever a run captures is a part of the text that it runs over. -/
theorem capture_infix (h : p.Runs c w d new) : ∀ e ∈ new, e.2.text <:+: w := by
  induction h with
  | @both a b c d e v w new new' _ _ iha ihb =>
    intro e he
    rcases List.mem_append.mp he with he | he
    · exact (ihb e he).trans (List.suffix_append v w).isInfix
    · exact (iha e he).trans (List.prefix_append v w).isInfix
  | left _ ih | right _ ih => exact ih
  | group h ih =>
    intro e he
    rcases List.mem_cons.mp he with rfl | he
    · exact Cursor.captureTo_text h.toOver ▸ List.infix_rfl
    · exact ih e he
  | empty | one _ _ | many _ _ | start _ | edge _ => exact fun e he => absurd he List.not_mem_nil

end Runs

/-! ### Hits -/

/-- The preferred end decides a hit. -/
theorem hitAt?_eq (p : Pattern) (c : Cursor) : p.hitAt? c = (p.ends c []).head?.map fun e =>
    ⟨(c.captureTo e.1).span, (c.captureTo e.1).text, e.2⟩ := by
  rw [hitAt?, run_eq_findSome?]
  cases p.ends c [] <;> rfl

section Searching

variable {p : Pattern} {low : Nat} {c : Cursor} {cs : List Char} {h : Hit}

theorem runs_of_hitAt? (hh : p.hitAt? c = some h) : ∃ d, p.Runs c h.text d h.captures ∧ h.span = ⟨c.pos, d.pos⟩ := by
  rw [hitAt?_eq, Option.map_eq_some_iff] at hh
  obtain ⟨e, he, rfl⟩ := hh
  obtain ⟨w, new, hw, hg⟩ := runs_of_mem_ends (List.mem_of_mem_head? he)
  rw [List.append_nil] at hg
  refine ⟨e.1, ?_, rfl⟩
  rwa [Cursor.captureTo_text hw.toOver, hg]

/-- What is found is what matching finds at a place from `low` on. -/
theorem hitAt?_of_findFrom? (hc : c.rest = cs) (hh : p.findFrom? low c cs = some h) :
    ∃ w d, c.Over w d ∧ low ≤ d.pos ∧ p.hitAt? d = some h := by
  have hhere {c : Cursor} (hit : (if low ≤ c.pos then p.hitAt? c else none) = some h) :
      ∃ w d, c.Over w d ∧ low ≤ d.pos ∧ p.hitAt? d = some h := by
    split at hit
    · next hlow => exact ⟨[], c, c.over_nil, hlow, hit⟩
    · cases hit
  induction cs generalizing c with
  | nil => exact hhere hh
  | cons x cs ih =>
    rw [findFrom?] at hh
    split at hh
    · next hit =>
      cases hh
      exact hhere hit
    · obtain ⟨w, d, hover, hd⟩ := ih rfl hh
      exact ⟨[x] ++ w, d, (Cursor.over_pass hc).trans hover, hd⟩

theorem hitAt?_of_mem_hitsFrom (hc : c.rest = cs) (hh : h ∈ p.hitsFrom low c cs) :
    ∃ w d, c.Over w d ∧ p.hitAt? d = some h := by
  have hhere {c : Cursor} {l : Nat} (hit : (if l ≤ c.pos then p.hitAt? c else none) = some h) :
      ∃ w d, c.Over w d ∧ p.hitAt? d = some h := by
    split at hit
    · exact ⟨[], c, c.over_nil, hit⟩
    · cases hit
  induction cs generalizing low c with
  | nil => exact hhere (Option.mem_toList.mp hh)
  | cons x cs ih =>
    have hlater {l : Nat} (hh : h ∈ p.hitsFrom l (c.pass x cs) cs) : ∃ w d, c.Over w d ∧ p.hitAt? d = some h := by
      obtain ⟨w, d, hover, hd⟩ := ih rfl hh
      exact ⟨[x] ++ w, d, (Cursor.over_pass hc).trans hover, hd⟩
    rw [hitsFrom] at hh
    split at hh
    · next hit =>
      rcases List.mem_cons.mp hh with rfl | hh
      · exact hhere hit
      · exact hlater hh
    · exact hlater hh

/-- A hit of `p` has a text of `p`, and its captures are those of groups of `p`. -/
structure Hit.Of (p : Pattern) (h : Hit) : Prop where
  text : p.Spells h.text
  captures : p.Adds h.captures

theorem hitAt?_of (hh : p.hitAt? c = some h) : h.Of p := by
  obtain ⟨d, hruns, -⟩ := runs_of_hitAt? hh
  exact ⟨hruns.spells, hruns.adds⟩

theorem find?_of (hh : p.find? cs = some h) : h.Of p := by
  obtain ⟨w, d, -, -, hit⟩ := hitAt?_of_findFrom? rfl hh
  exact hitAt?_of hit

theorem mem_hits (hh : h ∈ p.hits cs) : h.Of p := by
  obtain ⟨w, d, -, hit⟩ := hitAt?_of_mem_hitsFrom rfl hh
  exact hitAt?_of hit

end Searching

theorem Hit.exists_capture {h : Hit} {n : Nat} {w : List Char} (hw : h.text? n = some w) :
    ∃ k, (n, k) ∈ h.captures ∧ k.text = w := by
  obtain ⟨k, hk, hw⟩ := Option.map_eq_some_iff.mp hw
  obtain ⟨before, after, hl, -⟩ := List.lookup_eq_some_iff.mp hk
  exact ⟨k, by simp [hl], hw⟩

theorem Hit.Of.text? {p : Pattern} {h : Hit} (hp : h.Of p) {n : Nat} {w : List Char}
    (hw : h.text? n = some w) : ∃ a ∈ p.bodies n, a.Spells w := by
  obtain ⟨k, hk, rfl⟩ := h.exists_capture hw
  exact hp.captures.1 (n, k) hk

theorem Hit.Of.text?_of_always {p : Pattern} {h : Hit} (hp : h.Of p) {n : Nat}
    (hn : p.always n = true) : ∃ w, h.text? n = some w := by
  obtain ⟨e, he, rfl⟩ := hp.captures.2 n hn
  have hk : (h.captures.lookup e.1).isSome = true := by
    rw [List.lookup_isSome_iff]
    exact ⟨e, he, by simp⟩
  obtain ⟨k, hk⟩ := Option.isSome_iff_exists.mp hk
  exact ⟨k.text, by simp only [Hit.text?, Hit.capture?, hk, Option.map_some]⟩

/-! What the building blocks capture. -/

@[simp] theorem bodies_seq (n : Nat) (ps : List Pattern) : (seq ps).bodies n = ps.flatMap (bodies n) := by
  induction ps with
  | nil => rfl
  | cons p ps ih =>
    cases ps with
    | nil => simp [seq]
    | cons q qs => rw [List.flatMap_cons, ← ih, seq, bodies]; simp

@[simp] theorem bodies_oneOf (n : Nat) (ps : List Pattern) :
    (oneOf ps).bodies n = ps.flatMap (bodies n) := by
  induction ps with
  | nil => rfl
  | cons p ps ih =>
    cases ps with
    | nil => simp [oneOf]
    | cons q qs => rw [List.flatMap_cons, ← ih, oneOf, bodies]; simp

theorem bodies_seq_eq_nil {n : Nat} {ps : List Pattern} (h : ∀ p ∈ ps, p.bodies n = []) :
    (seq ps).bodies n = [] := by
  rw [bodies_seq, List.flatMap_eq_nil_iff]
  exact h

@[simp] theorem bodies_name (n : Nat) : name.bodies n = [] := rfl
@[simp] theorem bodies_gap (n : Nat) : gap.bodies n = [] := rfl
@[simp] theorem bodies_maybeGap (n : Nat) : maybeGap.bodies n = [] := rfl

@[simp] theorem bodies_word (n : Nat) (w : String) : (word w).bodies n = [] := by
  refine bodies_seq_eq_nil fun p hp => ?_
  obtain ⟨l, -, rfl⟩ := List.mem_map.mp hp
  rfl

theorem eq_or_mem_of_mem_intersperse {α : Type} {s x : α} {l : List α} (h : x ∈ l.intersperse s) :
    x = s ∨ x ∈ l := by
  induction l with
  | nil => simp at h
  | cons a l ih =>
    cases l with
    | nil => exact .inr h
    | cons b l =>
      rw [List.intersperse_cons_cons, List.mem_cons, List.mem_cons] at h
      rcases h with rfl | rfl | h
      · exact .inr List.mem_cons_self
      · exact .inl rfl
      · exact (ih h).imp_right (List.mem_cons_of_mem a)

@[simp] theorem bodies_phrase (n : Nat) (w : String) : (phrase w).bodies n = [] := by
  refine bodies_seq_eq_nil fun p hp => ?_
  rcases eq_or_mem_of_mem_intersperse hp with rfl | hp
  · rfl
  · obtain ⟨l, -, rfl⟩ := List.mem_map.mp hp
    exact bodies_word n _

@[simp] theorem bodies_phrases (n : Nat) (ws : List String) : (phrases ws).bodies n = [] := by
  rw [phrases, bodies_oneOf, List.flatMap_eq_nil_iff]
  intro p hp
  obtain ⟨w, -, rfl⟩ := List.mem_map.mp hp
  exact bodies_phrase n w

@[simp] theorem bodies_optional (n : Nat) (p : Pattern) : (optional p).bodies n = p.bodies n := by
  simp [optional, bodies]

@[simp] theorem bodies_lead (n : Nat) (ws : List String) : (lead ws).bodies n = [] := by
  simp [lead, bodies]

end Pattern

end Parlance
