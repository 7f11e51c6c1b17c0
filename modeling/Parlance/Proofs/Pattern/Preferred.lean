import Parlance.Proofs.Pattern.Matching

/-! The preferred end of a pattern. Where every part of a pattern finds its preferred end in front of
the next one, these ends make up the preferred end of the whole; where a part fails, the alternative
behind it decides. -/

namespace Parlance

open Text (size isBlank isWord isWordAt)

/-- What is captured by running over `w` behind `u`. -/
def Capture.behind (u w : List Char) : Capture := ⟨⟨size u, size (u ++ w)⟩, w⟩

theorem Cursor.captureTo_between (u w x : List Char) :
    (Cursor.between u (w ++ x)).captureTo (.between (u ++ w) x) = Capture.behind u w := by
  have hlength : (w ++ x).length - x.length = w.length := by simp
  simp only [captureTo, between, Capture.behind, hlength, List.take_left]

@[simp] theorem Capture.text_behind (u w : List Char) : (Capture.behind u w).text = w := rfl

namespace Pattern

/-- Behind `u` and before `w ++ x` the pattern runs over `w` first of all, and captures `new`. -/
def Prefers (p : Pattern) (u w x : List Char) (new : Captures) : Prop :=
  ∀ g, (p.ends (.between u (w ++ x)) g).head? = some (.between (u ++ w) x, new ++ g)

theorem head?_flatMap {α β : Type} {l : List α} {f : α → List β} {a : α} {b : β}
    (ha : l.head? = some a) (hb : (f a).head? = some b) : (l.flatMap f).head? = some b := by
  cases l with
  | nil => cases ha
  | cons a' l =>
    cases ha
    rw [List.flatMap_cons, List.head?_append, hb, Option.some_or]

namespace Prefers

variable {p q : Pattern} {ps : List Pattern} {u v w x : List Char} {m n : Captures}

theorem empty : Prefers .empty u [] x [] := by
  intro g
  simp [ends]

theorem one {f : Char → Bool} {c : Char} (h : f c = true) : Prefers (.one f) u [c] x [] := by
  intro g
  have hrest : (Cursor.between u ([c] ++ x)).rest = c :: x := rfl
  simp only [ends, hrest, h, if_true]
  rw [List.singleton_append, Cursor.pass_between]
  rfl

theorem many {f : Char → Bool} (hw : ∀ c ∈ w, f c = true) (hx : ∀ c ∈ x.head?, f c = false) :
    Prefers (.many f) u w x [] := by
  suffices ∀ u, (runEnds.go f (.between u (w ++ x)) (w ++ x)).head? = some (.between (u ++ w) x) by
    intro g
    have hrest : (Cursor.between u (w ++ x)).rest = w ++ x := rfl
    rw [ends, runEnds, hrest, List.head?_map, this u]
    rfl
  induction w with
  | nil =>
    intro u
    cases x with
    | nil => simp [runEnds.go]
    | cons c x => simp [runEnds.go, hx c rfl]
  | cons c w ih =>
    intro u
    obtain ⟨hc, hw⟩ := List.forall_mem_cons.mp hw
    have hrest := ih hw (u ++ [c])
    rw [List.cons_append, runEnds.go, if_pos hc, Cursor.pass_between, List.head?_append, hrest]
    simp

theorem both (hp : Prefers p u v (w ++ x) m) (hq : Prefers q (u ++ v) w x n) :
    Prefers (.both p q) u (v ++ w) x (n ++ m) := by
  intro g
  rw [ends, List.append_assoc]
  refine head?_flatMap (hp g) ?_
  rw [hq (m ++ g), List.append_assoc, List.append_assoc]

theorem both_nil (hp : Prefers p u w x m) (hq : Prefers q (u ++ w) [] x []) : Prefers (.both p q) u w x m := by
  have h := both (w := []) hp hq
  rwa [List.append_nil, List.nil_append] at h

theorem left (h : Prefers p u w x m) : Prefers (.either p q) u w x m := by
  intro g
  rw [ends, List.head?_append, h g, Option.some_or]

theorem right (hp : Fails p u (w ++ x)) (hq : Prefers q u w x m) : Prefers (.either p q) u w x m := by
  intro g
  rw [ends, hp g, List.nil_append, hq g]

theorem group {k : Nat} (h : Prefers p u w x m) :
    Prefers (.group k p) u w x ((k, Capture.behind u w) :: m) := by
  intro g
  rw [ends, List.head?_map, h g, Option.map_some, Cursor.captureTo_between]
  rfl

theorem start : Prefers .start [] [] x [] := by
  intro g
  simp [ends, Cursor.between, size]

theorem edge (h : (Cursor.between u x).atEdge = true) : Prefers .edge u [] x [] := by
  intro g
  simp [ends, h]

/-- In front of a word and behind a space there is an edge. -/
theorem edge_before (hw : w ≠ []) (hword : ∀ c ∈ w, isWord c = true) :
    Prefers Pattern.edge (u ++ [' ']) [] (w ++ x) [] := by
  refine .edge ?_
  rw [Cursor.atEdge_before hw hword, List.getLast?_concat]
  decide

theorem edge_behind (hw : w ≠ []) (hword : ∀ c ∈ w, isWord c = true) (hx : isWordAt x.head? = false) :
    Prefers Pattern.edge (u ++ w) [] x [] := by
  refine .edge ?_
  rw [Cursor.atEdge_behind hw hword, hx]
  rfl

theorem seq_cons (hp : Prefers p u v (w ++ x) m) (hps : Prefers (seq ps) (u ++ v) w x n) :
    Prefers (seq (p :: ps)) u (v ++ w) x (n ++ m) := by
  intro g
  have h := both hp hps g
  rwa [ends, ← ends_seq_cons] at h

theorem seq_nil (hp : Prefers p u [] (w ++ x) []) (hps : Prefers (seq ps) u w x n) :
    Prefers (seq (p :: ps)) u w x n := by
  have h := seq_cons (v := []) hp (by rwa [List.append_nil])
  rwa [List.append_nil] at h

theorem seq_last (h : Prefers p u w x m) : Prefers (seq [p]) u w x m := h

theorem oneOf_head (h : Prefers p u w x m) : Prefers (oneOf (p :: ps)) u w x m := by
  intro g
  rw [ends_oneOf_cons, List.head?_append, h g, Option.some_or]

theorem oneOf_tail (hp : Fails p u (w ++ x)) (hps : Prefers (oneOf ps) u w x m) :
    Prefers (oneOf (p :: ps)) u w x m := by
  intro g
  rw [ends_oneOf_cons, hp g, List.nil_append, hps g]

theorem lead_absent {ws : List String} (h : Fails (.both (phrases ws) gap) u x) :
    Prefers (lead ws) u [] x [] :=
  right h empty

theorem optional_absent (h : Fails p u x) : Prefers (optional p) u [] x [] :=
  right h empty

theorem optional_present (h : Prefers p u w x m) : Prefers (optional p) u w x m :=
  left h

theorem maybeGap_space (hx : ∀ c ∈ x.head?, isBlank c = false) : Prefers maybeGap u [' '] x [] :=
  many (by decide) hx

theorem gap_space (hx : ∀ c ∈ x.head?, isBlank c = false) : Prefers gap u [' '] x [] :=
  both (v := [' ']) (w := []) (one (by decide)) (many (fun _ hc => nomatch hc) hx)

theorem char (c : Char) : Prefers (.char c) u [c] x [] :=
  one (by simp)

theorem some1 {f : Char → Bool} (hne : w ≠ []) (hw : ∀ c ∈ w, f c = true)
    (hx : ∀ c ∈ x.head?, f c = false) : Prefers (.some1 f) u w x [] := by
  obtain ⟨c, w, rfl⟩ := List.exists_cons_of_ne_nil hne
  obtain ⟨hc, hw⟩ := List.forall_mem_cons.mp hw
  exact both (v := [c]) (one hc) (many hw hx)

theorem name (hw : IsName w) (hx : ∀ c ∈ x.head?, isNameChar c = false) : Prefers name u w x [] := by
  obtain ⟨c, w, rfl, hc, hw⟩ := hw
  exact both (v := [c]) (one hc) (many hw hx)

theorem letters (w : List Char) : Prefers (seq (w.map fun l => .one (sameLetter l))) u w x [] := by
  induction w generalizing u with
  | nil => exact empty
  | cons l w ih =>
    have hl : sameLetter l l = true := by simp [sameLetter]
    exact seq_cons (v := [l]) (one hl) ih

theorem word (w : String) : Prefers (word w) u w.toList x [] :=
  letters w.toList

theorem symbol (w : List Char) : Prefers (seq (w.map .char)) u w x [] := by
  induction w generalizing u with
  | nil => exact empty
  | cons l w ih => exact seq_cons (v := [l]) (char l) ih

end Prefers

theorem phrase_of_word {w : String} (h : ' ' ∉ w.toList) : phrase w = word w := by
  have hspace : ∀ l ∈ w.toList, decide (l = ' ') = false := by
    intro l hl
    refine decide_eq_false ?_
    rintro rfl
    exact h hl
  simp [phrase, Text.pieces_of_forall hspace, seq]

theorem Prefers.phrase {w : String} {u x : List Char} (h : ' ' ∉ w.toList) :
    Prefers (phrase w) u w.toList x [] := by
  rw [phrase_of_word h]
  exact .word w

/-! ### Hits -/

/-- A hit on `w` behind `u`. -/
def Hit.behind (u w : List Char) (g : Captures) : Hit := ⟨⟨size u, size (u ++ w)⟩, w, g⟩

@[simp] theorem Hit.text?_behind (u w : List Char) (g : Captures) (n : Nat) :
    (Hit.behind u w g).text? n = (g.lookup n).map (·.text) := rfl

@[simp] theorem Hit.text_behind (u w : List Char) (g : Captures) : (Hit.behind u w g).text = w := rfl

@[simp] theorem Hit.span_behind (u w : List Char) (g : Captures) :
    (Hit.behind u w g).span = ⟨size u, size (u ++ w)⟩ := rfl

section Hits

variable {p : Pattern} {u pre v w x : List Char} {g : Captures} {low : Nat}

theorem Prefers.hitAt? (h : Prefers p u w x g) : p.hitAt? (.between u (w ++ x)) = some (.behind u w g) := by
  rw [hitAt?_eq, h [], Option.map_some, Cursor.captureTo_between, List.append_nil]
  rfl

theorem Fails.hitAt? (h : Fails p u v) : p.hitAt? (.between u v) = none := by
  rw [hitAt?_eq, h []]
  rfl

theorem findFrom?_between_cons (p : Pattern) (low : Nat) (u v : List Char) (c : Char) :
    p.findFrom? low (.between u (c :: v)) (c :: v) =
      match if low ≤ size u then p.hitAt? (.between u (c :: v)) else none with
      | some h => some h
      | none => p.findFrom? low (.between (u ++ [c]) v) v := by
  rw [findFrom?, Cursor.pass_between]
  rfl

theorem hitsFrom_between_cons (p : Pattern) (low : Nat) (u v : List Char) (c : Char) :
    p.hitsFrom low (.between u (c :: v)) (c :: v) =
      match if low ≤ size u then p.hitAt? (.between u (c :: v)) else none with
      | some h => h :: p.hitsFrom h.span.stop (.between (u ++ [c]) v) v
      | none => p.hitsFrom low (.between (u ++ [c]) v) v := by
  rw [hitsFrom, Cursor.pass_between]
  rfl

/-- Scanning passes over a text in which the pattern fails everywhere. -/
theorem findFrom?_skip (h : ∀ a b, pre = a ++ b → b ≠ [] → Fails p (u ++ a) (b ++ v)) :
    p.findFrom? low (.between u (pre ++ v)) (pre ++ v) = p.findFrom? low (.between (u ++ pre) v) v := by
  induction pre generalizing u with
  | nil => simp
  | cons c pre ih =>
    have hc := (h [] (c :: pre) rfl (by simp)).hitAt?
    rw [List.append_nil, List.cons_append] at hc
    have hrest : ∀ a b, pre = a ++ b → b ≠ [] → Fails p (u ++ [c] ++ a) (b ++ v) := by
      intro a b hpre hb
      simpa using h (c :: a) b (by rw [hpre]; rfl) hb
    rw [List.cons_append, findFrom?_between_cons, hc, ite_self, ih hrest, List.append_assoc,
      List.singleton_append]

theorem hitsFrom_skip (h : ∀ a b, pre = a ++ b → b ≠ [] → Fails p (u ++ a) (b ++ v)) :
    p.hitsFrom low (.between u (pre ++ v)) (pre ++ v) = p.hitsFrom low (.between (u ++ pre) v) v := by
  induction pre generalizing u with
  | nil => simp
  | cons c pre ih =>
    have hc := (h [] (c :: pre) rfl (by simp)).hitAt?
    rw [List.append_nil, List.cons_append] at hc
    have hrest : ∀ a b, pre = a ++ b → b ≠ [] → Fails p (u ++ [c] ++ a) (b ++ v) := by
      intro a b hpre hb
      simpa using h (c :: a) b (by rw [hpre]; rfl) hb
    rw [List.cons_append, hitsFrom_between_cons, hc, ite_self, ih hrest, List.append_assoc,
      List.singleton_append]

theorem findFrom?_eq_none (h : ∀ a b, v = a ++ b → Fails p (u ++ a) b) :
    p.findFrom? low (.between u v) v = none := by
  have hskip : p.findFrom? low (.between u (v ++ [])) (v ++ []) = p.findFrom? low (.between (u ++ v) []) [] :=
    findFrom?_skip fun a b hv _ => by simpa using h a b hv
  have hend := (h v [] (by simp)).hitAt?
  rw [List.append_nil] at hskip
  rw [hskip, findFrom?, hend, ite_self]

theorem hitsFrom_eq_nil (h : ∀ a b, v = a ++ b → Fails p (u ++ a) b) :
    p.hitsFrom low (.between u v) v = [] := by
  have hskip : p.hitsFrom low (.between u (v ++ [])) (v ++ []) = p.hitsFrom low (.between (u ++ v) []) [] :=
    hitsFrom_skip fun a b hv _ => by simpa using h a b hv
  have hend := (h v [] (by simp)).hitAt?
  rw [List.append_nil] at hskip
  rw [hskip, hitsFrom, hend, ite_self]
  rfl

/-- Behind a hit scanning goes on where the hit ends. -/
theorem hitsFrom_pass (hlow : size (u ++ w) ≤ low) :
    p.hitsFrom low (.between u (w ++ x)) (w ++ x) = p.hitsFrom low (.between (u ++ w) x) x := by
  induction w generalizing u with
  | nil => simp
  | cons c w ih =>
    have hc := c.utf8Size_pos
    have hu : ¬low ≤ size u := by
      simp only [Text.size_append, size] at hlow
      omega
    have hrest := ih (u := u ++ [c]) (by simpa using hlow)
    rw [List.cons_append, hitsFrom_between_cons, if_neg hu, hrest, List.append_assoc, List.singleton_append]

theorem Prefers.findFrom? (h : Prefers p u w x g) (hlow : low ≤ size u) :
    p.findFrom? low (.between u (w ++ x)) (w ++ x) = some (.behind u w g) := by
  have hit := h.hitAt?
  generalize w ++ x = v at hit
  cases v with
  | nil =>
    rw [Pattern.findFrom?, hit]
    exact if_pos hlow
  | cons c v => rw [findFrom?_between_cons, hit, if_pos hlow]

theorem Prefers.hitsFrom (h : Prefers p u w x g) (hw : w ≠ []) (hlow : low ≤ size u) :
    p.hitsFrom low (.between u (w ++ x)) (w ++ x) =
      .behind u w g :: p.hitsFrom (size (u ++ w)) (.between (u ++ w) x) x := by
  obtain ⟨c, w, rfl⟩ := List.exists_cons_of_ne_nil hw
  have hpass : p.hitsFrom (size (u ++ c :: w)) (.between (u ++ [c]) (w ++ x)) (w ++ x) =
      p.hitsFrom (size (u ++ c :: w)) (.between (u ++ [c] ++ w) x) x :=
    hitsFrom_pass (by simp)
  have hit := h.hitAt?
  rw [List.cons_append] at hit
  rw [List.cons_append, hitsFrom_between_cons, if_pos hlow, hit]
  simp only [Hit.behind]
  rw [hpass]
  simp

theorem Prefers.find? (h : Prefers p [] w x g) : p.find? (w ++ x) = some (.behind [] w g) :=
  h.findFrom? (Nat.zero_le _)

/-- An anchored pattern is found at the start or not at all. -/
theorem find?_start_eq_none (h : Fails (both start p) [] v) : (both start p).find? v = none := by
  refine findFrom?_eq_none (u := []) fun a b hv => ?_
  cases a with
  | nil =>
    subst hv
    exact h
  | cons c a => exact (fails_start (by simp)).both

end Hits

end Pattern
end Parlance
