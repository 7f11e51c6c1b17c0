import Parlance.Proofs.Pattern.Preferred

/-! Patterns that open with a key word. Such a pattern matches only where one of its key words stands
as a whole word, so that scanning passes over every text that lacks them. -/

namespace Parlance

open Text (size isBlank isWord isWordAt pieces)

namespace Pattern

instance decidableSpelled : ∀ w m : List Char, Decidable (Spelled w m)
  | [], [] => .isTrue .nil
  | [], _ :: _ => .isFalse fun h => nomatch h
  | _ :: _, [] => .isFalse fun h => nomatch h
  | l :: w, c :: m =>
    match decEq (sameLetter l c) true, decidableSpelled w m with
    | .isTrue hc, .isTrue hm => .isTrue (.cons hc hm)
    | .isFalse hc, _ => .isFalse fun h => by cases h; contradiction
    | _, .isFalse hm => .isFalse fun h => by cases h; contradiction

theorem isWord_of_sameLetter {l c : Char} (hl : l.isAlpha = true) (h : sameLetter l c = true) :
    isWord c = true := by
  simp only [sameLetter, Bool.or_eq_true, Bool.and_eq_true, decide_eq_true_eq] at h
  rcases h with (h | ⟨-, h⟩) | ⟨-, h⟩
  · refine isWord_of_isLower_toLower ?_
    rw [h]
    exact isLower_toLower_of_isAlpha hl
  · rw [← Char.ofNat_toNat c, h]
    decide
  · rw [← Char.ofNat_toNat c, h]
    decide +kernel

namespace Spelled

variable {w m v n : List Char}

theorem isWord (h : Spelled w m) (hw : ∀ l ∈ w, l.isAlpha = true) : ∀ c ∈ m, isWord c = true := by
  induction h with
  | nil => simp
  | cons hc hm ih =>
    obtain ⟨hl, hw⟩ := List.forall_mem_cons.mp hw
    exact List.forall_mem_cons.mpr ⟨isWord_of_sameLetter hl hc, ih hw⟩

theorem ne_nil (h : Spelled w m) (hw : w ≠ []) : m ≠ [] := by
  cases h with
  | nil => contradiction
  | cons => simp

theorem append (h : Spelled w m) (h' : Spelled v n) : Spelled (w ++ v) (m ++ n) := by
  induction h with
  | nil => exact h'
  | cons hc _ ih => exact .cons hc ih

end Spelled

end Pattern

open Pattern

namespace Text

/-- None of the words is a word of the text, whatever its case. -/
def Lacks (ws : List String) (cs : List Char) : Prop :=
  ∀ m ∈ pieces (!isWord ·) cs, m ≠ [] → ∀ w ∈ ws, ¬Spelled w.toList m

instance (ws : List String) (cs : List Char) : Decidable (Lacks ws cs) :=
  inferInstanceAs (Decidable (∀ m ∈ _, _))

namespace Lacks

variable {ws ws' : List String} {u v cs : List Char} {c : Char}

theorem mono (h : Lacks ws cs) (hs : ws' ⊆ ws) : Lacks ws' cs :=
  fun m hm hne w hw => h m hm hne w (hs hw)

/-- A character outside words cuts the question in two. -/
theorem append_iff (hc : isWord c = false) : Lacks ws (u ++ c :: v) ↔ Lacks ws u ∧ Lacks ws v := by
  have hcut : pieces (!isWord ·) (u ++ c :: v) = pieces (!isWord ·) u ++ pieces (!isWord ·) v :=
    pieces_append (by simp [hc]) u v
  simp only [Lacks, hcut, List.forall_mem_append]

@[simp] theorem nil : Lacks ws [] := by
  intro m hm hne
  simp [pieces] at hm
  contradiction

theorem cons_iff (hc : isWord c = false) : Lacks ws (c :: v) ↔ Lacks ws v := by
  have h : Lacks ws ([] ++ c :: v) ↔ Lacks ws [] ∧ Lacks ws v := append_iff hc
  simpa using h

@[simp] theorem space_cons : Lacks ws (' ' :: v) ↔ Lacks ws v :=
  cons_iff (by decide)

@[simp] theorem append_space : Lacks ws (u ++ ' ' :: v) ↔ Lacks ws u ∧ Lacks ws v :=
  append_iff (by decide)

@[simp] theorem spaces_append (n : Nat) : Lacks ws (List.replicate n ' ' ++ v) ↔ Lacks ws v := by
  induction n with
  | zero => rfl
  | succ n ih => rw [List.replicate_succ, List.cons_append, space_cons, ih]

theorem of_word (hm : ∀ c ∈ cs, isWord c = true) (h : ∀ w ∈ ws, ¬Spelled w.toList cs) : Lacks ws cs := by
  intro m hp hne w hw
  rw [pieces_of_forall fun c hc => by simp [hm c hc], List.mem_singleton] at hp
  rw [hp]
  exact h w hw

end Lacks

end Text

open Text (Lacks)

namespace Pattern

/-- The text opens with one of the words, and the word ends there. -/
def Opens (ws : List String) (v : List Char) : Prop :=
  ∃ k ∈ ws, ∃ m x, v = m ++ x ∧ Spelled k.toList m ∧ isWordAt x.head? = false

/-- Every word is one of letters. -/
def Lettered (ws : List String) : Prop := ∀ k ∈ ws, k.toList ≠ [] ∧ ∀ l ∈ k.toList, l.isAlpha = true

instance (ws : List String) : Decidable (Lettered ws) := inferInstanceAs (Decidable (∀ k ∈ ws, _))

section Opens

variable {ws : List String} {u v m x : List Char}

theorem Opens.exists_word (h : Opens ws v) (hws : Lettered ws) : ∃ k ∈ ws, ∃ m x, v = m ++ x ∧
    Spelled k.toList m ∧ m ≠ [] ∧ (∀ c ∈ m, isWord c = true) ∧ isWordAt x.head? = false := by
  obtain ⟨k, hk, m, x, hv, hm, hx⟩ := h
  obtain ⟨hne, hl⟩ := hws k hk
  exact ⟨k, hk, m, x, hv, hm, hm.ne_nil hne, hm.isWord hl, hx⟩

/-- A text that lacks the words opens with none of them at any start of a word. -/
theorem not_opens_of_lacks (hws : Lettered ws) (h : Lacks ws (u ++ v)) (hu : isWordAt u.getLast? = false) :
    ¬Opens ws v := by
  intro ho
  obtain ⟨k, hk, m, x, rfl, hm, hne, hword, hx⟩ := ho.exists_word hws
  refine h m (Text.mem_pieces_iff.mpr ⟨by simpa using hword, u, x, by simp, ?_, ?_⟩) hne k hk hm
  · intro d hd
    rw [Option.mem_def.mp hd] at hu
    simpa [isWordAt] using hu
  · intro d hd
    rw [Option.mem_def.mp hd] at hx
    simpa [isWordAt] using hx

theorem eq_of_append_eq_append {n y : List Char} (h : m ++ x = n ++ y) (hm : ∀ c ∈ m, isWord c = true)
    (hn : ∀ c ∈ n, isWord c = true) (hx : isWordAt x.head? = false) (hy : isWordAt y.head? = false) :
    m = n := by
  rcases List.append_eq_append_iff.mp h with ⟨z, rfl, rfl⟩ | ⟨z, rfl, rfl⟩
  · cases z with
    | nil => simp
    | cons c z => simp [isWordAt, hn c] at hx
  · cases z with
    | nil => simp
    | cons c z => simp [isWordAt, hm c] at hy

/-- A text opens with one word only. -/
theorem not_opens_of_word (hws : Lettered ws) (hm : ∀ c ∈ m, isWord c = true)
    (hx : isWordAt x.head? = false) (h : ∀ k ∈ ws, ¬Spelled k.toList m) : ¬Opens ws (m ++ x) := by
  intro ho
  obtain ⟨k, hk, n, y, hv, hn, -, hword, hy⟩ := ho.exists_word hws
  rw [← eq_of_append_eq_append hv hm hword hx hy] at hn
  exact h k hk hn

end Opens

/-! ### Headed patterns -/

/-- Every match stands where the text opens with one of the words. -/
def Headed (ws : List String) (p : Pattern) : Prop := ∀ u w x, Matches p u w x → Opens ws (w ++ x)

/-- Every text of the pattern is one of the words or goes on behind it with something else. -/
def Leads (ws : List String) (p : Pattern) : Prop :=
  ∀ w, p.Spells w → ∃ k ∈ ws, ∃ m y, w = m ++ y ∧ Spelled k.toList m ∧ isWordAt y.head? = false

theorem spells_seq_cons {p : Pattern} {ps : List Pattern} {w : List Char} (h : (seq (p :: ps)).Spells w) :
    ∃ u v, w = u ++ v ∧ p.Spells u ∧ (seq ps).Spells v := by
  cases ps with
  | nil => exact ⟨w, [], by simp, h, .empty⟩
  | cons q qs =>
    cases h with
    | both hu hv => exact ⟨_, _, rfl, hu, hv⟩

theorem spelled_of_spells_letters {w m : List Char} (h : (seq (w.map fun l => one (sameLetter l))).Spells m) :
    Spelled w m := by
  induction w generalizing m with
  | nil =>
    cases h
    exact .nil
  | cons l w ih =>
    obtain ⟨u, v, rfl, hu, hv⟩ := spells_seq_cons h
    cases hu with
    | one hc => exact .cons hc (ih hv)

theorem spells_gap {w : List Char} (h : gap.Spells w) :
    ∃ c cs, w = c :: cs ∧ ∀ d ∈ c :: cs, isBlank d = true := by
  obtain ⟨hne, hall⟩ := spells_some1 h
  obtain ⟨c, cs, rfl⟩ := List.exists_cons_of_ne_nil hne
  exact ⟨c, cs, rfl, hall⟩

namespace Leads

variable {ws ws' : List String} {p q : Pattern} {ps : List Pattern} {n : Nat}

theorem mono (h : Leads ws p) (hs : ws ⊆ ws') : Leads ws' p := by
  intro w hw
  obtain ⟨k, hk, hm⟩ := h w hw
  exact ⟨k, hs hk, hm⟩

theorem word (k : String) : Leads [k] (word k) :=
  fun w h => ⟨k, List.mem_singleton_self k, w, [], by simp, spelled_of_spells_letters h, rfl⟩

theorem group (h : Leads ws p) : Leads ws (.group n p) := by
  intro w hw
  cases hw with
  | group hw => exact h w hw

theorem either (hp : Leads ws p) (hq : Leads ws q) : Leads ws (.either p q) := by
  intro w hw
  cases hw with
  | left hw => exact hp w hw
  | right hw => exact hq w hw

theorem oneOf (h : ∀ p ∈ ps, Leads ws p) : Leads ws (oneOf ps) := by
  induction ps with
  | nil =>
    intro w hw
    cases hw
    contradiction
  | cons p ps ih =>
    obtain ⟨hp, hps⟩ := List.forall_mem_cons.mp h
    cases ps with
    | nil => exact hp
    | cons q qs => exact hp.either (ih hps)

/-- Behind the word may stand what begins with no character of words. -/
theorem both (hp : Leads ws p) (hq : ∀ w, q.Spells w → isWordAt w.head? = false) : Leads ws (.both p q) := by
  intro w hw
  cases hw with
  | @both _ _ u v hu hv =>
    obtain ⟨k, hk, m, y, rfl, hm, hy⟩ := hp u hu
    refine ⟨k, hk, m, y ++ v, by simp, hm, ?_⟩
    cases y with
    | nil => exact hq v hv
    | cons c y => exact hy

theorem seq_gap (hp : Leads ws p) : Leads ws (seq (p :: gap :: ps)) := by
  refine hp.both fun w hw => ?_
  obtain ⟨u, v, rfl, hu, -⟩ := spells_seq_cons hw
  obtain ⟨c, cs, rfl, hc⟩ := spells_gap hu
  exact Text.isWord_of_isBlank (hc c List.mem_cons_self)

/-- The words that phrases begin with. -/
def firstWords (ws : List String) : List String :=
  ws.map fun w => String.ofList ((pieces (· = ' ') w.toList).headD [])

theorem phrases (ws : List String) : Leads (firstWords ws) (phrases ws) := by
  refine oneOf fun p hp => ?_
  obtain ⟨w, hw, rfl⟩ := List.mem_map.mp hp
  have hfirst : String.ofList ((pieces (· = ' ') w.toList).headD []) ∈ firstWords ws := List.mem_map_of_mem hw
  rw [phrase]
  obtain ⟨a, as, ha⟩ : ∃ a as, pieces (· = ' ') w.toList = a :: as :=
    List.exists_cons_of_ne_nil (Text.pieces_ne_nil _)
  rw [ha] at hfirst ⊢
  have hsub : [String.ofList a] ⊆ firstWords ws := by simpa using hfirst
  cases as with
  | nil => exact (word _).mono hsub
  | cons b as =>
    rw [List.map_cons, List.map_cons, List.intersperse_cons_cons]
    exact (word _).seq_gap.mono hsub

/-- Such a pattern fails where no word begins. -/
theorem fails (h : Leads ws p) (hws : ∀ k ∈ ws, k.toList.head?.any Char.isAlpha = true) {u v : List Char}
    {c : Char} (hc : isWord c = false) : Fails p u (c :: v) := by
  refine Avoids.fails (f := fun c => !isWord c) (fun w hw => ?_) (by simp [hc])
  obtain ⟨k, hk, m, y, rfl, hm, -⟩ := h w hw
  have hl := hws k hk
  generalize k.toList = letters at hm hl
  cases hm with
  | nil => simp at hl
  | cons hd _ => exact ⟨_, _, rfl, by simp [isWord_of_sameLetter (by simpa using hl) hd]⟩

end Leads

section Headed

variable {ws ws' : List String} {p : Pattern} {ps : List Pattern}

theorem Headed.mono (h : Headed ws p) (hs : ws ⊆ ws') : Headed ws' p := by
  intro u w x hm
  obtain ⟨k, hk, ho⟩ := h u w x hm
  exact ⟨k, hs hk, ho⟩

theorem headed_gap (hp : Leads ws p) : Headed ws (seq (p :: gap :: ps)) := by
  intro u w x hm
  cases (hm : Matches (both p (seq (gap :: ps))) u w x) with
  | @both _ _ _ v w _ hv hw =>
    obtain ⟨k, hk, m, y, rfl, hspelled, hy⟩ := hp v hv.spells
    refine ⟨k, hk, m, y ++ (w ++ x), by simp, hspelled, ?_⟩
    cases y with
    | cons c y => exact hy
    | nil =>
      obtain ⟨a, b, rfl, ha, -⟩ := spells_seq_cons hw.spells
      obtain ⟨c, cs, rfl, hc⟩ := spells_gap ha
      exact Text.isWord_of_isBlank (hc c List.mem_cons_self)

theorem headed_edge {k : String} (hk : Lettered [k]) : Headed [k] (both (word k) edge) := by
  intro u w x hm
  cases hm with
  | @both _ _ _ v w _ hv hw =>
    have hspelled := spelled_of_spells_letters hv.spells
    obtain ⟨hne, hl⟩ := hk k (List.mem_singleton_self k)
    cases hw with
    | edge hedge =>
      rw [Cursor.atEdge_behind (hspelled.ne_nil hne) (hspelled.isWord hl)] at hedge
      exact ⟨k, List.mem_singleton_self k, v, x, by simp, hspelled, by simpa using hedge⟩

/-- A headed pattern matches nothing in front of any other word. -/
theorem Headed.not_matches (h : Headed ws p) (hws : Lettered ws) {u w y m x : List Char} (hwy : w ++ y = m ++ x)
    (hm : ∀ c ∈ m, isWord c = true) (hx : isWordAt x.head? = false) (hk : ∀ k ∈ ws, ¬Spelled k.toList m) :
    ¬Matches p u w y := by
  intro hmatch
  have ho := h u w y hmatch
  rw [hwy] at ho
  exact not_opens_of_word hws hm hx hk ho

theorem Headed.fails_word (h : Headed ws p) (hws : Lettered ws) {u m x : List Char}
    (hm : ∀ c ∈ m, isWord c = true) (hx : isWordAt x.head? = false) (hk : ∀ k ∈ ws, ¬Spelled k.toList m) :
    Fails p u (m ++ x) :=
  fails_of_matches fun _ _ hv => h.not_matches hws hv.symm hm hx hk

end Headed

/-! ### Scanning -/

/-- A match stands where a word begins, and that is one of the words. -/
def Keyed (ws : List String) (p : Pattern) : Prop :=
  ∀ u w x, Matches p u w x → isWordAt u.getLast? = false ∧ Opens ws (w ++ x)

/-- One of the words stands where a match does or behind it. -/
def Needs (ws : List String) (p : Pattern) : Prop :=
  ∀ u w x, Matches p u w x → ∃ v y, w ++ x = v ++ y ∧ isWordAt (u ++ v).getLast? = false ∧ Opens ws y

section Scan

variable {ws ws' : List String} {p q : Pattern} {u v pre a b cs : List Char} {low : Nat}

theorem isWordAt_last (h : isWordAt (u ++ a).getLast? = false) : isWordAt a.getLast? = false := by
  rw [List.getLast?_append] at h
  cases ha : a.getLast? with
  | none => rfl
  | some c =>
    rw [ha] at h
    exact h

theorem Keyed.needs (h : Keyed ws p) : Needs ws p := by
  intro u w x hm
  obtain ⟨hu, ho⟩ := h u w x hm
  exact ⟨[], w ++ x, rfl, by simpa using hu, ho⟩

theorem Headed.keyed (h : Headed ws p) (hws : Lettered ws) : Keyed ws (both edge p) := by
  intro u w x hm
  cases hm with
  | @both _ _ _ v w _ hv hw =>
    cases hv with
    | edge hedge =>
      have ho := h _ w x hw
      obtain ⟨-, -, m, y, hv, -, hne, hm, -⟩ := ho.exists_word hws
      rw [hv, Cursor.atEdge_before hne hm] at hedge
      exact ⟨by simpa using hedge, ho⟩

theorem Keyed.fails (h : Keyed ws p) (hws : Lettered ws) (hv : Lacks ws v) (hab : v = a ++ b) :
    Fails p (u ++ a) b := by
  refine fails_of_matches fun w x hb hm => ?_
  obtain ⟨hu, ho⟩ := h _ w x hm
  rw [← hb] at ho
  rw [hab] at hv
  exact not_opens_of_lacks hws hv (isWordAt_last hu) ho

/-- It fails as well where such a text stands before another word. -/
theorem Keyed.fails_before (h : Keyed ws p) (hws : Lettered ws) (hpre : Lacks ws pre)
    (hend : isWordAt pre.getLast? = false) (hab : pre = a ++ b) (hb : b ≠ []) : Fails p (u ++ a) (b ++ v) := by
  refine fails_of_matches fun w x hbv hm => ?_
  obtain ⟨hu, ho⟩ := h _ w x hm
  obtain ⟨k, hk, m, y, hmy, hspelled, -, hword, hy⟩ := ho.exists_word hws
  rw [← hbv] at hmy
  have hlast : isWordAt b.getLast? = false := by
    rw [hab, List.getLast?_append, List.getLast?_eq_some_getLast hb] at hend
    rwa [List.getLast?_eq_some_getLast hb]
  rcases List.append_eq_append_iff.mp hmy with ⟨z, rfl, rfl⟩ | ⟨z, rfl, rfl⟩
  · -- The word would run on to the end of the text, which is no word.
    have hmem : b.getLast hb ∈ b ++ z := List.mem_append_left _ (List.getLast_mem hb)
    rw [List.getLast?_eq_some_getLast hb] at hlast
    simp [isWordAt, hword _ hmem] at hlast
  · rw [hab] at hpre
    refine not_opens_of_lacks hws hpre (isWordAt_last hu) ⟨k, hk, m, z, rfl, hspelled, ?_⟩
    cases z with
    | cons c z => exact hy
    | nil => rfl

theorem Keyed.findFrom?_skip (h : Keyed ws p) (hws : Lettered ws) (hpre : Lacks ws pre)
    (hend : isWordAt pre.getLast? = false) :
    p.findFrom? low (.between u (pre ++ v)) (pre ++ v) = p.findFrom? low (.between (u ++ pre) v) v :=
  Pattern.findFrom?_skip fun _ _ hab hb => h.fails_before hws hpre hend hab hb

theorem Keyed.hitsFrom_skip (h : Keyed ws p) (hws : Lettered ws) (hpre : Lacks ws pre)
    (hend : isWordAt pre.getLast? = false) :
    p.hitsFrom low (.between u (pre ++ v)) (pre ++ v) = p.hitsFrom low (.between (u ++ pre) v) v :=
  Pattern.hitsFrom_skip fun _ _ hab hb => h.fails_before hws hpre hend hab hb

theorem isWordAt_concat_space (a : List Char) : isWordAt (a ++ [' ']).getLast? = false := by
  rw [List.getLast?_concat]
  exact (by decide : isWord ' ' = false)

/-- The first hit stands behind a text that lacks the words. -/
theorem Keyed.find?_eq {w x : List Char} {g : Captures} (h : Keyed ws p) (hws : Lettered ws) (ha : Lacks ws a)
    (hp : Prefers p (a ++ [' ']) w x g) : p.find? (a ++ ' ' :: (w ++ x)) = some (.behind (a ++ [' ']) w g) := by
  have hskip : p.findFrom? 0 (.between [] (a ++ [' '] ++ (w ++ x))) (a ++ [' '] ++ (w ++ x)) =
      p.findFrom? 0 (.between ([] ++ (a ++ [' '])) (w ++ x)) (w ++ x) :=
    h.findFrom?_skip hws (Lacks.append_space.mpr ⟨ha, .nil⟩) (isWordAt_concat_space a)
  rw [List.append_assoc, List.singleton_append, List.nil_append, hp.findFrom? (Nat.zero_le _)] at hskip
  exact hskip

theorem Keyed.hits_eq {w x : List Char} {g : Captures} (h : Keyed ws p) (hws : Lettered ws) (ha : Lacks ws a)
    (hp : Prefers p (a ++ [' ']) w x g) (hw : w ≠ []) : p.hits (a ++ ' ' :: (w ++ x)) =
      .behind (a ++ [' ']) w g :: p.hitsFrom (size (a ++ [' '] ++ w)) (.between (a ++ [' '] ++ w) x) x := by
  have hskip : p.hitsFrom 0 (.between [] (a ++ [' '] ++ (w ++ x))) (a ++ [' '] ++ (w ++ x)) =
      p.hitsFrom 0 (.between ([] ++ (a ++ [' '])) (w ++ x)) (w ++ x) :=
    h.hitsFrom_skip hws (Lacks.append_space.mpr ⟨ha, .nil⟩) (isWordAt_concat_space a)
  rw [List.append_assoc, List.singleton_append, List.nil_append, hp.hitsFrom hw (Nat.zero_le _)] at hskip
  exact hskip

theorem Keyed.hitsFrom_eq_nil (h : Keyed ws p) (hws : Lettered ws) (hv : Lacks ws v) :
    p.hitsFrom low (.between u v) v = [] :=
  Pattern.hitsFrom_eq_nil fun _ _ hab => h.fails hws hv hab

theorem Needs.fails (h : Needs ws p) (hws : Lettered ws) (hcs : Lacks ws cs) (hab : cs = a ++ b) : Fails p a b := by
  refine fails_of_matches fun w x hb hm => ?_
  obtain ⟨v, y, hvy, hv, ho⟩ := h a w x hm
  rw [← hb] at hvy
  rw [hab, hvy, ← List.append_assoc] at hcs
  exact not_opens_of_lacks hws hcs hv ho

theorem Needs.findAfter?_eq_none (h : Needs ws p) (hws : Lettered ws) (hcs : Lacks ws cs) :
    p.findAfter? low cs = none :=
  Pattern.findFrom?_eq_none (u := []) fun _ _ hab => h.fails hws hcs hab

theorem Needs.hits_eq_nil (h : Needs ws p) (hws : Lettered ws) (hcs : Lacks ws cs) : p.hits cs = [] :=
  Pattern.hitsFrom_eq_nil (u := []) fun _ _ hab => h.fails hws hcs hab

theorem Needs.find?_eq_none (h : Needs ws p) (hws : Lettered ws) (hcs : Lacks ws cs) : p.find? cs = none :=
  h.findAfter?_eq_none hws hcs

end Scan

end Pattern
end Parlance
