import Parlance.Proofs.Interpretation.Grounded
import Parlance.Proofs.Pattern.Capture
import Parlance.Proofs.Text.Words

/-! What is left of a text and what is blamed on it. Taking a part of the text puts spaces in its place, so
that no step finds a word that the text did not have; and a step that refuses the request does so
for a word of the text that stands for no column. -/

namespace Parlance

open Pattern (IsName)

namespace Text

/-- Every word of `cs'` is a part of `cs`. -/
def Leaves (cs cs' : List Char) : Prop := ∀ w, ' ' ∉ w → w <:+: cs' → w <:+: cs

theorem infix_of_infix_space {w a b : List Char} (hw : ' ' ∉ w) (h : w <:+: a ++ ' ' :: b) : w <:+: a ∨ w <:+: b := by
  induction a with
  | nil =>
    rcases List.infix_cons_iff.mp h with h | h
    · rcases List.prefix_cons_iff.mp h with rfl | ⟨v, rfl, -⟩
      · exact .inl List.nil_infix
      · exact absurd List.mem_cons_self hw
    · exact .inr h
  | cons c a ih =>
    rw [List.cons_append] at h
    rcases List.infix_cons_iff.mp h with h | h
    · -- A word that begins here ends before the space.
      left
      obtain ⟨t, ht⟩ := h
      rw [← List.cons_append] at ht
      rcases List.append_eq_append_iff.mp ht with ⟨z, hz, -⟩ | ⟨z, rfl, hz⟩
      · exact ⟨[], z, hz.symm⟩
      · cases z with
        | nil => exact ⟨[], [], by simp⟩
        | cons d z =>
          obtain ⟨rfl, -⟩ := List.cons.inj hz
          exact absurd (by simp) hw
    · exact (ih h).imp_left fun h => h.trans (List.suffix_cons c a).isInfix

theorem infix_of_infix_spaces {w a b : List Char} (hw : ' ' ∉ w) {n : Nat} (hn : n ≠ 0)
    (h : w <:+: a ++ List.replicate n ' ' ++ b) : w <:+: a ∨ w <:+: b := by
  induction n generalizing a with
  | zero => exact absurd rfl hn
  | succ n ih =>
    rw [List.replicate_succ, List.append_assoc, List.cons_append] at h
    refine (infix_of_infix_space hw h).imp_right fun h => ?_
    by_cases hzero : n = 0
    · subst hzero
      exact h
    · rcases ih (a := []) hzero h with h | h
      · exact h.trans List.nil_infix
      · exact h

namespace Leaves

variable {cs cs' cs'' : List Char}

theorem refl (cs : List Char) : Leaves cs cs := fun _ _ h => h

theorem trans (h : Leaves cs cs') (h' : Leaves cs' cs'') : Leaves cs cs'' := fun w hw hin => h w hw (h' w hw hin)

theorem of_isInfix (h : cs' <:+: cs) : Leaves cs cs' := fun _ _ hin => hin.trans h

theorem dropTo (n : Nat) (cs : List Char) : Leaves cs (Text.dropTo n cs) :=
  .of_isInfix (List.IsSuffix.isInfix ⟨_, takeTo_append_dropTo n cs⟩)

theorem takeTo (n : Nat) (cs : List Char) : Leaves cs (Text.takeTo n cs) :=
  .of_isInfix (List.IsPrefix.isInfix ⟨_, takeTo_append_dropTo n cs⟩)

theorem blankOut {s : Span} (hs : s.start ≤ s.stop) (cs : List Char) : Leaves cs (Text.blankOut s cs) := by
  intro w hw h
  by_cases hempty : s.stop - s.start = 0
  · have hsame : s.stop = s.start := by omega
    rw [Text.blankOut, hempty, hsame, List.replicate_zero, List.append_nil, takeTo_append_dropTo] at h
    exact h
  · rcases infix_of_infix_spaces hw hempty h with h | h
    · exact Leaves.takeTo _ cs w hw h
    · exact Leaves.dropTo _ cs w hw h

theorem trim (cs : List Char) : Leaves cs (Text.trim cs) := by
  obtain ⟨bs, es, hcs, -⟩ := trim_append cs
  exact .of_isInfix ⟨bs, es, hcs.symm⟩

theorem dropEndWhile (p : Char → Bool) (cs : List Char) : Leaves cs (Text.dropEndWhile p cs) := by
  obtain ⟨es, hcs, -⟩ := dropEndWhile_append p cs
  exact .of_isInfix (List.IsPrefix.isInfix ⟨es, hcs.symm⟩)

theorem squeeze_blank {c : Char} (hc : isBlank c = true) (cs : List Char) : ∃ r, squeeze (c :: cs) = ' ' :: r := by
  induction cs generalizing c with
  | nil => exact ⟨[], by simp [squeeze, hc]⟩
  | cons d cs ih =>
    rw [squeeze, if_pos hc]
    by_cases hd : isBlank d = true
    · simpa [hd] using ih hd
    · simp [hd]

theorem prefix_of_prefix_squeeze {w : List Char} (hw : ' ' ∉ w) (h : w <+: squeeze cs) : w <+: cs := by
  induction cs generalizing w with
  | nil => exact h
  | cons c cs ih =>
    cases w with
    | nil => exact List.nil_prefix
    | cons d w =>
      by_cases hc : isBlank c = true
      · obtain ⟨r, hr⟩ := squeeze_blank hc cs
        rw [hr] at h
        obtain ⟨rfl, -⟩ := List.cons_prefix_cons.mp h
        exact absurd List.mem_cons_self hw
      · rw [squeeze.eq_def] at h
        simp only [hc, Bool.false_eq_true, if_false] at h
        obtain ⟨rfl, hrest⟩ := List.cons_prefix_cons.mp h
        exact List.cons_prefix_cons.mpr ⟨rfl, ih (fun hmem => hw (.tail _ hmem)) hrest⟩

theorem squeeze (cs : List Char) : Leaves cs (Text.squeeze cs) := by
  intro w hw h
  induction cs with
  | nil => exact h
  | cons c cs ih =>
    have hrest : cs <:+: c :: cs := (List.suffix_cons c cs).isInfix
    by_cases hc : isBlank c = true
    · cases cs with
      | nil =>
        simp only [Text.squeeze, hc, if_true] at h
        rcases infix_of_infix_space (a := []) hw h with h | h
        · exact h.trans List.nil_infix
        · exact h.trans List.nil_infix
      | cons d cs =>
        rw [Text.squeeze, if_pos hc] at h
        split at h
        · exact (ih h).trans hrest
        · rcases infix_of_infix_space (a := []) hw h with h | h
          · exact h.trans List.nil_infix
          · exact (ih h).trans hrest
    · have hcons : Text.squeeze (c :: cs) = c :: Text.squeeze cs := by
        rw [Text.squeeze.eq_def]
        simp only [hc, Bool.false_eq_true, if_false]
      rcases List.infix_cons_iff.mp (hcons ▸ h) with h | h
      · exact (prefix_of_prefix_squeeze hw (hcons ▸ h)).isInfix
      · exact (ih h).trans hrest

end Leaves

end Text

open Text (Leaves)

namespace Interpretation

open Grammar (ConditionForm columnGroup)

/-- A word of the text stands for no column. -/
def Subject.Blames (s : Subject) (cs : List Char) (e : Error) : Prop :=
  ∃ w, ' ' ∉ w ∧ w <:+: cs ∧ s.resolve w = .error e

/-- The step refuses the request for a word of the text only, and leaves no new words. -/
def Subject.Answers {α : Type} (s : Subject) (ws : Workspace) (r : Taken α) : Prop :=
  Gives (s.Blames ws.text) (fun _ => True) r.1 ∧ Leaves ws.text r.2.text

variable {s : Subject}

theorem Subject.Blames.of_leaves {cs cs' : List Char} (h : Leaves cs cs') {e : Error} (he : s.Blames cs' e) :
    s.Blames cs e := by
  obtain ⟨w, hw, hin, hr⟩ := he
  exact ⟨w, hw, h w hw hin, hr⟩

section Gives

variable {α : Type} {cs cs' : List Char}

theorem gives_of_leaves {P : α → Prop} {x : Except Error α} (h : Leaves cs cs') (hx : Gives (s.Blames cs') P x) :
    Gives (s.Blames cs) P x :=
  hx.mono (fun _ => .of_leaves h) fun _ ha => ha

theorem Subject.Answers.kept {ws : Workspace} {r : Taken α} (h : s.Answers ws r) :
    Gives (s.Blames ws.text) (fun a => Leaves ws.text a.2.text) r.kept :=
  h.1.map fun _ _ => h.2

theorem blames_resolve {w : List Char} (hw : IsName w) (hin : w <:+: cs) :
    Gives (s.Blames cs) (fun _ => True) (s.resolve w) := by
  cases hr : s.resolve w with
  | ok c => trivial
  | error e =>
    refine ⟨w, fun hmem => ?_, hin, hr⟩
    exact absurd (hw.isNameChar ' ' hmem) (by decide)

end Gives

/-- A name that a hit captures is a word of the text. -/
theorem blames_group {p : Pattern} {n : Nat} (hp : NamesIn n p) {cs : List Char} {h : Pattern.Hit} (hof : h.Of p)
    (hin : h.Inside cs) : Gives (s.Blames cs) (fun _ => True) (s.resolve ((h.text? n).getD [])) :=
  blames_resolve (isName_of_hit hof hp.1 hp.2) (hin.group n)

/-! ### Conditions -/

theorem blames_predicateOf (form : ConditionForm) {column cs : List Char} (v : List Char)
    (hr : Gives (s.Blames cs) (fun _ => True) (s.resolve column)) :
    Gives (s.Blames cs) (fun _ => True) (predicateOf s form column v) := by
  cases form with
  | implicit =>
    simp only [predicateOf]
    split <;> trivial
  | isNull | isNotNull | like => exact hr.bind fun _ _ => trivial
  | compare op => cases op <;> exact hr.bind fun _ _ => trivial

theorem blames_firstCondition {forms : List (ConditionForm × Pattern)} (hf : ∀ f ∈ forms, NamesIn columnGroup f.2)
    (cs : List Char) : Gives (s.Blames cs) (fun _ => True) (firstCondition s cs forms) := by
  induction forms with
  | nil => trivial
  | cons f forms ih =>
    obtain ⟨hname, hforms⟩ := List.forall_mem_cons.mp hf
    have hrest := ih hforms
    simp only [firstCondition]
    split
    · exact hrest
    · next h hh =>
      split
      · exact hrest
      · have hr := blames_group (s := s) hname (Pattern.find?_of hh) (Pattern.inside_of_find? hh)
        refine (blames_predicateOf f.1 _ hr).bind fun q _ => ?_
        cases q with
        | none => exact hrest
        | some q => trivial

theorem blames_condition? (cs : List Char) : Gives (s.Blames cs) (fun _ => True) (condition? s cs) :=
  blames_firstCondition (fun _ hf => namesIn_of_mem_conditionForms hf) cs

theorem blames_chainFrom (fuel : Nat) (c : Connective) (cs : List Char) :
    Gives (s.Blames cs) (fun _ => True) (chainFrom s fuel c cs) := by
  induction fuel generalizing c cs with
  | zero => trivial
  | succ fuel ih =>
    refine (blames_condition? cs).bind fun q _ => ?_
    cases q with
    | none => trivial
    | some e =>
      dsimp only
      split
      · trivial
      · -- The chain goes on in a part of the text.
        have hnext (n : Nat) := (Leaves.dropTo e.2 cs).trans (.dropTo n _)
        refine (gives_of_leaves (hnext _) (blames_condition? _)).bind fun q' _ => ?_
        cases q' with
        | none => trivial
        | some _ => exact (gives_of_leaves (hnext _) (ih _ _)).bind fun _ _ => trivial

theorem answers_conditionsFrom (fuel low : Nat) (ws : Workspace) : s.Answers ws (conditionsFrom s fuel low ws) := by
  induction fuel generalizing low ws with
  | zero => exact ⟨trivial, .refl _⟩
  | succ fuel ih =>
    simp only [conditionsFrom]
    split
    · exact ⟨trivial, .refl _⟩
    · next h hh =>
      have hchain : Gives (s.Blames ws.text) (fun _ => True) (chain s (ws.after h.span.stop)) :=
        gives_of_leaves (.dropTo _ _) (blames_chainFrom _ _ _)
      split
      · next e he =>
        rw [he] at hchain
        exact ⟨hchain, .refl _⟩
      · exact ih _ _
      · next terms n _ he =>
        have hspan := (Pattern.inside_of_findAfter? hh).span_le
        have htaken : Leaves ws.text (ws.take ⟨h.span.start, h.span.stop + n⟩).text :=
          .blankOut (by simp only; omega) _
        obtain ⟨hmore, hleft⟩ := ih (h.span.stop + n) (ws.take ⟨h.span.start, h.span.stop + n⟩)
        exact ⟨(gives_of_leaves htaken hmore).map fun _ _ => trivial, htaken.trans hleft⟩

theorem answers_takeConditions (ws : Workspace) : s.Answers ws (takeConditions s ws) :=
  answers_conditionsFrom _ _ ws

/-! ### Values -/

theorem blames_assignmentsFrom (fuel : Nat) (cs : List Char) :
    Gives (s.Blames cs) (fun _ => True) (assignmentsFrom s fuel cs) := by
  induction fuel generalizing cs with
  | zero => trivial
  | succ fuel ih =>
    simp only [assignmentsFrom]
    split
    · trivial
    · next h hh =>
      split
      · trivial
      · refine (blames_group namesIn_assignment (Pattern.find?_of hh) (Pattern.inside_of_find? hh)).bind fun c _ => ?_
        split
        · trivial
        · split
          · have hnext (n : Nat) := (Leaves.dropTo h.span.stop cs).trans (.dropTo n _)
            exact (gives_of_leaves (hnext _) (ih _)).bind fun _ _ => trivial
          · trivial

theorem answers_takePairs {cue : Text.Span} (hcue : cue.start ≤ cue.stop) (ws : Workspace) :
    s.Answers ws (takePairs s cue ws) := by
  have hpairs : Gives (s.Blames ws.text) (fun _ => True) (assignments s (ws.after cue.stop)) :=
    gives_of_leaves (.dropTo _ _) (blames_assignmentsFrom _ _)
  simp only [takePairs]
  split
  · next e he =>
    rw [he] at hpairs
    exact ⟨hpairs, .refl _⟩
  · exact ⟨trivial, .refl _⟩
  · next new n _ he => exact ⟨trivial, .blankOut (by simp only; omega) _⟩

theorem leaves_takeNamed (ws : Workspace) : Leaves ws.text (takeNamed s ws).2.text := by
  simp only [takeNamed]
  split
  · exact .refl _
  · next h hh =>
    split
    · exact .refl _
    · exact .blankOut (Pattern.inside_of_find? hh).span_le _

theorem start_le_of_valuesStart? {tableEnd : Nat} {ws : Workspace} {start : Text.Span}
    (h : valuesStart? tableEnd ws = some start) : start.start ≤ start.stop := by
  simp only [valuesStart?] at h
  split at h
  · next hit hh =>
    cases h
    exact (Pattern.inside_of_find? hh).span_le
  · split at h
    · cases h
      exact Nat.le_add_right _ _
    · cases h

theorem answers_takeInsertValues (tableEnd : Nat) (ws : Workspace) :
    s.Answers ws (takeInsertValues s tableEnd ws) := by
  have hnamed := leaves_takeNamed (s := s) ws
  simp only [takeInsertValues]
  split
  · exact ⟨trivial, hnamed⟩
  · next start hstart =>
    obtain ⟨hnew, hleft⟩ := answers_takePairs (s := s) (start_le_of_valuesStart? hstart) (takeNamed s ws).2
    exact ⟨(gives_of_leaves hnamed hnew).map fun _ _ => trivial, hnamed.trans hleft⟩

theorem answers_takeSet (ws : Workspace) : s.Answers ws (takeSet s ws) := by
  simp only [takeSet]
  split
  · exact ⟨trivial, .refl _⟩
  · next h hh => exact answers_takePairs (Pattern.inside_of_find? hh).span_le ws

/-! ### Short clauses -/

theorem leaves_takeId (tableEnd : Nat) (ws : Workspace) : Leaves ws.text (takeId s tableEnd ws).2.text := by
  simp only [takeId]
  split
  · exact .refl _
  · split
    · exact .refl _
    · next h hh =>
      have hspan := (Pattern.inside_of_find? hh).span_le
      exact .blankOut (Nat.add_le_add_left hspan tableEnd) _

theorem answers_takeGroupBy (bare : Bool) (ws : Workspace) : s.Answers ws (takeGroupBy s bare ws) := by
  simp only [takeGroupBy]
  split
  · exact ⟨trivial, .refl _⟩
  · next h hh =>
    have hmem := List.mem_of_find?_eq_some hh
    have hin := Pattern.inside_of_mem_hits hmem
    have hr := blames_group (s := s) namesIn_groupBy (Pattern.mem_hits hmem) hin
    split
    · exact ⟨trivial, .blankOut hin.span_le _⟩
    · next e he =>
      rw [he] at hr
      exact ⟨hr, .refl _⟩

theorem answers_takeOrderBy (count : Bool) (ws : Workspace) : s.Answers ws (takeOrderBy s count ws) := by
  simp only [takeOrderBy]
  split
  · exact ⟨trivial, .refl _⟩
  · next h hh =>
    have hin := Pattern.inside_of_find? hh
    have hr : Gives (s.Blames ws.text) (fun _ => True) (orderColumn s count ((h.text? 1).getD [])) := by
      simp only [orderColumn]
      split
      · trivial
      · exact blames_group namesIn_orderBy (Pattern.find?_of hh) hin
    split
    · exact ⟨trivial, .blankOut hin.span_le _⟩
    · next e he =>
      rw [he] at hr
      exact ⟨hr, .refl _⟩

end Interpretation

namespace Interpreter

open Interpretation

variable {t : Interpreter} {s : Subject}

theorem leaves_normalize (cs : List Char) : Leaves cs (normalize cs) :=
  (((Leaves.trim cs).trans (.squeeze _)).trans (.dropEndWhile _ _)).trans (.dropEndWhile _ _)

theorem answers_takeFilter (id recency : Option Predicate) (ws : Workspace) :
    Gives (s.Blames ws.text) (fun r => Leaves ws.text r.2.text) (takeFilter s id recency ws) :=
  (answers_takeConditions ws).kept.bind fun _ hr => hr

theorem blames_takeRead (count : Bool) (id recency : Option Predicate) (ws : Workspace) :
    Gives (s.Blames ws.text) (fun _ => True) (t.takeRead s count id recency ws) := by
  refine (answers_takeFilter id recency ws).bind fun f hf => ?_
  refine (gives_of_leaves hf (answers_takeGroupBy count f.2).kept).bind fun g hg => ?_
  exact (gives_of_leaves (hf.trans hg) (answers_takeOrderBy count g.2).kept).bind fun _ _ => trivial

theorem blames_takeIntent (o : Operation) (verbEnd tableEnd : Nat) (id recency : Option Predicate) (ws : Workspace) :
    Gives (s.Blames ws.text) (fun _ => True) (t.takeIntent s o verbEnd tableEnd id recency ws) := by
  cases o with
  | insert => exact (answers_takeInsertValues tableEnd ws).kept.bind fun _ _ => trivial
  | update =>
    refine (answers_takeSet ws).kept.bind fun r hr => ?_
    exact (gives_of_leaves hr (answers_takeFilter id recency r.2)).bind fun _ _ => trivial
  | delete => exact (answers_takeFilter id recency ws).bind fun _ _ => trivial
  | count => exact (blames_takeRead true id recency ws).bind fun _ _ => trivial
  | select => exact (blames_takeRead false id recency ws).bind fun _ _ => trivial

end Interpreter

end Parlance
