import Parlance.Proofs.Filter.Meaning
import Parlance.Proofs.Interpretation.Source
import Parlance.Proofs.Interpretation.Stages
import Parlance.Proofs.Pattern.Search

/-! The chains of conditions that the cues of a text open. A run over the cues takes a chain together
with its cue and goes on where the chain ends; a cue that no condition follows is passed over. -/

namespace Parlance

open Text (size)

namespace Text

theorem size_dropTo_le (n : Nat) (cs : List Char) : size (dropTo n cs) ≤ size cs - n := by
  induction cs generalizing n with
  | nil => cases n <;> simp [dropTo, size]
  | cons c cs ih =>
    cases n with
    | zero => simp
    | succ n =>
      have hrest := ih (n + 1 - c.utf8Size)
      simp only [dropTo, size]
      omega

/-- Blanking a span of the text out does not make it longer. -/
theorem size_blankOut_le {a v : List Char} {n : Nat} (ha : size a ≤ n) (hn : n ≤ size (a ++ v)) :
    size (blankOut ⟨size a, n⟩ (a ++ v)) ≤ size (a ++ v) := by
  have hrest := size_dropTo_le n (a ++ v)
  simp only [blankOut, takeTo_size_append, size_append, size_spaces] at hrest hn ⊢
  omega

end Text

namespace Pattern

theorem stop_le_of_find? {p : Pattern} {cs : List Char} {h : Hit} (hh : p.find? cs = some h) :
    h.span.stop ≤ size cs := by
  obtain ⟨a, w, x, hf⟩ := findFrom?_eq_some (u := []) hh
  exact hf.stop_le

end Pattern

namespace Interpretation

open Grammar (ConditionForm conditionCue)

variable {s : Subject}

/-! ### Chains -/

theorem isGroup_equality (c : String) (v : List Char) : (equality c v).isGroup = false := by
  unfold equality
  split <;> rfl

theorem isGroup_predicateOf {form : ConditionForm} {column v : List Char} {p : Predicate}
    (h : predicateOf s form column v = .ok (some p)) : p.isGroup = false := by
  cases form with
  | implicit =>
    simp only [predicateOf] at h
    split at h
    · cases h
    · split at h
      · cases h
      · cases h
        exact isGroup_equality _ _
  | isNull | isNotNull | like mode =>
    obtain ⟨c, -, h⟩ := bind_eq_ok h
    cases h
    rfl
  | compare op =>
    cases op with
    | equal =>
      obtain ⟨c, -, h⟩ := bind_eq_ok h
      cases h
      exact isGroup_equality _ _
    | notEqual =>
      obtain ⟨c, -, h⟩ := bind_eq_ok h
      cases h
      split <;> rfl
    | greater | greaterEqual | less | lessEqual =>
      obtain ⟨c, -, h⟩ := bind_eq_ok h
      cases h
      rfl

theorem condition?_eq_some {cs : List Char} {p : Predicate} {n : Nat}
    (h : condition? s cs = .ok (some (p, n))) : p.isGroup = false ∧ n ≤ size cs := by
  obtain ⟨f, -, hit, v, hh, rfl, hp⟩ := form_of_condition? h
  exact ⟨isGroup_predicateOf hp, Pattern.stop_le_of_find? hh⟩

theorem chainFrom_eq_ok {fuel : Nat} {c : Connective} {cs : List Char} {f : Filter} {n : Nat}
    (h : chainFrom s fuel c cs = .ok (f, n)) : (∀ t ∈ f, t.2.isGroup = false) ∧ n ≤ size cs := by
  induction fuel generalizing c cs f n with
  | zero =>
    cases h
    exact ⟨fun t ht => (nomatch ht), Nat.zero_le _⟩
  | succ fuel ih =>
    obtain ⟨q, hq, h⟩ := bind_eq_ok h
    cases q with
    | none =>
      cases h
      exact ⟨fun t ht => (nomatch ht), Nat.zero_le _⟩
    | some e =>
      obtain ⟨p, k⟩ := e
      obtain ⟨hp, hk⟩ := condition?_eq_some hq
      have hone : ∀ t ∈ [(c, p)], t.2.isGroup = false := by simpa using hp
      dsimp only at h
      split at h
      · cases h
        exact ⟨hone, hk⟩
      · next hit hh =>
        obtain ⟨q, -, h⟩ := bind_eq_ok h
        cases q with
        | none =>
          cases h
          exact ⟨hone, hk⟩
        | some _ =>
          obtain ⟨⟨terms, m⟩, hr, h⟩ := bind_eq_ok h
          cases h
          obtain ⟨hterms, hm⟩ := ih hr
          refine ⟨List.forall_mem_cons.mpr ⟨hp, hterms⟩, ?_⟩
          -- Each part of the chain lies in what the part before it left.
          have hstop := Pattern.stop_le_of_find? hh
          have hrest := Text.size_dropTo_le k cs
          have hnext := Text.size_dropTo_le hit.span.stop (Text.dropTo k cs)
          omega

theorem chain_eq_ok {cs : List Char} {f : Filter} {n : Nat} (h : chain s cs = .ok (f, n)) :
    (∀ t ∈ f, t.2.isGroup = false) ∧ n ≤ size cs :=
  chainFrom_eq_ok h

theorem chain_eq_nil_iff {cs : List Char} :
    (∃ n, chain s cs = .ok ([], n)) ↔ condition? s cs = .ok none := by
  constructor
  · rintro ⟨n, h⟩
    obtain ⟨q, hq, h⟩ := bind_eq_ok h
    cases q with
    | none => exact hq
    | some e =>
      dsimp only at h
      split at h
      · cases h
      · obtain ⟨q, -, h⟩ := bind_eq_ok h
        cases q with
        | none => cases h
        | some _ =>
          obtain ⟨r, -, h⟩ := bind_eq_ok h
          cases h
  · intro h
    refine ⟨0, ?_⟩
    rw [chain, chainFrom, h]
    rfl

/-! ### Runs over the cues -/

/-- Scanning `ws` for cues from byte `low` on finds the chains and leaves the second workspace. -/
inductive CueRun (s : Subject) : Nat → Workspace → List Filter → Workspace → Prop
  | done {low : Nat} {ws : Workspace} (h : conditionCue.findAfter? low ws.text = none) :
      CueRun s low ws [] ws
  | skip {low n : Nat} {ws rest : Workspace} {cue : Pattern.Hit} {chains : List Filter}
      (hcue : conditionCue.findAfter? low ws.text = some cue)
      (hchain : chain s (ws.after cue.span.stop) = .ok ([], n))
      (hrest : CueRun s cue.span.stop ws chains rest) : CueRun s low ws chains rest
  | take {low n : Nat} {ws rest : Workspace} {cue : Pattern.Hit} {f : Filter} {chains : List Filter}
      (hcue : conditionCue.findAfter? low ws.text = some cue)
      (hchain : chain s (ws.after cue.span.stop) = .ok (f, n)) (hf : f ≠ [])
      (hrest : CueRun s (cue.span.stop + n) (ws.take ⟨cue.span.start, cue.span.stop + n⟩) chains rest) :
      CueRun s low ws (f :: chains) rest

/-- A text has one run only. -/
theorem CueRun.unique {low : Nat} {ws rest rest' : Workspace} {chains chains' : List Filter}
    (h : CueRun s low ws chains rest) (h' : CueRun s low ws chains' rest') :
    chains = chains' ∧ rest = rest' := by
  induction h generalizing chains' rest' with
  | done hcue =>
    cases h' with
    | done => exact ⟨rfl, rfl⟩
    | skip hcue' | take hcue' => simp [hcue] at hcue'
  | skip hcue hchain _ ih =>
    cases h' with
    | done hcue' => simp [hcue] at hcue'
    | skip hcue' _ hrest =>
      cases hcue.symm.trans hcue'
      exact ih hrest
    | take hcue' hchain' hf =>
      cases hcue.symm.trans hcue'
      cases hchain.symm.trans hchain'
      contradiction
  | take hcue hchain hf _ ih =>
    cases h' with
    | done hcue' => simp [hcue] at hcue'
    | skip hcue' hchain' =>
      cases hcue.symm.trans hcue'
      cases hchain.symm.trans hchain'
      contradiction
    | take hcue' hchain' _ hrest =>
      cases hcue.symm.trans hcue'
      cases hchain.symm.trans hchain'
      obtain ⟨rfl, rfl⟩ := ih hrest
      exact ⟨rfl, rfl⟩

theorem CueRun.chains_plain {low : Nat} {ws rest : Workspace} {chains : List Filter}
    (h : CueRun s low ws chains rest) : ∀ f ∈ chains, f ≠ [] ∧ ∀ t ∈ f, t.2.isGroup = false := by
  induction h with
  | done => exact fun f hf => nomatch hf
  | skip _ _ _ ih => exact ih
  | take _ hchain hf _ ih => exact List.forall_mem_cons.mpr ⟨⟨hf, (chain_eq_ok hchain).1⟩, ih⟩

structure CueAt (low : Nat) (text a v : List Char) (cue : Pattern.Hit) : Prop where
  text_eq : text = a ++ v
  start_eq : cue.span.start = size a
  low_le : low ≤ size a
  lt_stop : size a < cue.span.stop
  stop_le : cue.span.stop ≤ size text

theorem cueAt_of_findAfter? {low : Nat} {text : List Char} {cue : Pattern.Hit}
    (h : conditionCue.findAfter? low text = some cue) : ∃ a v, CueAt low text a v cue := by
  obtain ⟨a, w, x, hf⟩ := Pattern.findFrom?_eq_some (u := []) h
  have hspan := hf.span_eq
  exact ⟨a, w ++ x, hf.text_eq, by rw [hspan]; rfl, hf.low_le, hf.low_lt_stop rfl, hf.stop_le⟩

/-- Fuel beyond the size of what is left to scan never runs out. -/
theorem cueRun_of_conditionsFrom {fuel low : Nat} {ws rest : Workspace} {f : Filter}
    (hfuel : size ws.text < low + fuel) (h : conditionsFrom s fuel low ws = (.ok f, rest)) :
    ∃ chains, CueRun s low ws chains rest ∧ f = chains.flatMap chainTerms := by
  induction fuel generalizing low ws f with
  | zero =>
    cases h
    cases hcue : conditionCue.findAfter? low rest.text with
    | none => exact ⟨[], .done hcue, rfl⟩
    | some cue =>
      obtain ⟨a, v, hat⟩ := cueAt_of_findAfter? hcue
      have hlow := hat.low_le
      have hlt := hat.lt_stop
      have hle := hat.stop_le
      omega
  | succ fuel ih =>
    simp only [conditionsFrom] at h
    split at h
    · next hcue =>
      cases h
      exact ⟨[], .done hcue, rfl⟩
    · next cue hcue =>
      obtain ⟨a, v, hat⟩ := cueAt_of_findAfter? hcue
      have hlow := hat.low_le
      have hlt := hat.lt_stop
      have hle := hat.stop_le
      split at h
      · cases h
      · next n hchain =>
        obtain ⟨chains, hrun, hf⟩ := ih (by omega) h
        exact ⟨chains, .skip hcue hchain hrun, hf⟩
      · next terms n hne hchain =>
        have hn : n ≤ size ws.text - cue.span.stop :=
          Nat.le_trans (chain_eq_ok hchain).2 (Text.size_dropTo_le ..)
        -- The chain is blanked out, and scanning goes on behind it.
        have hsize : size (ws.take ⟨cue.span.start, cue.span.stop + n⟩).text ≤ size ws.text := by
          have htext := hat.text_eq
          rw [htext] at hle hn
          rw [hat.start_eq, Workspace.take, htext]
          exact Text.size_blankOut_le (by omega) (by omega)
        have hok := congrArg Prod.fst h
        have hrest := congrArg Prod.snd h
        generalize hmore : conditionsFrom s fuel _ _ = r at hok hrest
        obtain ⟨x, ws'⟩ := r
        cases x with
        | error e => cases hok
        | ok more =>
          cases hok
          cases hrest
          obtain ⟨chains, hrun, rfl⟩ := ih (by omega) hmore
          exact ⟨terms :: chains, .take hcue hchain hne hrun, rfl⟩

theorem cueRun_of_takeConditions {ws rest : Workspace} {f : Filter}
    (h : takeConditions s ws = (.ok f, rest)) :
    ∃ chains, CueRun s 0 ws chains rest ∧ f = chains.flatMap chainTerms :=
  cueRun_of_conditionsFrom (by omega) h

theorem hits_conditionCue (low : Nat) (cs : List Char) :
    conditionCue.hitsFrom low (.ofText cs) cs =
      match conditionCue.findAfter? low cs with
      | none => []
      | some cue => cue :: conditionCue.hitsFrom cue.span.stop (.ofText cs) cs :=
  Pattern.hitsFrom_eq_find (u := []) rfl

theorem CueRun.none_behind {low : Nat} {ws rest : Workspace} {chains : List Filter}
    (h : CueRun s low ws chains rest) (hnil : chains = []) :
    ∀ cue ∈ conditionCue.hitsFrom low (.ofText ws.text) ws.text,
      condition? s (ws.after cue.span.stop) = .ok none := by
  induction h with
  | done hcue =>
    rw [hits_conditionCue, hcue]
    exact fun cue hmem => nomatch hmem
  | skip hcue hchain _ ih =>
    rw [hits_conditionCue, hcue]
    exact List.forall_mem_cons.mpr ⟨chain_eq_nil_iff.mp ⟨_, hchain⟩, ih hnil⟩
  | take => cases hnil

/-- Nothing is taken from a text exactly if no cue in it has a condition behind it. -/
theorem cueRun_nil_iff {low : Nat} {ws : Workspace} :
    CueRun s low ws [] ws ↔ ∀ cue ∈ conditionCue.hitsFrom low (.ofText ws.text) ws.text,
      condition? s (ws.after cue.span.stop) = .ok none := by
  constructor
  · exact fun h => h.none_behind rfl
  · intro h
    generalize hl : conditionCue.hitsFrom low (.ofText ws.text) ws.text = l at h
    induction l generalizing low with
    | nil =>
      rw [hits_conditionCue] at hl
      cases hcue : conditionCue.findAfter? low ws.text with
      | none => exact .done hcue
      | some cue => simp [hcue] at hl
    | cons cue l ih =>
      obtain ⟨hnone, hrest⟩ := List.forall_mem_cons.mp h
      obtain ⟨n, hchain⟩ := chain_eq_nil_iff.mpr hnone
      rw [hits_conditionCue] at hl
      cases hcue : conditionCue.findAfter? low ws.text with
      | none => simp [hcue] at hl
      | some cue' =>
        simp only [hcue, List.cons.injEq] at hl
        obtain ⟨rfl, hl⟩ := hl
        exact .skip hcue hchain (ih hl hrest)

end Interpretation
end Parlance
