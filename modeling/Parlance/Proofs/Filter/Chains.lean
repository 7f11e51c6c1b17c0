import Parlance.Proofs.Interpretation.Cues

/-! What the filter of a request says of a row: the id, every chain of conditions that a cue opens, and
the window, all of them at once. An OR reaches no further than the chain in which it stands. -/

namespace Parlance

namespace Interpretation

variable {s : Subject} {f : Filter}

theorem and_of_mem_chainTerms {t : Connective × Predicate} (ht : t ∈ chainTerms f) : t.1 = .and := by
  unfold chainTerms at ht
  split at ht
  · rw [List.mem_singleton.mp ht]
  · obtain ⟨u, -, rfl⟩ := List.mem_map.mp ht
    rfl

theorem chainTerms_ne_nil (hf : f ≠ []) : chainTerms f ≠ [] := by
  unfold chainTerms
  split
  · exact List.cons_ne_nil _ _
  · simpa using hf

/-- Joined by AND, the terms of a chain say what the chain says. -/
theorem all_chainTerms (v : Predicate → Truth) (f : Filter) :
    .all ((chainTerms f).map (·.2.value v)) = Filter.value v f := by
  unfold chainTerms
  split
  · simp [Predicate.value]
  · next hor =>
    have hands : ∀ t ∈ f, t.1 = .and := by
      intro t ht
      cases hc : t.1 with
      | and => rfl
      | or => exact absurd (List.any_eq_true.mpr ⟨t, ht, by simpa using hc⟩) hor
    rw [Filter.value_of_ands hands]
    simp [Function.comp_def]

/-- Only a chain with an OR in it is wrapped. -/
theorem eq_of_chainTerms_eq_group {g : Filter} {c : Connective} (hplain : ∀ t ∈ f, t.2.isGroup = false)
    (h : chainTerms f = [(c, .group g)]) : f = g := by
  unfold chainTerms at h
  split at h
  · cases h
    rfl
  · obtain ⟨t, ht, -, heq⟩ : ∃ t ∈ f, Connective.and = c ∧ t.2 = .group g := by
      have hmem : (c, Predicate.group g) ∈ f.map fun t => (Connective.and, t.2) := by simp [h]
      simpa using hmem
    have hp := hplain t ht
    rw [heq] at hp
    cases hp

end Interpretation

namespace Interpreter

open Interpretation

variable {s : Subject} {id recency : Option Predicate} {ws rest : Workspace} {f : Filter}

/-- The terms of a filter before a lone group gives up its parentheses. -/
def joined (id : Option Predicate) (chains : List Filter) (recency : Option Predicate) : Filter :=
  id.toList.map (fun p => (Connective.and, p)) ++ chains.flatMap chainTerms
    ++ recency.toList.map fun p => (Connective.and, p)

theorem takeFilter_eq_ok (h : takeFilter s id recency ws = .ok (f, rest)) :
    ∃ chains, CueRun s 0 ws chains rest ∧ f = (joined id chains recency).flattened := by
  obtain ⟨⟨conditions, left⟩, hconditions, h⟩ := bind_eq_ok h
  obtain ⟨chains, hrun, rfl⟩ := cueRun_of_takeConditions (Taken.eq_of_kept hconditions)
  cases h
  exact ⟨chains, hrun, rfl⟩

theorem and_of_mem_joined {chains : List Filter} {t : Connective × Predicate}
    (ht : t ∈ joined id chains recency) : t.1 = .and := by
  simp only [joined, List.mem_append, List.mem_map, List.mem_flatMap] at ht
  rcases ht with (⟨p, -, rfl⟩ | ⟨c, -, hc⟩) | ⟨p, -, rfl⟩
  · rfl
  · exact and_of_mem_chainTerms hc
  · rfl

theorem value_joined (v : Predicate → Truth) (id : Option Predicate) (chains : List Filter)
    (recency : Option Predicate) : Filter.value v (joined id chains recency) =
      .all (id.toList.map (·.value v) ++ chains.map (Filter.value v) ++ recency.toList.map (·.value v)) := by
  have hchains : Truth.all ((chains.flatMap chainTerms).map (·.2.value v)) =
      .all (chains.map (Filter.value v)) := by
    rw [List.map_flatMap, Truth.all_flatMap]
    simp only [all_chainTerms]
  rw [Filter.value_of_ands fun t ht => and_of_mem_joined ht]
  simp only [joined, List.map_append, List.map_map, Truth.all_append, hchains]
  rfl

theorem eq_of_joined_eq_group {chains : List Filter} {c : Connective}
    (hplain : ∀ f ∈ chains, f ≠ [] ∧ ∀ t ∈ f, t.2.isGroup = false)
    (h : joined id chains recency = [(c, .group f)]) :
    id.toList ++ chains.map .group ++ recency.toList = [.group f] := by
  cases chains with
  | nil =>
    have hparts := congrArg (List.map (·.2)) h
    simpa [joined, Function.comp_def] using hparts
  | cons g chains =>
    obtain ⟨⟨hg, hgplain⟩, hrest⟩ := List.forall_mem_cons.mp hplain
    obtain ⟨t, terms, hterms⟩ := List.exists_cons_of_ne_nil (chainTerms_ne_nil hg)
    have hlength := congrArg List.length h
    simp only [joined, List.flatMap_cons, List.length_append, List.length_map, hterms, List.length_cons,
      List.length_nil] at hlength
    -- The chain has a term of its own, so there is nothing beside it.
    have hid : id.toList = [] := List.eq_nil_of_length_eq_zero (by omega)
    have hrecency : recency.toList = [] := List.eq_nil_of_length_eq_zero (by omega)
    have hchains : chains.flatMap chainTerms = [] := List.eq_nil_of_length_eq_zero (by omega)
    have hnil : chains = [] := by
      cases chains with
      | nil => rfl
      | cons g' chains =>
        have hne := (hrest g' List.mem_cons_self).1
        rw [List.flatMap_cons, List.append_eq_nil_iff] at hchains
        exact absurd hchains.1 (chainTerms_ne_nil hne)
    rw [joined, hid, hrecency, List.flatMap_cons, hchains] at h
    have heq : g = f := eq_of_chainTerms_eq_group hgplain (by simpa using h)
    rw [hid, hrecency, hnil, heq]
    rfl

/-- The filter holds of a row exactly if the id, each of the chains and the window do, and there is an
OR at the top only where nothing stands beside the chain that it belongs to. -/
theorem takeFilter_value (h : takeFilter s id recency ws = .ok (f, rest)) :
    ∃ chains, (∀ chains' rest', CueRun s 0 ws chains' rest' ↔ chains' = chains ∧ rest' = rest) ∧
      (∀ v, Filter.value v f =
        .all (id.toList.map (·.value v) ++ chains.map (Filter.value v) ++ recency.toList.map (·.value v))) ∧
      ((∃ t ∈ f, t.1 = .or) → id.toList ++ chains.map .group ++ recency.toList = [.group f]) := by
  obtain ⟨chains, hrun, hf⟩ := takeFilter_eq_ok h
  refine ⟨chains, fun chains' rest' => ⟨fun hrun' => hrun'.unique hrun, ?_⟩, fun v => ?_, ?_⟩
  · rintro ⟨rfl, rfl⟩
    exact hrun
  · rw [hf, Filter.value_flattened, value_joined]
  · rintro ⟨t, ht, hor⟩
    unfold Filter.flattened at hf
    split at hf
    · next c terms hjoined =>
      subst hf
      exact eq_of_joined_eq_group hrun.chains_plain hjoined
    · subst hf
      have hand := and_of_mem_joined ht
      rw [hor] at hand
      cases hand

/-- A chain with an OR in it, and another chain behind it. -/
theorem takeFilter_value_two_chains :
    let s : Subject := ⟨.empty, "t", false⟩
    let id : Option Predicate := some (.compare "id" .equal (.number "3"))
    let recency : Option Predicate := some (.recency "seen_at" .today)
    ∃ f rest, takeFilter s id recency ⟨"where x=1 or y=2 whose z=3".toList⟩ = .ok (f, rest) ∧ f.length = 4 ∧
      ∃ chains, (∀ chains' rest', CueRun s 0 ⟨"where x=1 or y=2 whose z=3".toList⟩ chains' rest' ↔
          chains' = chains ∧ rest' = rest) ∧
        (∀ v, Filter.value v f =
          .all (id.toList.map (·.value v) ++ chains.map (Filter.value v) ++ recency.toList.map (·.value v))) ∧
        ((∃ t ∈ f, t.1 = .or) → id.toList ++ chains.map .group ++ recency.toList = [.group f]) := by
  intro s id recency
  have hok : (takeFilter s id recency ⟨"where x=1 or y=2 whose z=3".toList⟩).toOption.any
      (·.1.length = 4) = true := by
    decide +kernel
  obtain ⟨r, h, hlength⟩ := exists_ok_of_any hok
  exact ⟨r.1, r.2, h, by simpa using hlength, takeFilter_value h⟩

end Interpreter

end Parlance
