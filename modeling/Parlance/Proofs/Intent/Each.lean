import Parlance.Intent

/-! What holds of every predicate of a filter that is not a group, however deep in groups it
stands. -/

namespace Parlance

mutual

def Predicate.Each (P : Predicate → Prop) : Predicate → Prop
  | .group terms => Filter.Each P terms
  | .compare column op value => P (.compare column op value)
  | .like column mode pattern => P (.like column mode pattern)
  | .isNull column negated => P (.isNull column negated)
  | .recency column window => P (.recency column window)

def Filter.Each (P : Predicate → Prop) : List (Connective × Predicate) → Prop
  | [] => True
  | (_, p) :: terms => p.Each P ∧ Filter.Each P terms

end

namespace Filter

variable {P Q : Predicate → Prop}

theorem each_iff {f : Filter} : Filter.Each P f ↔ ∀ t ∈ f, t.2.Each P := by
  induction f with
  | nil => simp [Filter.Each]
  | cons t f ih => simp [Filter.Each, ih]

theorem each_append {f g : Filter} : Filter.Each P (f ++ g) ↔ Filter.Each P f ∧ Filter.Each P g := by
  simp only [each_iff, List.mem_append, or_imp, forall_and]

theorem each_flattened {f : Filter} (h : Filter.Each P f) : Filter.Each P f.flattened := by
  unfold Filter.flattened
  split
  · next c terms =>
    simp only [each_iff, List.mem_singleton, forall_eq, Predicate.Each] at h
    rwa [← each_iff] at h
  · exact h

end Filter

mutual

theorem Predicate.Each.mono {P Q : Predicate → Prop} (hPQ : ∀ p, P p → Q p) :
    ∀ {p : Predicate}, p.Each P → p.Each Q
  | .group _, h => Filter.Each.mono hPQ h
  | .compare .., h => hPQ _ h
  | .like .., h => hPQ _ h
  | .isNull .., h => hPQ _ h
  | .recency .., h => hPQ _ h

theorem Filter.Each.mono {P Q : Predicate → Prop} (hPQ : ∀ p, P p → Q p) :
    ∀ {f : List (Connective × Predicate)}, Filter.Each P f → Filter.Each Q f
  | [], _ => trivial
  | _ :: _, h => ⟨Predicate.Each.mono hPQ h.1, Filter.Each.mono hPQ h.2⟩

end

mutual

theorem Predicate.Each.and {P Q : Predicate → Prop} :
    ∀ {p : Predicate}, p.Each P → p.Each Q → p.Each fun p => P p ∧ Q p
  | .group _, hP, hQ => Filter.Each.and hP hQ
  | .compare .., hP, hQ => ⟨hP, hQ⟩
  | .like .., hP, hQ => ⟨hP, hQ⟩
  | .isNull .., hP, hQ => ⟨hP, hQ⟩
  | .recency .., hP, hQ => ⟨hP, hQ⟩

theorem Filter.Each.and {P Q : Predicate → Prop} : ∀ {f : List (Connective × Predicate)},
    Filter.Each P f → Filter.Each Q f → Filter.Each (fun p => P p ∧ Q p) f
  | [], _, _ => trivial
  | _ :: _, hP, hQ => ⟨Predicate.Each.and hP.1 hQ.1, Filter.Each.and hP.2 hQ.2⟩

end

end Parlance
