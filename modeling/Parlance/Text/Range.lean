/-! Sets of code points are lists of closed ranges. The tables of the other text modules
are values of this type. -/

namespace Parlance.Text

/-- Closed ranges of code points. -/
abbrev Ranges := List (Nat × Nat)

def Ranges.holds (r : Ranges) (n : Nat) : Bool := r.any fun p => p.1 ≤ n && n ≤ p.2

theorem Ranges.holds_iff {r : Ranges} {n : Nat} :
    r.holds n = true ↔ ∃ p ∈ r, p.1 ≤ n ∧ n ≤ p.2 := by
  simp [Ranges.holds]

end Parlance.Text
