import Parlance.Proofs.Filter.Reader

/-! What the reader makes of a row of tokens. The rows are put together by the rules of the grammar,
each with the truth it has once the atoms have theirs; whatever the rules allow is read, up to the
token that goes on with a larger condition. -/

namespace Parlance.Where

/-- A truth for every valuation of the atoms. -/
abbrev Meaning := (Atom → Truth) → Truth

/-- What may stand behind a condition. -/
def Follows (rest : List Token) : Prop := ∀ t ∈ rest.head?, t = .closing ∨ t = .and ∨ t = .or

/-- The reader takes three steps for every token at most: one into each of the three rules. -/
def Factor (ts : List Token) (a : Meaning) : Prop :=
  ∀ n rest, 3 * ts.length ≤ n → Follows rest →
    ∃ e, factor? n (ts ++ rest) = some (e, rest) ∧ ∀ v, e.value v = a v

inductive Conjunction : List Token → Meaning → Prop
  | one {ts : List Token} {a : Meaning} : Factor ts a → Conjunction ts a
  | more {ts us : List Token} {a b : Meaning} : Factor ts a → Conjunction us b →
      Conjunction (ts ++ .and :: us) fun v => (a v).and (b v)

inductive Disjunction : List Token → Meaning → Prop
  | one {ts : List Token} {a : Meaning} : Conjunction ts a → Disjunction ts a
  | more {ts us : List Token} {a b : Meaning} : Conjunction ts a → Disjunction us b →
      Disjunction (ts ++ .or :: us) fun v => (a v).or (b v)

variable {ts us : List Token} {a b : Meaning}

theorem Factor.of_atom {x : Atom} (h : ∀ rest, Follows rest → atom? (ts ++ rest) = some (x, rest)) :
    Factor ts fun v => v x := by
  intro n rest hn hrest
  have hx := h rest hrest
  cases ts with
  | nil =>
    have hnil := h [] (by simp [Follows])
    cases hnil
  | cons t ts =>
    obtain ⟨n, rfl⟩ : ∃ k, n = k + 1 := ⟨n - 1, by simp only [List.length_cons] at hn; omega⟩
    refine ⟨.atom x, ?_, fun _ => rfl⟩
    rw [factor?]
    · rw [hx]
      rfl
    · rintro us hus
      rw [hus] at hx
      cases hx

theorem Conjunction.reads (h : Conjunction ts a) : ∀ n rest, 3 * ts.length + 1 ≤ n → Follows rest →
    rest.head? ≠ some .and → ∃ e, conjunction? n (ts ++ rest) = some (e, rest) ∧ ∀ v, e.value v = a v := by
  induction h with
  | one hf =>
    intro n rest hn hrest hand
    obtain ⟨n, rfl⟩ : ∃ k, n = k + 1 := ⟨n - 1, by omega⟩
    obtain ⟨e, he, hv⟩ := hf n rest (by omega) hrest
    -- Without an AND behind the factor the reader stops at it.
    refine ⟨e, ?_, hv⟩
    rw [conjunction?, he]
    split
    · next h =>
      cases h
      exact absurd rfl hand
    · rfl
  | @more ts us a b hf _ ih =>
    intro n rest hn hrest hand
    rw [List.length_append, List.length_cons] at hn
    obtain ⟨n, rfl⟩ : ∃ k, n = k + 1 := ⟨n - 1, by omega⟩
    obtain ⟨e, he, hv⟩ := hf n (.and :: (us ++ rest)) (by omega) (by simp [Follows])
    obtain ⟨e', he', hv'⟩ := ih n rest (by omega) hrest hand
    refine ⟨.and e e', ?_, fun v => by rw [Expr.value, hv, hv']⟩
    rw [List.append_assoc, List.cons_append, conjunction?, he]
    simp [he']

/-- Conjunctions may be joined by AND, since it is associative. -/
theorem Conjunction.append (h : Conjunction ts a) (k : Conjunction us b) :
    Conjunction (ts ++ .and :: us) fun v => (a v).and (b v) := by
  induction h with
  | one hf => exact .more hf k
  | more hf _ ih =>
    have hmore := Conjunction.more hf ih
    simpa [List.append_assoc, Truth.and_assoc] using hmore

theorem Disjunction.reads (h : Disjunction ts a) : ∀ n rest, 3 * ts.length + 2 ≤ n →
    (∀ t ∈ rest.head?, t = .closing) →
    ∃ e, disjunction? n (ts ++ rest) = some (e, rest) ∧ ∀ v, e.value v = a v := by
  induction h with
  | one hc =>
    intro n rest hn hrest
    obtain ⟨n, rfl⟩ : ∃ k, n = k + 1 := ⟨n - 1, by omega⟩
    obtain ⟨e, he, hv⟩ := hc.reads n rest (by omega) (fun t ht => .inl (hrest t ht)) fun h => by
      cases hrest _ h
    refine ⟨e, ?_, hv⟩
    rw [disjunction?, he]
    split
    · next h =>
      cases h
      cases hrest _ rfl
    · rfl
  | @more ts us a b hc _ ih =>
    intro n rest hn hrest
    rw [List.length_append, List.length_cons] at hn
    obtain ⟨n, rfl⟩ : ∃ k, n = k + 1 := ⟨n - 1, by omega⟩
    obtain ⟨e, he, hv⟩ := hc.reads n (.or :: (us ++ rest)) (by omega) (by simp [Follows]) (by simp)
    obtain ⟨e', he', hv'⟩ := ih n rest (by omega) hrest
    refine ⟨.or e e', ?_, fun v => by rw [Expr.value, hv, hv']⟩
    rw [List.append_assoc, List.cons_append, disjunction?, he]
    simp [he']

theorem Factor.parenthesized (h : Disjunction ts a) : Factor (.opening :: (ts ++ [.closing])) a := by
  intro n rest hn _
  simp only [List.length_cons, List.length_append, List.length_nil] at hn
  obtain ⟨n, rfl⟩ : ∃ k, n = k + 1 := ⟨n - 1, by omega⟩
  obtain ⟨e, he, hv⟩ := h.reads n (.closing :: rest) (by omega) (by simp)
  refine ⟨e, ?_, hv⟩
  simp [factor?, he]

theorem read?_of_disjunction {cs : List Char} (ht : tokens? cs = some ts) (h : Disjunction ts a) :
    ∃ e, read? cs = some e ∧ ∀ v, e.value v = a v := by
  obtain ⟨e, he, hv⟩ := h.reads (3 * ts.length + 3) [] (by omega) (by simp)
  rw [List.append_nil] at he
  refine ⟨e, ?_, hv⟩
  simp [read?, ht, he]

end Parlance.Where
