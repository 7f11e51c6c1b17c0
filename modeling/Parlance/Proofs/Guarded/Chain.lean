import Parlance.Interpretation.Values
import Parlance.Proofs.Guarded.Basic
import Parlance.Proofs.Interpretation.Stages
import Parlance.Proofs.Pattern.Place

/-! Chains of conditions and of values, with a guard at every cut and on every pass. A pass takes a condition or a
pair and goes on behind a connective or a separator. None of these matches nothing; so each pass begins behind the
one before it, and there are fewer of them than characters. -/

namespace Parlance

open Text (Span size isBoundary dropTo)
open Grammar (columnGroup valueGroup isFiller)

namespace Interpretation

variable {s : Subject} {cs : List Char}

theorem boundary_of_condition? {p : Predicate} {n : Nat} (h : condition? s cs = .ok (some (p, n))) :
    isBoundary n cs = true := by
  obtain ⟨f, -, hit, v, hh, rfl, -⟩ := form_of_condition? h
  exact (Pattern.fits_of_find? hh).stop

/-- No form of a condition matches nothing. -/
theorem pos_of_condition? {p : Predicate} {n : Nat} (h : condition? s cs = .ok (some (p, n))) : 0 < n := by
  have hforms : ∀ f ∈ Grammar.conditionForms, f.2.nullable = false := by decide
  obtain ⟨f, hf, hit, v, hh, rfl, -⟩ := form_of_condition? h
  exact Pattern.stop_pos_of_find? (hforms f hf) hh

theorem boundary_of_chainFrom {fuel : Nat} {c : Connective} {f : Filter} {n : Nat}
    (h : chainFrom s fuel c cs = .ok (f, n)) : isBoundary n cs = true := by
  induction fuel generalizing c cs f n with
  | zero =>
    cases h
    exact Text.isBoundary_zero cs
  | succ fuel ih =>
    obtain ⟨q, hq, h⟩ := bind_eq_ok h
    cases q with
    | none =>
      cases h
      exact Text.isBoundary_zero cs
    | some e =>
      have hone := boundary_of_condition? hq
      dsimp only at h
      split at h
      · cases h
        exact hone
      · next hit hh =>
        obtain ⟨q, -, h⟩ := bind_eq_ok h
        cases q with
        | none =>
          cases h
          exact hone
        | some _ =>
          obtain ⟨r, hr, h⟩ := bind_eq_ok h
          cases h
          have hnext := Text.isBoundary_add hone (Pattern.fits_of_find? hh).stop
          rw [Text.dropTo_dropTo hone] at hr
          exact Text.isBoundary_add hnext (ih hr)

theorem boundary_of_assignmentsFrom {fuel : Nat} {as : List Assignment} {n : Nat}
    (h : assignmentsFrom s fuel cs = .ok (as, n)) : isBoundary n cs = true := by
  induction fuel generalizing cs as n with
  | zero =>
    cases h
    exact Text.isBoundary_zero cs
  | succ fuel ih =>
    simp only [assignmentsFrom] at h
    split at h
    · cases h
      exact Text.isBoundary_zero cs
    · next hit hh =>
      have hone := (Pattern.fits_of_find? hh).stop
      split at h
      · cases h
        exact Text.isBoundary_zero cs
      · obtain ⟨c, -, h⟩ := bind_eq_ok h
        split at h
        · cases h
          exact hone
        · next sep hsep =>
          split at h
          · obtain ⟨r, hr, h⟩ := bind_eq_ok h
            cases h
            have hnext := Text.isBoundary_add hone (Pattern.fits_of_find? hsep).stop
            rw [Text.dropTo_dropTo hone] at hr
            exact Text.isBoundary_add hnext (ih hr)
          · cases h
            exact hone

end Interpretation

namespace Guarded

open Interpretation (Subject condition? connectiveOf isClosingMark)

/-- The conditions from byte `pos` on, and where they end. -/
def chainFrom (s : Subject) (limit pos : Nat) (c : Connective) : Guarded (Filter × Nat) := do
  let cs ← after pos
  match ← answer (condition? s cs) with
  | none => pure ([], pos)
  | some (p, n) =>
    onward limit pos (pos + n) fun _ _ => do
      let rest ← after (pos + n)
      match Grammar.connective.find? rest with
      | none => pure ([(c, p)], pos + n)
      | some h => do
        let next ← after (pos + n + h.span.stop)
        match ← answer (condition? s next) with
        | none => pure ([(c, p)], pos + n)
        | some _ =>
          onward limit (pos + n) (pos + n + h.span.stop) fun _ _ => do
            let (terms, stop) ← chainFrom s limit (pos + n + h.span.stop) (connectiveOf ((h.text? 1).getD []))
            pure ((c, p) :: terms, stop)
termination_by limit - pos

/-- The pairs from byte `pos` on, and where they end. -/
def assignmentsFrom (s : Subject) (limit pos : Nat) : Guarded (List Assignment × Nat) := do
  let cs ← after pos
  match Grammar.assignment.find? cs with
  | none => pure ([], pos)
  | some h => do
    let column := (h.text? columnGroup).getD []
    let v := (h.text? valueGroup).getD []
    if isFiller column || Text.sameWord column "where".toList then pure ([], pos)
    else do
      let name ← answer (s.resolve column)
      let a : Assignment := ⟨name, .ofText (Text.dropEndWhile isClosingMark v)⟩
      onward limit pos (pos + h.span.stop) fun _ _ => do
        let rest ← after (pos + h.span.stop)
        match Grammar.assignmentSeparator.find? rest with
        | none => pure ([a], pos + h.span.stop)
        | some sep => do
          let next ← after (pos + h.span.stop + sep.span.stop)
          if Grammar.assignment.holds next then
            onward limit (pos + h.span.stop) (pos + h.span.stop + sep.span.stop) fun _ _ => do
              let (as, stop) ← assignmentsFrom s limit (pos + h.span.stop + sep.span.stop)
              pure (a :: as, stop)
          else pure ([a], pos + h.span.stop)
termination_by limit - pos

variable {s : Subject} {d : Sheet} {limit pos fuel : Nat}

/-- One more entry, in front of those that a loop reads behind it and a separator. -/
theorem Reads.entry {α : Type} {x : Guarded (List α × Nat)} {q : Except Error (List α × Nat)} {n m : Nat} (a : α)
    (hx : Reads x d kept (q.map fun r => ((r.1, pos + n + m + r.2), ⟨d.text⟩))) :
    Reads (x >>= fun r => Pure.pure (a :: r.1, r.2)) d kept
      ((q >>= fun r => .ok (a :: r.1, n + m + r.2)).map fun r => ((r.1, pos + r.2), ⟨d.text⟩)) := by
  cases q with
  | error e => exact .bind_error hx
  | ok r =>
    refine .bind_ok hx fun d' _ htext => ?_
    have hsum : pos + (n + m + r.2) = pos + n + m + r.2 := by omega
    rw [← htext]
    simp only [ok_bind, Except.map, hsum]
    exact .pure

theorem reads_chainFrom {c : Connective} (hpos : isBoundary pos d.text = true) (hlimit : limit = size d.text)
    (hfuel : (dropTo pos d.text).length < fuel) : Reads (chainFrom s limit pos c) d kept
      ((Interpretation.chainFrom s fuel c (dropTo pos d.text)).map fun r => ((r.1, pos + r.2), ⟨d.text⟩)) := by
  induction fuel generalizing pos c d with
  | zero => exact absurd hfuel (Nat.not_lt_zero _)
  | succ fuel ih =>
    rw [chainFrom, Interpretation.chainFrom]
    refine .after_bind hpos ?_
    cases hq : condition? s (dropTo pos d.text) with
    | error e => exact .answer_error rfl
    | ok q =>
      refine .answer_ok rfl ?_
      cases q with
      | none => exact .pure
      | some e =>
        obtain ⟨p, n⟩ := e
        have hn := Interpretation.boundary_of_condition? hq
        have hterm := Interpretation.pos_of_condition? hq
        have hrest := Text.isBoundary_add hpos hn
        refine .onward (by omega) (hlimit ▸ Text.le_size_of_isBoundary hrest) (.after_bind hrest ?_)
        simp only [ok_bind, Text.dropTo_dropTo hpos]
        cases hh : Grammar.connective.find? (dropTo (pos + n) d.text) with
        | none => exact .pure
        | some h =>
          have hstop := (Pattern.fits_of_find? hh).stop
          have hnext := Text.isBoundary_add hrest hstop
          refine .after_bind hnext ?_
          simp only [Text.dropTo_dropTo hrest]
          cases hq' : condition? s (dropTo (pos + n + h.span.stop) d.text) with
          | error e => exact .answer_error rfl
          | ok q' =>
            refine .answer_ok rfl ?_
            cases q' with
            | none => exact .pure
            | some _ =>
              have hpass := Pattern.stop_pos_of_find? (p := Grammar.connective) rfl hh
              -- Fuel is for the characters that are left, and every pass takes some of them.
              have hshorter := Text.length_dropTo_lt hpos hn hstop hpass
              refine .onward (by omega) (hlimit ▸ Text.le_size_of_isBoundary hnext) ?_
              exact .entry (c, p) (ih hnext hlimit (by omega))

theorem reads_assignmentsFrom (hpos : isBoundary pos d.text = true) (hlimit : limit = size d.text)
    (hfuel : (dropTo pos d.text).length < fuel) : Reads (assignmentsFrom s limit pos) d kept
      ((Interpretation.assignmentsFrom s fuel (dropTo pos d.text)).map fun r => ((r.1, pos + r.2), ⟨d.text⟩)) := by
  induction fuel generalizing pos d with
  | zero => exact absurd hfuel (Nat.not_lt_zero _)
  | succ fuel ih =>
    rw [assignmentsFrom, Interpretation.assignmentsFrom]
    refine .after_bind hpos ?_
    cases hh : Grammar.assignment.find? (dropTo pos d.text) with
    | none => exact .pure
    | some h =>
      have hn := (Pattern.fits_of_find? hh).stop
      have hrest := Text.isBoundary_add hpos hn
      dsimp only
      split
      · exact .pure
      · cases hname : s.resolve ((h.text? columnGroup).getD []) with
        | error e => exact .answer_error rfl
        | ok name =>
          have hpair := Pattern.stop_pos_of_find? (p := Grammar.assignment) rfl hh
          refine .answer_ok rfl (.onward (by omega) (hlimit ▸ Text.le_size_of_isBoundary hrest) (.after_bind hrest ?_))
          simp only [ok_bind, Text.dropTo_dropTo hpos]
          cases hsep : Grammar.assignmentSeparator.find? (dropTo (pos + h.span.stop) d.text) with
          | none => exact .pure
          | some sep =>
            have hstop := (Pattern.fits_of_find? hsep).stop
            have hnext := Text.isBoundary_add hrest hstop
            refine .after_bind hnext ?_
            simp only [Text.dropTo_dropTo hrest]
            split
            · have hpass := Pattern.stop_pos_of_find? (p := Grammar.assignmentSeparator) rfl hsep
              have hshorter := Text.length_dropTo_lt hpos hn hstop hpass
              refine .onward (by omega) (hlimit ▸ Text.le_size_of_isBoundary hnext) ?_
              exact .entry _ (ih hnext hlimit (by omega))
            · exact .pure

end Guarded
end Parlance
