import Parlance.Inflection
import Parlance.Interpretation.Clause
import Parlance.Interpretation.Values
import Parlance.Validation

/-! Lists that are put together entry by entry, of which no two have one key: the forms of a word, the
columns and the values of a statement, the tables that a verdict names. -/

namespace Parlance

/-- An entry is put at the end of the list if its key is new there, and else the list stays. -/
def AddsOnce {α κ : Type} (key : α → κ) (step : List α → α → List α) : Prop :=
  ∀ out a, key a ∈ out.map key ∧ step out a = out ∨ key a ∉ out.map key ∧ step out a = out ++ [a]

namespace AddsOnce

variable {α κ : Type} {key : α → κ} {step : List α → α → List α} {out new : List α} {a : α}

theorem mem (h : AddsOnce key step) (ha : a ∈ new.foldl step out) : a ∈ out ∨ a ∈ new := by
  induction new generalizing out with
  | nil => exact .inl ha
  | cons b new ih =>
    rcases ih ha with ha | ha
    · rcases h out b with ⟨-, hstep⟩ | ⟨-, hstep⟩
      · exact .inl (hstep ▸ ha)
      · rw [hstep, List.mem_append, List.mem_singleton] at ha
        exact ha.imp_right fun ha => List.mem_cons.mpr (.inl ha)
    · exact .inr (List.mem_cons_of_mem b ha)

/-- Every key comes to stand in the list. -/
theorem key_mem_iff (h : AddsOnce key step) {k : κ} :
    k ∈ (new.foldl step out).map key ↔ k ∈ out.map key ∨ k ∈ new.map key := by
  induction new generalizing out with
  | nil => simp
  | cons b new ih =>
    have hstep : k ∈ (step out b).map key ↔ k ∈ out.map key ∨ k = key b := by
      rcases h out b with ⟨hb, hstep⟩ | ⟨-, hstep⟩
      · rw [hstep]
        exact ⟨.inl, fun hk => hk.elim id fun heq => heq ▸ hb⟩
      · rw [hstep, List.map_append, List.mem_append, List.map_singleton, List.mem_singleton]
    rw [List.foldl_cons, ih, hstep, List.map_cons, List.mem_cons, or_assoc]

theorem nodup (h : AddsOnce key step) (hout : (out.map key).Nodup) (new : List α) :
    ((new.foldl step out).map key).Nodup := by
  induction new generalizing out with
  | nil => exact hout
  | cons b new ih =>
    refine ih ?_
    rcases h out b with ⟨-, hstep⟩ | ⟨hb, hstep⟩
    · rwa [hstep]
    · rw [hstep, List.map_append, List.map_singleton, List.nodup_append]
      refine ⟨hout, by simp, fun k hk l hl heq => hb ?_⟩
      rwa [← List.mem_singleton.mp hl, ← heq]

theorem mem_iff {step : List α → α → List α} (h : AddsOnce id step) :
    a ∈ new.foldl step out ↔ a ∈ out ∨ a ∈ new := by
  have hmem : a ∈ (new.foldl step out).map id ↔ a ∈ out.map id ∨ a ∈ new.map id := h.key_mem_iff
  simpa only [List.map_id] using hmem

theorem nodup_of_id {step : List α → α → List α} (h : AddsOnce id step) (hout : out.Nodup) (new : List α) :
    (new.foldl step out).Nodup := by
  have hid : (out.map id).Nodup := by rwa [List.map_id]
  simpa only [List.map_id] using h.nodup hid new

theorem of_ite [BEq α] [LawfulBEq α] {step : List α → α → List α}
    (hstep : ∀ out a, step out a = if a ∈ out then out else out ++ [a]) : AddsOnce id step := by
  intro out a
  rw [hstep, List.map_id]
  split
  · next h => exact .inl ⟨h, rfl⟩
  · next h => exact .inr ⟨h, rfl⟩

end AddsOnce

theorem Inflection.addsOnce_addForm : AddsOnce id addForm := .of_ite fun _ _ => rfl

theorem Validation.addsOnce_addOnce : AddsOnce id Validator.addOnce := .of_ite fun _ _ => rfl

namespace Interpretation

theorem addsOnce_addColumn : AddsOnce id addColumn := .of_ite fun _ _ => rfl

theorem addsOnce_value : AddsOnce Assignment.column fun values a =>
    if values.any (·.column = a.column) then values else values ++ [a] := by
  intro values a
  have hany : values.any (·.column = a.column) = true ↔ a.column ∈ values.map Assignment.column := by simp
  simp only [hany]
  split
  · next h => exact .inl ⟨h, rfl⟩
  · next h => exact .inr ⟨h, rfl⟩

theorem mem_addValues {values new : List Assignment} {a : Assignment} (h : a ∈ addValues values new) :
    a ∈ values ∨ a ∈ new :=
  addsOnce_value.mem h

theorem nodup_addValues {values new : List Assignment} (h : (values.map (·.column)).Nodup) :
    ((addValues values new).map (·.column)).Nodup :=
  addsOnce_value.nodup h new

end Interpretation

end Parlance
