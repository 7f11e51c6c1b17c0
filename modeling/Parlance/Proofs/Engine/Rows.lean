import Mathlib.Data.List.Forall2
import Parlance.Engine.Result
import Parlance.Proofs.Interpretation.Stages
import Parlance.Server.Engine

/-! Rows from the cells of a result set. A row is assembled cell by cell, so that what holds of the
cells read so far is carried from each cell to the next; the first cell that cannot be decoded, row by
row and from left to right, ends the reading of all of them. -/

namespace Parlance

namespace Json

variable {α : Type} {key : String} {value : α}

theorem mem_keys_insertField {fields : List (String × α)} {name : String} :
    name ∈ (insertField key value fields).map (·.1) ↔ name = key ∨ name ∈ fields.map (·.1) := by
  induction fields with
  | nil => simp [insertField]
  | cons f fields ih =>
    obtain ⟨k, v⟩ := f
    by_cases hk : k = key
    · subst hk
      simp [insertField]
    · simp only [insertField, if_neg hk, List.map_cons, List.mem_cons, ih]
      exact or_left_comm

theorem nodup_keys_insertField {fields : List (String × α)} (h : (fields.map (·.1)).Nodup) :
    ((insertField key value fields).map (·.1)).Nodup := by
  induction fields with
  | nil => simp [insertField]
  | cons f fields ih =>
    obtain ⟨k, v⟩ := f
    rw [List.map_cons, List.nodup_cons] at h
    by_cases hk : k = key
    · rw [insertField, if_pos hk, List.map_cons, List.nodup_cons]
      exact h
    · rw [insertField, if_neg hk, List.map_cons, List.nodup_cons]
      refine ⟨fun hmem => ?_, ih h.2⟩
      rcases mem_keys_insertField.mp hmem with heq | hmem
      · exact hk heq
      · exact h.1 hmem

/-- The fields of other names stay, and the name itself is bound to the new value only. -/
theorem mem_insertField {fields : List (String × α)} (h : (fields.map (·.1)).Nodup) {name : String} {v : α} :
    (name, v) ∈ insertField key value fields ↔
      if name = key then v = value else (name, v) ∈ fields := by
  induction fields with
  | nil =>
    by_cases hn : name = key
    · simp [insertField, hn]
    · simp [insertField, hn]
  | cons f fields ih =>
    obtain ⟨k, w⟩ := f
    rw [List.map_cons, List.nodup_cons] at h
    have hfresh : ∀ u, (k, u) ∉ fields := fun u hu => h.1 (List.mem_map_of_mem (f := (·.1)) hu)
    by_cases hk : k = key
    · subst hk
      by_cases hn : name = k
      · subst hn
        simp [insertField, hfresh]
      · simp [insertField, hn]
    · by_cases hn : name = key
      · subst hn
        simp [insertField, hk, ih h.2, Ne.symm hk]
      · simp [insertField, hk, ih h.2, hn]

end Json

namespace Cell

def Decoded (c : Cell) : Prop := ∃ v, c.value = .ok v

theorem not_decoded_iff {c : Cell} : ¬ c.Decoded ↔ ∃ reason, c.value = .error reason := by
  unfold Decoded
  cases hc : c.value with
  | ok v => simp
  | error reason => simp

/-- The last of the cells with this name. -/
def lastNamed? (name : String) (cells : List Cell) : Option Cell :=
  cells.reverse.find? fun c => c.column = name

theorem lastNamed?_append (name : String) (cells : List Cell) (c : Cell) :
    lastNamed? name (cells ++ [c]) = if c.column = name then some c else lastNamed? name cells := by
  by_cases hc : c.column = name
  · simp [lastNamed?, hc]
  · simp [lastNamed?, hc]

end Cell

/-- The row has every name of the cells once, with the value of the last cell of that name. -/
structure Assembled (cells : List Cell) (row : Row) : Prop where
  distinct : (row.map (·.1)).Nodup
  keys : ∀ name, name ∈ row.map (·.1) ↔ name ∈ cells.map (·.column)
  bound : ∀ name v, (name, v) ∈ row ↔ ∃ c, Cell.lastNamed? name cells = some c ∧ c.value = .ok v

/-- From left to right, `c` is the first cell that cannot be decoded. -/
inductive FirstFailed : List Cell → Cell → String → Prop
  | here {c : Cell} {reason : String} {cells : List Cell} (h : c.value = .error reason) :
      FirstFailed (c :: cells) c reason
  | later {c d : Cell} {reason : String} {cells : List Cell} (h : d.Decoded)
      (rest : FirstFailed cells c reason) : FirstFailed (d :: cells) c reason

variable {sql : String} {cells : List Cell} {rows : List (List Cell)} {row : Row}

theorem firstFailed_append {a b : List Cell} {c : Cell} {reason : String} :
    FirstFailed (a ++ b) c reason ↔
      FirstFailed a c reason ∨ ((∀ d ∈ a, d.Decoded) ∧ FirstFailed b c reason) := by
  induction a with
  | nil =>
    constructor
    · intro h
      exact .inr ⟨by simp, h⟩
    · rintro (h | ⟨-, h⟩)
      · cases h
      · exact h
  | cons d a ih =>
    rw [List.cons_append]
    constructor
    · intro h
      cases h with
      | here h => exact .inl (.here h)
      | later hd h =>
        rcases ih.mp h with h | ⟨ha, h⟩
        · exact .inl (.later hd h)
        · exact .inr ⟨List.forall_mem_cons.mpr ⟨hd, ha⟩, h⟩
    · rintro (h | ⟨ha, h⟩)
      · cases h with
        | here h => exact .here h
        | later hd h => exact .later hd (ih.mpr (.inl h))
      · obtain ⟨hd, ha⟩ := List.forall_mem_cons.mp ha
        exact .later hd (ih.mpr (.inr ⟨ha, h⟩))

theorem exists_firstFailed_iff :
    (∃ c reason, FirstFailed cells c reason) ↔ ¬ ∀ c ∈ cells, c.Decoded := by
  induction cells with
  | nil =>
    constructor
    · rintro ⟨c, reason, h⟩
      cases h
    · intro h
      exact absurd (by simp) h
  | cons d cells ih =>
    rw [List.forall_mem_cons]
    constructor
    · rintro ⟨c, reason, h⟩ ⟨hd, hall⟩
      cases h with
      | here h => exact Cell.not_decoded_iff.mpr ⟨reason, h⟩ hd
      | later _ h => exact ih.mp ⟨c, reason, h⟩ hall
    · intro h
      by_cases hd : d.Decoded
      · obtain ⟨c, reason, hc⟩ := ih.mpr fun hall => h ⟨hd, hall⟩
        exact ⟨c, reason, .later hd hc⟩
      · obtain ⟨reason, hd⟩ := Cell.not_decoded_iff.mp hd
        exact ⟨d, reason, .here hd⟩

theorem Assembled.nil : Assembled [] [] := ⟨by simp, by simp, by simp [Cell.lastNamed?]⟩

theorem Assembled.insert (h : Assembled cells row) {c : Cell} {value : Json} (hc : c.value = .ok value) :
    Assembled (cells ++ [c]) (Json.insertField c.column value row) where
  distinct := Json.nodup_keys_insertField h.distinct
  keys name := by
    rw [Json.mem_keys_insertField, h.keys]
    simp [or_comm, eq_comm]
  bound name v := by
    rw [Json.mem_insertField h.distinct, Cell.lastNamed?_append]
    by_cases hn : name = c.column
    · subst hn
      simp [hc, eq_comm]
    · rw [if_neg hn, if_neg (Ne.symm hn)]
      exact h.bound name v

/-- What is assembled is carried along the cells, whatever was read before them. -/
theorem assembled_collectFrom {seen : List Cell} {out : Row} (h : Assembled seen row)
    (hout : collectFrom sql row cells = .ok out) : Assembled (seen ++ cells) out := by
  -- The cells seen so far grow by the one that is put in, so that the row keeps to them.
  induction cells generalizing seen row with
  | nil =>
    cases hout
    rw [List.append_nil]
    exact h
  | cons c cells ih =>
    rw [collectFrom] at hout
    cases hc : c.value with
    | ok v =>
      rw [hc] at hout
      have hrun := ih (h.insert hc) hout
      rw [List.append_assoc] at hrun
      exact hrun
    | error reason =>
      rw [hc] at hout
      cases hout

theorem collectFrom_eq_error {e : Error} :
    collectFrom sql row cells = .error e ↔
      ∃ c reason, FirstFailed cells c reason ∧ e = c.error sql reason := by
  induction cells generalizing row with
  | nil =>
    constructor
    · intro h
      cases h
    · rintro ⟨c, reason, h, -⟩
      cases h
  | cons d cells ih =>
    rw [collectFrom]
    cases hd : d.value with
    | ok v =>
      change collectFrom sql (Json.insertField d.column v row) cells = .error e ↔ _
      rw [ih]
      constructor
      · rintro ⟨c, reason, h, he⟩
        exact ⟨c, reason, .later ⟨v, hd⟩ h, he⟩
      · rintro ⟨c, reason, h, he⟩
        cases h with
        | here h => rw [hd] at h; cases h
        | later _ h => exact ⟨c, reason, h, he⟩
    | error reason =>
      change Except.error (d.error sql reason) = .error e ↔ _
      constructor
      · intro h
        cases h
        exact ⟨d, reason, .here hd, rfl⟩
      · rintro ⟨c, other, h, rfl⟩
        cases h with
        | here h => rw [hd] at h; cases h; rfl
        | later h _ => exact absurd h (Cell.not_decoded_iff.mpr ⟨reason, hd⟩)

theorem collectRow_eq_error {e : Error} :
    collectRow sql cells = .error e ↔ ∃ c reason, FirstFailed cells c reason ∧ e = c.error sql reason :=
  collectFrom_eq_error

theorem decoded_of_collectRow {out : Row} (h : collectRow sql cells = .ok out) : ∀ c ∈ cells, c.Decoded := by
  by_contra hall
  obtain ⟨c, reason, hc⟩ := exists_firstFailed_iff.mpr hall
  have hfail : collectRow sql cells = .error (c.error sql reason) :=
    collectRow_eq_error.mpr ⟨c, reason, hc, rfl⟩
  rw [h] at hfail
  cases hfail

@[simp] theorem collectRows_nil : collectRows sql [] = .ok [] := rfl

theorem collectRows_cons : collectRows sql (cells :: rows) =
    collectRow sql cells >>= fun row => collectRows sql rows >>= fun out => .ok (row :: out) := by
  simp only [collectRows, List.mapM_cons]
  rfl

theorem assembled_collectRows {out : List Row} (h : collectRows sql rows = .ok out) :
    List.Forall₂ Assembled rows out := by
  induction rows generalizing out with
  | nil =>
    cases h
    exact .nil
  | cons cells rows ih =>
    rw [collectRows_cons] at h
    obtain ⟨row, hrow, h⟩ := bind_eq_ok h
    obtain ⟨rest, hrest, h⟩ := bind_eq_ok h
    cases h
    exact .cons (assembled_collectFrom .nil hrow) (ih hrest)

/-- The first failed cell is looked for in one row after the other. -/
theorem collectRows_eq_error {e : Error} :
    collectRows sql rows = .error e ↔
      ∃ c reason, FirstFailed rows.flatten c reason ∧ e = c.error sql reason := by
  induction rows with
  | nil =>
    constructor
    · intro h
      cases h
    · rintro ⟨c, reason, h, -⟩
      cases h
  | cons cells rows ih =>
    simp only [List.flatten_cons, firstFailed_append]
    rw [collectRows_cons]
    cases hrow : collectRow sql cells with
    | ok row =>
      -- No cell of this row has failed, so the first failure is one of the rows behind it.
      have hall := decoded_of_collectRow hrow
      have hnone : ∀ c reason, ¬ FirstFailed cells c reason := fun c reason hc =>
        exists_firstFailed_iff.mp ⟨c, reason, hc⟩ hall
      simp only [hnone, false_or, and_iff_right hall]
      rw [← ih, ok_bind]
      cases collectRows sql rows with
      | ok out => exact ⟨fun h => (by cases h), fun h => (by cases h)⟩
      | error f => rfl
    | error f =>
      -- A cell of this row has failed, whatever the rows behind it hold.
      have hfirst : ∀ g, f = g ↔ ∃ c reason, FirstFailed cells c reason ∧ g = c.error sql reason := by
        intro g
        rw [← collectRow_eq_error, hrow, Except.error.injEq]
      obtain ⟨c, reason, hc, -⟩ := (hfirst f).mp rfl
      have hsome : ¬ ∀ d ∈ cells, d.Decoded := exists_firstFailed_iff.mp ⟨c, reason, hc⟩
      simp only [hsome, false_and, or_false]
      change Except.error f = .error e ↔ _
      rw [Except.error.injEq]
      exact hfirst e

theorem exists_collectRows_iff :
    (∃ out, collectRows sql rows = .ok out) ↔ ∀ cells ∈ rows, ∀ c ∈ cells, c.Decoded := by
  have hflat : (∀ cells ∈ rows, ∀ c ∈ cells, c.Decoded) ↔ ∀ c ∈ rows.flatten, c.Decoded := by
    simp only [List.mem_flatten]
    exact ⟨fun h c ⟨cells, hrow, hc⟩ => h cells hrow c hc, fun h cells hrow c hc => h c ⟨cells, hrow, hc⟩⟩
  rw [hflat]
  cases hout : collectRows sql rows with
  | ok out =>
    refine ⟨fun _ => ?_, fun _ => ⟨out, rfl⟩⟩
    by_contra hall
    obtain ⟨c, reason, hc⟩ := exists_firstFailed_iff.mpr hall
    have hfail : collectRows sql rows = .error (c.error sql reason) :=
      collectRows_eq_error.mpr ⟨c, reason, hc, rfl⟩
    rw [hout] at hfail
    cases hfail
  | error e =>
    obtain ⟨c, reason, hc, -⟩ := collectRows_eq_error.mp hout
    constructor
    · rintro ⟨out, h⟩
      cases h
    · intro hall
      exact absurd hall (exists_firstFailed_iff.mp ⟨c, reason, hc⟩)

/-- A result set is read as a whole or not at all: it gives a row for each of its rows if every cell was
decoded, and otherwise an error that names the first cell that was not. -/
theorem collectRows_outcome (sql : String) (rows : List (List Cell)) :
    ((∃ out, collectRows sql rows = .ok out) ↔ ∀ cells ∈ rows, ∀ c ∈ cells, c.Decoded) ∧
    (∀ out, collectRows sql rows = .ok out → List.Forall₂ Assembled rows out) ∧
    ∀ e, collectRows sql rows = .error e ↔
      ∃ c reason, FirstFailed rows.flatten c reason ∧
        e = .execution sql ("cannot decode column '" ++ c.column ++ "' of type " ++ c.type ++ ": " ++ reason) :=
  ⟨exists_collectRows_iff, fun _ => assembled_collectRows, fun _ => collectRows_eq_error⟩

namespace Server

variable (p : Protocol)

/-- The cells of an answer; one that describes no columns has no rows. -/
def resultSet (a : Answer) : List (List Cell) :=
  if a.columns.isEmpty then [] else a.rows.map (cellsFrom p 0 a.columns)

theorem rowsResult_eq (sql : String) (a : Answer) :
    rowsResult p sql a = (collectRows sql (resultSet p a)).map
      (.ofRows (if (resultSet p a).isEmpty then [] else a.columns.map (columnMeta p))) := by
  unfold rowsResult resultSet
  by_cases hc : a.columns.isEmpty
  · simp [hc, Except.map]
  · by_cases hr : a.rows.isEmpty
    · simp [hc, List.isEmpty_iff.mp hr, Except.map]
    · simp [hc, hr]

/-- What the engine answers to a read: one row for each row that came, or the error of the first cell
that could not be decoded and nothing else. -/
theorem resultOf_read (sql : String) (a : Answer) (h : Statement.returnsRows sql.toList = true) :
    (∀ r, resultOf p sql a = .ok r →
      List.Forall₂ Assembled (resultSet p a) r.rows ∧ r.rowCount = (resultSet p a).length) ∧
    ∀ e, resultOf p sql a = .error e ↔
      ∃ c reason, FirstFailed (resultSet p a).flatten c reason ∧ e = c.error sql reason := by
  rw [resultOf, if_pos h, rowsResult_eq]
  cases hout : collectRows sql (resultSet p a) with
  | ok out =>
    have hrows := assembled_collectRows hout
    constructor
    · intro r hr
      cases hr
      exact ⟨hrows, hrows.length_eq.symm⟩
    · intro e
      rw [← collectRows_eq_error, hout]
      exact ⟨fun he => (by cases he), fun he => (by cases he)⟩
  | error f =>
    constructor
    · intro r hr
      cases hr
    · intro e
      rw [← collectRows_eq_error, hout]
      exact ⟨fun he => (by cases he; rfl), fun he => (by cases he; rfl)⟩

end Server

end Parlance
