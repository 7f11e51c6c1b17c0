import Mathlib.Data.List.Induction
import Parlance.Proofs.Text.Lowered
import Parlance.Schema
import Parlance.Server.Engine

/-! A schema that is filled row by row from a catalog. Every table holds the columns of its rows in
their order, however the tables are interleaved; a look-up, which ignores case, gives the first of the
spellings that the catalog has for a name. -/

namespace Parlance.Schema

/-- The rows of a catalog, each a table and one of its columns, pushed one after the other. -/
def pushed (rows : List (String × Column)) : Schema :=
  rows.foldl (fun s r => s.push r.1 r.2) .empty

def columnsOf (rows : List (String × Column)) (table : String) : List Column :=
  (rows.filter (·.1 = table)).map (·.2)

/-- In code-point order, `first` comes before all other spellings of `name` in the catalog. -/
structure FirstSpelling (rows : List (String × Column)) (name first : String) : Prop where
  occurs : first ∈ rows.map (·.1)
  same : Text.sameWord first.toList name.toList = true
  least : ∀ r ∈ rows, Text.sameWord r.1.toList name.toList = true → ¬ r.1 < first

/-- What a server's catalog is read into. -/
theorem catalogSchema_eq (p : Server.Protocol) (a : Server.Answer) :
    Server.catalogSchema p a = (a.rows.mapM (Server.catalogColumn p a.columns)).map pushed := by
  unfold Server.catalogSchema
  cases a.rows.mapM (Server.catalogColumn p a.columns) with
  | error e => rfl
  | ok rows => rfl

variable {ts : List Table} {t : Table} {name : String} {f : List Column → List Column}
  {rows : List (String × Column)}

/-! ### One push -/

/-- The order of the tables, in which every name comes once. -/
def Sorted (ts : List Table) : Prop := ts.Pairwise fun a b => a.name < b.name

theorem name_of_mem_alterTable (h : t ∈ alterTable name f ts) : t.name = name ∨ t ∈ ts := by
  induction ts with
  | nil =>
    rw [alterTable, List.mem_singleton] at h
    exact .inl (by rw [h])
  | cons u ts ih =>
    rw [alterTable] at h
    by_cases hu : u.name = name
    · rw [if_pos hu, List.mem_cons] at h
      rcases h with h | h
      · exact .inl (by rw [h])
      · exact .inr (.tail _ h)
    · by_cases hlt : name < u.name
      · rw [if_neg hu, if_pos hlt, List.mem_cons] at h
        rcases h with h | h
        · exact .inl (by rw [h])
        · exact .inr h
      · rw [if_neg hu, if_neg hlt, List.mem_cons] at h
        rcases h with h | h
        · exact .inr (by rw [h]; exact .head _)
        · rcases ih h with h | h
          · exact .inl h
          · exact .inr (.tail _ h)

theorem sorted_alterTable (h : Sorted ts) : Sorted (alterTable name f ts) := by
  induction ts with
  | nil => exact List.pairwise_singleton _ _
  | cons u ts ih =>
    obtain ⟨hu, hts⟩ := List.pairwise_cons.mp h
    rw [alterTable]
    by_cases heq : u.name = name
    · rw [if_pos heq]
      refine List.pairwise_cons.mpr ⟨fun v hv => ?_, hts⟩
      change name < v.name
      rw [← heq]
      exact hu v hv
    · by_cases hlt : name < u.name
      · rw [if_neg heq, if_pos hlt]
        refine List.pairwise_cons.mpr ⟨fun v hv => ?_, h⟩
        rcases List.mem_cons.mp hv with rfl | hv
        · exact hlt
        · exact String.lt_trans hlt (hu v hv)
      · rw [if_neg heq, if_neg hlt]
        have hbefore : u.name < name := String.not_le.mp fun hle =>
          heq (String.le_antisymm (String.not_lt.mp hlt) hle)
        refine List.pairwise_cons.mpr ⟨fun v hv => ?_, ih hts⟩
        rcases name_of_mem_alterTable hv with hv | hv
        · rw [hv]
          exact hbefore
        · exact hu v hv

/-- The columns of the table of exactly this name; none if there is no such table. -/
def columnsIn (name : String) (ts : List Table) : List Column :=
  ((ts.find? (·.name = name)).map (·.columns)).getD []

theorem columnsIn_cons (name : String) (u : Table) (ts : List Table) :
    columnsIn name (u :: ts) = if u.name = name then u.columns else columnsIn name ts := by
  by_cases hu : u.name = name
  · simp [columnsIn, hu]
  · simp [columnsIn, hu]

theorem columnsIn_of_forall_ne (h : ∀ u ∈ ts, u.name ≠ name) : columnsIn name ts = [] := by
  have hnone : ts.find? (·.name = name) = none := by
    rw [List.find?_eq_none]
    intro u hu
    simp [h u hu]
  rw [columnsIn, hnone]
  rfl

theorem eq_mk_iff {cs : List Column} : t = ⟨name, cs⟩ ↔ t.name = name ∧ t.columns = cs := by
  cases t
  simp

/-- The table that is changed, and the others as they were. -/
theorem mem_alterTable (h : Sorted ts) :
    t ∈ alterTable name f ts ↔ if t.name = name then t.columns = f (columnsIn name ts) else t ∈ ts := by
  induction ts with
  | nil =>
    rw [alterTable, List.mem_singleton, eq_mk_iff]
    by_cases ht : t.name = name
    · simp [ht, columnsIn]
    · simp [ht]
  | cons u ts ih =>
    obtain ⟨hu, hts⟩ := List.pairwise_cons.mp h
    rw [alterTable]
    by_cases heq : u.name = name
    · -- The table is here, and the order lets no other one of its name come behind it.
      have hlater : t.name = name → t ∉ ts := fun ht hmem =>
        String.lt_irrefl name (by
          have hlt := hu t hmem
          rw [heq, ht] at hlt
          exact hlt)
      rw [if_pos heq, columnsIn_cons, if_pos heq, List.mem_cons, eq_mk_iff]
      by_cases ht : t.name = name
      · simp [ht, hlater ht]
      · have hne : t ≠ u := fun h => ht (by rw [h]; exact heq)
        simp [ht, hne]
    · by_cases hlt : name < u.name
      · -- Its place is before this table: all that follow have greater names.
        have hnone : ∀ v ∈ u :: ts, v.name ≠ name := by
          intro v hv hname
          rcases List.mem_cons.mp hv with rfl | hv
          · exact heq hname
          · have hlt := String.lt_trans hlt (hu v hv)
            rw [hname] at hlt
            exact String.lt_irrefl name hlt
        rw [if_neg heq, if_pos hlt, columnsIn_of_forall_ne hnone, List.mem_cons, eq_mk_iff]
        by_cases ht : t.name = name
        · have hnot : t ∉ u :: ts := fun hmem => hnone t hmem ht
          simp [ht, hnot]
        · simp [ht]
      · rw [if_neg heq, if_neg hlt, columnsIn_cons, if_neg heq, List.mem_cons, ih hts]
        by_cases ht : t.name = name
        · have hne : t ≠ u := fun h => heq (by rw [← h]; exact ht)
          simp [ht, hne]
        · simp [ht]

/-! ### All of them -/

theorem pushed_append (rows : List (String × Column)) (r : String × Column) :
    pushed (rows ++ [r]) = (pushed rows).push r.1 r.2 := by
  rw [pushed, List.foldl_append]
  rfl

theorem columnsOf_append (rows : List (String × Column)) (r : String × Column) (table : String) :
    columnsOf (rows ++ [r]) table = columnsOf rows table ++ if r.1 = table then [r.2] else [] := by
  by_cases hr : r.1 = table
  · simp [columnsOf, hr]
  · simp [columnsOf, hr]

theorem columnsOf_eq_nil (h : name ∉ rows.map (·.1)) : columnsOf rows name = [] := by
  rw [columnsOf, List.map_eq_nil_iff, List.filter_eq_nil_iff]
  intro r hr hname
  exact h (List.mem_map.mpr ⟨r, hr, of_decide_eq_true hname⟩)

/-- The schema has the tables that the rows name, each with the columns of its rows. -/
structure Holds (rows : List (String × Column)) (ts : List Table) : Prop where
  sorted : Sorted ts
  mem_iff : ∀ t, t ∈ ts ↔ t.name ∈ rows.map (·.1) ∧ t.columns = columnsOf rows t.name

theorem Holds.columnsIn (h : Holds rows ts) (name : String) : columnsIn name ts = columnsOf rows name := by
  by_cases hname : name ∈ rows.map (·.1)
  · have hmem : (⟨name, columnsOf rows name⟩ : Table) ∈ ts := (h.mem_iff _).mpr ⟨hname, rfl⟩
    cases hfind : ts.find? (·.name = name) with
    | none =>
      have hnot := List.find?_eq_none.mp hfind _ hmem
      exact absurd (decide_eq_true rfl) hnot
    | some t =>
      have ht : t.name = name := by simpa using List.find?_some hfind
      rw [Schema.columnsIn, hfind]
      have hcols := ((h.mem_iff t).mp (List.mem_of_find?_eq_some hfind)).2
      rw [ht] at hcols
      exact hcols
  · rw [columnsOf_eq_nil hname]
    apply columnsIn_of_forall_ne
    intro u hu heq
    have hmem := ((h.mem_iff u).mp hu).1
    rw [heq] at hmem
    exact hname hmem

theorem Holds.push (h : Holds rows ts) (r : String × Column) :
    Holds (rows ++ [r]) (alterTable r.1 (· ++ [r.2]) ts) where
  sorted := sorted_alterTable h.sorted
  mem_iff t := by
    rw [mem_alterTable h.sorted, h.columnsIn, columnsOf_append]
    by_cases ht : t.name = r.1
    · have hocc : t.name ∈ (rows ++ [r]).map (·.1) := by simp [ht]
      rw [if_pos ht, if_pos ht.symm, ht, and_iff_right (ht ▸ hocc)]
    · rw [if_neg ht, if_neg (Ne.symm ht), List.append_nil, h.mem_iff]
      simp [ht]

theorem holds_pushed (rows : List (String × Column)) : Holds rows (pushed rows).tables := by
  induction rows using List.reverseRecOn with
  | nil => exact ⟨List.Pairwise.nil, fun t => by simp [pushed, empty]⟩
  | append_singleton rows r ih =>
    rw [pushed_append]
    exact ih.push r

/-! ### Looking up -/

/-- Of the tables that match, the first in the order of the names is found. -/
theorem find?_sorted {p : Table → Bool} (h : Sorted ts) :
    ts.find? p = some t ↔ t ∈ ts ∧ p t = true ∧ ∀ u ∈ ts, p u = true → ¬ u.name < t.name := by
  induction ts with
  | nil => simp
  | cons v ts ih =>
    obtain ⟨hv, hts⟩ := List.pairwise_cons.mp h
    by_cases hp : p v = true
    · rw [List.find?_cons_of_pos hp, Option.some.injEq]
      constructor
      · rintro rfl
        refine ⟨.head _, hp, fun u hu _ hlt => ?_⟩
        rcases List.mem_cons.mp hu with rfl | hu
        · exact String.lt_irrefl _ hlt
        · exact String.lt_asymm hlt (hv u hu)
      · rintro ⟨ht, -, hleast⟩
        rcases List.mem_cons.mp ht with rfl | ht
        · rfl
        · exact absurd (hv t ht) (hleast v (.head _) hp)
    · rw [List.find?_cons_of_neg hp, ih hts]
      constructor
      · rintro ⟨ht, hpt, hleast⟩
        refine ⟨.tail _ ht, hpt, fun u hu hpu => ?_⟩
        rcases List.mem_cons.mp hu with rfl | hu
        · exact absurd hpu hp
        · exact hleast u hu hpu
      · rintro ⟨ht, hpt, hleast⟩
        rcases List.mem_cons.mp ht with rfl | ht
        · exact absurd hpt hp
        · exact ⟨ht, hpt, fun u hu hpu => hleast u (.tail _ hu) hpu⟩

theorem find?_pushed_iff : (pushed rows).find? name.toList = some t ↔
    FirstSpelling rows name t.name ∧ t.columns = columnsOf rows t.name := by
  have hh := holds_pushed rows
  rw [find?, find?_sorted hh.sorted, hh.mem_iff]
  constructor
  · rintro ⟨⟨hocc, hcols⟩, hsame, hleast⟩
    refine ⟨⟨hocc, hsame, fun r hr hrs => ?_⟩, hcols⟩
    exact hleast ⟨r.1, columnsOf rows r.1⟩ ((hh.mem_iff _).mpr ⟨List.mem_map_of_mem hr, rfl⟩) hrs
  · rintro ⟨hfirst, hcols⟩
    refine ⟨⟨hfirst.occurs, hcols⟩, hfirst.same, fun u hu hus => ?_⟩
    obtain ⟨r, hr, hname⟩ := List.mem_map.mp ((hh.mem_iff u).mp hu).1
    rw [← hname] at hus ⊢
    exact hfirst.least r hr hus

theorem findColumn?_of_find? {s : Schema} (h : s.find? name.toList = some t) (w : List Char) :
    s.findColumn? name w = (t.columns.find? (·.isNamed w)).map (·.name) := by
  rw [findColumn?, columns?, h]
  rfl

theorem exists_named {cs : List Column} {c : Column} (h : c ∈ cs) :
    ∃ d, cs.find? (·.isNamed c.name.toList) = some d := by
  cases hfind : cs.find? (·.isNamed c.name.toList) with
  | none => exact absurd (Text.sameWord_iff.mpr rfl) (List.find?_eq_none.mp hfind c h)
  | some d => exact ⟨d, rfl⟩

/-- The name of a table finds the first spelling that the catalog has for it, with the columns of that
spelling as they were pushed, each of which is found in its turn. It is the table's own name if no other
spelling comes before it. -/
theorem lookup_pushed {rows : List (String × Column)} {name : String} (h : name ∈ rows.map (·.1)) :
    ∃ first, FirstSpelling rows name first ∧
      (first = name ↔ ∀ r ∈ rows, Text.sameWord r.1.toList name.toList = true → ¬ r.1 < name) ∧
      (pushed rows).find? name.toList = some ⟨first, columnsOf rows first⟩ ∧
      ∀ c ∈ columnsOf rows first, ∃ d, (columnsOf rows first).find? (·.isNamed c.name.toList) = some d ∧
        (pushed rows).findColumn? name c.name.toList = some d.name := by
  have hsame : Text.sameWord name.toList name.toList = true := Text.sameWord_iff.mpr rfl
  have hmem : (⟨name, columnsOf rows name⟩ : Table) ∈ (pushed rows).tables :=
    ((holds_pushed rows).mem_iff _).mpr ⟨h, rfl⟩
  cases hfind : (pushed rows).find? name.toList with
  | none => exact absurd hsame (List.find?_eq_none.mp hfind _ hmem)
  | some t =>
    obtain ⟨hfirst, hcols⟩ := find?_pushed_iff.mp hfind
    refine ⟨t.name, hfirst, ⟨?_, fun hown => ?_⟩, ?_, fun c hc => ?_⟩
    · intro heq
      have hleast := hfirst.least
      rw [heq] at hleast
      exact hleast
    · have hown : (pushed rows).find? name.toList = some ⟨name, columnsOf rows name⟩ :=
        find?_pushed_iff.mpr ⟨⟨h, hsame, hown⟩, rfl⟩
      rw [hfind, Option.some.injEq] at hown
      rw [hown]
    · rw [← hcols]
    · obtain ⟨d, hd⟩ := exists_named hc
      refine ⟨d, hd, ?_⟩
      rw [findColumn?_of_find? hfind, hcols, hd]
      rfl

/-- Rows of three tables, two of which share a name but for its case. -/
def mixedRows : List (String × Column) :=
  [("Users", .ofType "id" "integer"), ("jobs", .ofType "id" "integer"), ("users", .ofType "name" "text"),
    ("Users", .ofType "age" "integer")]

theorem lookup_pushed_mixedRows :
    "users" ∈ mixedRows.map (·.1) ∧
      ∃ first, FirstSpelling mixedRows "users" first ∧
        (pushed mixedRows).find? "users".toList = some ⟨first, columnsOf mixedRows first⟩ := by
  have h : "users" ∈ mixedRows.map (·.1) := by decide
  obtain ⟨first, hfirst, -, hfind, -⟩ := lookup_pushed h
  exact ⟨h, first, hfirst, hfind⟩

/-- Of two spellings of one name the second is not found by its own name. -/
theorem not_found_by_own_name :
    ¬ ∀ (rows : List (String × Column)) (name : String), name ∈ rows.map (·.1) →
      (pushed rows).find? name.toList = some ⟨name, columnsOf rows name⟩ ∧
      ∀ c ∈ columnsOf rows name, ∃ found, (pushed rows).findColumn? name c.name.toList = some found := by
  intro h
  have hown := (h [("Users", .ofType "id" "integer"), ("users", .ofType "name" "text")] "users"
    (by decide)).1
  revert hown
  decide

end Parlance.Schema
