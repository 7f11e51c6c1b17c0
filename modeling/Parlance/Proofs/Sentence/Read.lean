import Parlance.Proofs.Sentence.Columns
import Parlance.Proofs.Sentence.ReadClauses

/-! Sentences that ask for rows or for their number. They are interpreted as exactly what they spell:
the table, the columns in their order, the chain of conditions, and the clauses behind it. -/

namespace Parlance.Sentence

open Pattern Text
open Interpretation

variable {schema : Schema} {t : Table}

/-- A sentence that shows columns, or all of them if none is named, or counts rows. -/
inductive Reading (t : Table)
  | rows (sep : Separator) (columns : List (ColumnOf t)) (distinct : columns.Nodup) (clauses : Clauses t)
  | count (clauses : Clauses t)

/-- The table stands behind a preposition if columns stand before it. -/
def source (t : Table) : List (ColumnOf t) → List Char
  | [] => t.name.toList
  | _ :: _ => "from".toList ++ ' ' :: t.name.toList

namespace Reading

def text : Reading t → List Char
  | .rows sep columns _ clauses => "show".toList ++ (columnsText sep columns ++ ' ' :: (source t columns ++ clauses.text))
  | .count clauses => "count".toList ++ ' ' :: (t.name.toList ++ clauses.text)

def intent : Reading t → Intent
  | .rows _ columns _ clauses => .select t.name (columns.map (·.1)) clauses.clauses
  | .count clauses => .count t.name clauses.clauses

end Reading

section Read

variable (t' : Interpreter) (hs : FreeSchema schema) (ht : t ∈ schema.tables)
include hs ht

/-- Columns that stand before the clauses are what is left when the clauses have been taken. -/
theorem takeIntent_columns (sep : Separator) (columns : List (ColumnOf t)) (hcolumns : columns.Nodup)
    {ws : Workspace} {c : ReadClauses} {z : List Char} (hz : ∀ d ∈ z, d = ' ')
    (hread : t'.takeRead (subjectOf schema t) false none none ws =
      .ok (c, [], ⟨hidden "show".toList ++ (columnsText sep columns ++ z)⟩)) (n : Nat) :
    t'.takeIntent (subjectOf schema t) .select (size "show".toList) n none none ws =
      .ok (.select t.name (columns.map (·.1)) c, []) := by
  have hleft := columnsLeft_eq hs ht sep columns hcolumns (a := hidden "show".toList) hz
  rw [size_hidden] at hleft
  simp only [Interpreter.takeIntent, hread, ok_bind, hleft]
  rfl

theorem takeIntent_select (sep : Separator) (columns : List (ColumnOf t)) (hcolumns : columns.Nodup) (c : Clauses t)
    (w : List Char) (n : Nat) :
    t'.takeIntent (subjectOf schema t) .select (size "show".toList) n none none
      ⟨hidden "show".toList ++ columnsText sep columns ++ hidden w ++ c.text⟩ =
        .ok (.select t.name (columns.map (·.1)) c.clauses, []) := by
  have hwords : Lacks readWords (hidden "show".toList ++ columnsText sep columns ++ hidden w) :=
    lacks_append_hidden (lacks_hidden_append.mpr (lacks_columnsText hs ht (by decide +kernel) (by decide) sep columns))
  have hread := takeRead_eq t' hs ht false c hwords
  have hspaces : ∀ d ∈ hidden w ++ hidden c.text, d = ' ' :=
    List.forall_mem_append.mpr ⟨fun _ => eq_space_of_mem_hidden, fun _ => eq_space_of_mem_hidden⟩
  refine takeIntent_columns t' hs ht sep columns hcolumns hspaces ?_ n
  rw [hread]
  simp only [List.append_assoc]

theorem takeIntent_count (c : Clauses t) (u w : List Char) (verbEnd n : Nat) :
    t'.takeIntent (subjectOf schema t) .count verbEnd n none none ⟨hidden u ++ hidden w ++ c.text⟩ =
      .ok (.count t.name c.clauses, []) := by
  have hread := takeRead_eq t' hs ht true c (a := hidden u ++ hidden w) (lacks_append_hidden (lacks_hidden u))
  simp only [Interpreter.takeIntent, hread, ok_bind]
  rfl

/-- Every sentence that reads is interpreted as what it spells, by every interpreter. -/
theorem interpret_reading (r : Reading t) : ∃ i, t'.interpret (String.ofList r.text) schema = .ok i ∧
    i.intent = r.intent ∧ i.table = t.name ∧ i.known = true := by
  cases r with
  | count c =>
    exact interpret_verb_table t' hs ht .count (c.plain hs ht) c.noId fun n => takeIntent_count t' hs ht c _ _ _ n
  | rows sep columns hcolumns c =>
    cases columns with
    | nil =>
      have hselect (n : Nat) := takeIntent_select t' hs ht sep [] hcolumns c (' ' :: t.name.toList) n
      simp only [columnsText, List.append_nil] at hselect
      exact interpret_verb_table t' hs ht .select (c.plain hs ht) c.noId hselect
    | cons column columns =>
      have hme : NoMe (columnsText sep (column :: columns) ++
          ' ' :: ("from".toList ++ ' ' :: t.name.toList ++ c.text)) := by
        rw [columnsText, List.cons_append, List.append_assoc]
        exact (hs.free_of_mem ht column.2).noMe (isWordAt_listed sep columns (.cons _))
      exact interpret_preposition_table t' hs ht .select (c.plain hs ht) c.noId (.inl rfl)
        (plain_columnsText hs ht sep (column :: columns)) (fun _ => hme)
        fun n => takeIntent_select t' hs ht sep (column :: columns) hcolumns c _ n

end Read

/-- Two columns, a chain with both connectives and every clause. -/
theorem interpret_reading_users :
    let users : Table := ⟨"users", [.ofType "id" "integer", .ofType "age" "integer"]⟩
    let schema : Schema := ⟨[⟨"orders", [.ofType "id" "integer"]⟩, users]⟩
    FreeSchema schema ∧ users ∈ schema.tables ∧
    ∃ i, (Interpreter.ofDialect .mysql).interpret
        "show age, id from users where age >= 18 or id = 7 and age != 20 grouped by id order by age desc limit 5"
        schema = .ok i ∧
      i.intent = .select "users" ["age", "id"]
        ⟨[(.and, .compare "age" .greaterEqual (.number "18")), (.or, .compare "id" .equal (.number "7")),
          (.and, .compare "age" .notEqual (.number "20"))], some "id", some ⟨"age", true⟩, some 5⟩ ∧
      i.table = "users" ∧ i.known = true := by
  intro users schema
  have hs : FreeSchema schema := ⟨by decide +kernel, by decide +kernel, by decide +kernel, by decide +kernel⟩
  have ht : users ∈ schema.tables := by decide
  let age : ColumnOf users := ⟨"age", by decide⟩
  let id : ColumnOf users := ⟨"id", by decide⟩
  let clauses : Clauses users := {
    filter := some ⟨⟨age, .greaterEqual, numeralOf 18⟩,
      [(.or, ⟨id, .equal, numeralOf 7⟩),
        (.and, ⟨age, .notEqual, numeralOf 20⟩)]⟩
    groupBy := some id
    orderBy := some (age, true)
    limit := some ⟨5, by decide⟩ }
  let reading : Reading users := .rows .comma [age, id] (by decide) clauses
  have htext : reading.text =
      "show age, id from users where age >= 18 or id = 7 and age != 20 grouped by id order by age desc limit 5".toList := by
    decide +kernel
  have h := interpret_reading (.ofDialect .mysql) hs ht reading
  rw [htext, String.ofList_toList] at h
  exact ⟨hs, ht, h⟩

end Parlance.Sentence
