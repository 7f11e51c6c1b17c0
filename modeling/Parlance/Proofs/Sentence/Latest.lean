import Parlance.Proofs.Sentence.Read

/-! Sentences that ask for the latest rows of a table. The rows are ordered by the column that dates
them, which the interpreter knows or the schema shows. -/

namespace Parlance.Sentence

open Pattern Text
open Interpretation

def latestText (n : Limit) : List Char := ' ' :: ("latest".toList ++ ' ' :: (numeralOf n.1).digits)

def showLatest (t : Table) (n : Limit) : String :=
  String.ofList ("show".toList ++ ' ' :: (t.name.toList ++ latestText n))

theorem prefers_latest {a x : List Char} (n : Numeral) (hx : Spaced x) :
    Prefers Grammar.latest (a ++ [' ']) ("latest".toList ++ ' ' :: n.digits) x
      [(1, .behind (a ++ [' '] ++ "latest".toList ++ [' ']) n.digits)] := by
  have hword : Prefers (phrases ["latest", "newest", "most recent", "last"]) (a ++ [' ']) "latest".toList
      (' ' :: (n.digits ++ x)) [] := .oneOf_head (.phrase (by decide))
  have hedge : Prefers edge (a ++ [' ']) [] ("latest".toList ++ ' ' :: n.digits ++ x) [] := by
    rw [List.append_assoc]
    exact .edge_before (by decide) (by decide)
  exact .seq_nil hedge (.seq_cons hword (prefers_number n hx))

theorem takeLatest_latestText (n : Limit) {a : List Char} (ha : Lacks Grammar.latestWords a) :
    takeLatest ⟨a ++ latestText n⟩ = (some n.1, ⟨a ++ hidden (latestText n)⟩) := by
  have hfind := Grammar.keyed_latest.find?_eq (by decide) ha (prefers_latest (x := []) (numeralOf n.1) .nil)
  have htake := take_segment a ("latest".toList ++ ' ' :: (numeralOf n.1).digits) []
  simp only [List.append_nil] at hfind htake
  simp only [takeLatest, takeNumber, latestText, hfind, Hit.text?_behind, Hit.span_behind]
  simp only [List.lookup_cons_self, Option.map_some, Capture.text_behind, Option.bind_some, readWord64?_numeralOf]
  rw [htake]

theorem lacks_latestText {ws : List String} (hl : Lettered ws) (hlatest : Lacks ws "latest".toList) (n : Limit) :
    Lacks ws (latestText n) := by
  simp only [latestText, Lacks.space_cons, Lacks.append_space]
  exact ⟨hlatest, (numeralOf n.1).lacks hl⟩

theorem plain_latestText (n : Limit) : Plain (latestText n) where
  tidy := by
    have hlatest : Tidy "latest".toList := by decide
    exact .cons (hlatest.space (numeralOf n.1).tidy)
  no_mention := lacks_latestText (by decide) (by decide) n
  no_time := lacks_latestText (by decide) (by decide) n

variable {schema : Schema} {t : Table} (hs : FreeSchema schema) (ht : t ∈ schema.tables)
include hs ht

section Read

variable (t' : Interpreter) {column : String} (hcolumn : t'.timestampColumn? (subjectOf schema t) = some column)
  (n : Limit)
include hcolumn

theorem takeRead_latest {a : List Char} (ha : Lacks readWords a) :
    t'.takeRead (subjectOf schema t) false none none ⟨a ++ latestText n⟩ =
      .ok (⟨[], none, some ⟨column, true⟩, some n.1⟩, [], ⟨a ++ hidden (latestText n)⟩) := by
  have hspaced : Spaced (latestText n) := .cons _
  have hfilter := takeFilter_eq hs ht none (ha.mono (by decide)) (lacks_latestText (by decide) (by decide) n) hspaced
    (lacks_latestText (by decide) (by decide) n)
  have hgroup := takeGroupBy_eq hs ht false none none (ha.mono (by decide))
    (lacks_latestText (by decide) (by decide) n) hspaced
  have horder := takeOrderBy_eq hs ht false none (ha.mono (by decide))
    (lacks_latestText (by decide) (by decide) n) hspaced
  have hlimit := takeLimit_eq none (ha.mono (by decide)) (lacks_latestText (by decide) (by decide) n) hspaced
  have hlatest := takeLatest_latestText n (ha.mono (by decide))
  simp only [whereText, groupText, orderText, limitText, hidden_nil, List.nil_append] at hfilter hgroup horder hlimit
  simp only [Interpreter.takeRead, hfilter, ok_bind, hgroup, horder, Taken.kept_ok, hlimit, hlatest,
    Interpreter.applyLatest, hcolumn]
  rfl

/-- The latest rows are the first in the order of the column that dates them. -/
theorem interpret_latest :
    ∃ i, t'.interpret (showLatest t n) schema = .ok i ∧
      i.intent = .select t.name [] ⟨[], none, some ⟨column, true⟩, some n.1⟩ ∧ i.table = t.name ∧ i.known = true := by
  have hid : NoId (latestText n) := .word (by decide) (by decide)
  have hwords : Lacks readWords (hidden "show".toList ++ hidden (' ' :: t.name.toList)) :=
    lacks_append_hidden (lacks_hidden _)
  have hread := takeRead_latest hs ht t' hcolumn n hwords
  have hspaces : ∀ d ∈ hidden (' ' :: t.name.toList) ++ hidden (latestText n), d = ' ' :=
    List.forall_mem_append.mpr ⟨fun _ => eq_space_of_mem_hidden, fun _ => eq_space_of_mem_hidden⟩
  refine interpret_verb_table t' hs ht .select (plain_latestText n) hid
    (takeIntent_columns t' hs ht .comma [] List.nodup_nil hspaces ?_)
  rw [columnsText, List.nil_append, ← List.append_assoc]
  exact hread

end Read

/-- Interpreters that date the rows of a table by two columns disagree on the latest of them. -/
theorem interpret_latest_ne {t₁ t₂ : Interpreter} {a b : String}
    (ha : t₁.timestampColumn? (subjectOf schema t) = some a) (hb : t₂.timestampColumn? (subjectOf schema t) = some b)
    (hne : a ≠ b) (n : Limit) : t₁.interpret (showLatest t n) schema ≠ t₂.interpret (showLatest t n) schema := by
  obtain ⟨i, hi, hintent, -⟩ := interpret_latest hs ht t₁ ha n
  obtain ⟨j, hj, hother, -⟩ := interpret_latest hs ht t₂ hb n
  intro heq
  rw [hi, hj] at heq
  cases heq
  rw [hintent] at hother
  exact hne (by simpa using hother)

end Parlance.Sentence
