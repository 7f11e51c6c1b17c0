import Parlance.Proofs.Sentence.Clause
import Parlance.Proofs.Sentence.Opening

/-! The clauses of a read together. They are taken one after another, each from what the ones before it
have left, and nothing is left of them in the end. -/

namespace Parlance.Sentence

open Pattern Text
open Interpretation

variable {schema : Schema} {t : Table} {ws : List String}

/-- The clauses of a read in the order in which they stand. -/
structure Clauses (t : Table) where
  filter : Option (Chain t)
  groupBy : Option (ColumnOf t)
  orderBy : Option (ColumnOf t × Bool)
  limit : Option Limit

namespace Clauses

/-- What stands behind the filter. -/
def tail (c : Clauses t) : List Char := groupText c.groupBy ++ (orderText c.orderBy ++ limitText c.limit)

def text (c : Clauses t) : List Char := whereText c.filter ++ c.tail

def clauses (c : Clauses t) : ReadClauses :=
  ⟨filterOf c.filter, c.groupBy.map (·.1), c.orderBy.map fun o => ⟨o.1.1, o.2⟩, c.limit.map (·.1)⟩

end Clauses

/-! ### Words of the clauses -/

theorem lacks_append_hidden {u v : List Char} (h : Lacks ws u) : Lacks ws (u ++ hidden v) :=
  lacks_append_spaced h (lacks_hidden v) (spaced_hidden v)

section Lacks

variable (hs : FreeSchema schema) (ht : t ∈ schema.tables) (hws : ws ⊆ reserved)
include hs ht hws

theorem lacks_groupText (hkeys : ∀ k ∈ ["grouped", "by"], Lacks ws k.toList) (g : Option (ColumnOf t)) :
    Lacks ws (groupText g) := by
  cases g with
  | none => exact .nil
  | some c =>
    simp only [groupText, List.cons_append, List.append_assoc, Lacks.space_cons, Lacks.append_space]
    exact ⟨hkeys "grouped" (by simp), hkeys "by" (by simp), (hs.free_of_mem ht c.2).lacks hws⟩

theorem lacks_orderText (hkeys : ∀ k ∈ ["order", "by", "asc", "desc"], Lacks ws k.toList)
    (o : Option (ColumnOf t × Bool)) : Lacks ws (orderText o) := by
  cases o with
  | none => exact .nil
  | some o =>
    obtain ⟨c, descending⟩ := o
    simp only [orderText, Lacks.space_cons, Lacks.append_space]
    refine ⟨hkeys "order" (by simp), hkeys "by" (by simp), (hs.free_of_mem ht c.2).lacks hws, ?_⟩
    cases descending with
    | false => exact hkeys "asc" (by simp)
    | true => exact hkeys "desc" (by simp)

omit hs ht hws in
theorem lacks_limitText (hl : Lettered ws) (hlimit : Lacks ws "limit".toList) (l : Option Limit) :
    Lacks ws (limitText l) := by
  cases l with
  | none => exact .nil
  | some n =>
    simp only [limitText, Lacks.space_cons, Lacks.append_space]
    exact ⟨hlimit, (numeralOf n.1).lacks hl⟩

/-- The words behind the filter that are no names. -/
def tailWords : List String := ["grouped", "by", "order", "asc", "desc", "limit"]

theorem Clauses.lacks_tail (hl : Lettered ws) (hkeys : ∀ k ∈ tailWords, Lacks ws k.toList) (c : Clauses t) :
    Lacks ws c.tail := by
  have hsub {l : List String} (h : l ⊆ tailWords) : ∀ k ∈ l, Lacks ws k.toList := fun k hk => hkeys k (h hk)
  have hgroup := lacks_groupText hs ht hws (hsub (by decide)) c.groupBy
  have horder := lacks_orderText hs ht hws (hsub (by decide)) c.orderBy
  have hlimit := lacks_limitText hl (hkeys "limit" (by decide)) c.limit
  exact lacks_append_spaced hgroup (lacks_append_spaced horder hlimit (spaced_limitText _))
    ((spaced_orderText _).append (spaced_limitText _))

end Lacks

theorem Clauses.spaced_tail (c : Clauses t) : Spaced c.tail :=
  (spaced_groupText _).append ((spaced_orderText _).append (spaced_limitText _))

/-! ### Taking them -/

/-- Words that a clause of a read opens with. -/
def readWords : List String :=
  Grammar.cueWords ++ Grammar.groupWords ++ Grammar.orderingWords ++ Grammar.limitWords ++ Grammar.latestWords

section Read

variable (t' : Interpreter) (hs : FreeSchema schema) (ht : t ∈ schema.tables) (count : Bool) (c : Clauses t)
  {a : List Char} (ha : Lacks readWords a)
include hs ht ha

/-- Whatever the filter is, the clauses behind it are taken to the last. -/
theorem takeRead_tail {ws : Workspace} {f : Filter}
    (hfilter : Interpreter.takeFilter (subjectOf schema t) none none ws = .ok (f, ⟨a ++ c.tail⟩)) :
    t'.takeRead (subjectOf schema t) count none none ws =
      .ok (⟨f, c.clauses.groupBy, c.clauses.orderBy, c.clauses.limit⟩, [], ⟨a ++ hidden c.tail⟩) := by
  have hgroup := takeGroupBy_eq hs ht count c.groupBy c.orderBy (ha.mono (by decide))
    (lacks_limitText (by decide) (by decide) c.limit) (spaced_limitText _)
  have horder := takeOrderBy_eq hs ht count c.orderBy (a := a ++ hidden (groupText c.groupBy))
    (lacks_append_hidden (ha.mono (by decide))) (lacks_limitText (by decide) (by decide) c.limit) (spaced_limitText _)
  have hlimit := takeLimit_eq c.limit (a := a ++ hidden (groupText c.groupBy) ++ hidden (orderText c.orderBy))
    (lacks_append_hidden (lacks_append_hidden (ha.mono (by decide)))) .nil .nil
  have hlatest : takeLatest ⟨a ++ hidden c.tail⟩ = _ := takeLatest_eq (lacks_append_hidden (ha.mono (by decide)))
  simp only [List.append_assoc, List.append_nil] at horder hlimit
  simp only [Clauses.tail, hidden_append] at hfilter hlatest ⊢
  simp only [Interpreter.takeRead, hfilter, ok_bind, hgroup, horder, Taken.kept_ok, hlimit, hlatest,
    Interpreter.applyLatest, Clauses.clauses]

theorem takeRead_eq : t'.takeRead (subjectOf schema t) count none none ⟨a ++ c.text⟩ =
    .ok (c.clauses, [], ⟨a ++ hidden c.text⟩) := by
  have hfilter := takeFilter_eq hs ht c.filter (ha.mono (by decide))
    (c.lacks_tail hs ht (by decide) (by decide) (by decide)) c.spaced_tail
    (c.lacks_tail hs ht (by decide) (by decide) (by decide))
  rw [← List.append_assoc _ (hidden _)] at hfilter
  have hread := takeRead_tail t' hs ht count c (lacks_append_hidden ha) hfilter
  rw [Clauses.text, hidden_append, hread, List.append_assoc]
  rfl

end Read

/-! ### In a sentence -/

theorem noId_whereText (c : Option (Chain t)) : NoId (whereText c) := by
  cases c with
  | none => exact .nil
  | some => exact .word (by decide) (by decide)

theorem Clauses.noId (c : Clauses t) : NoId c.text := by
  have hgroup : NoId (groupText c.groupBy) := by
    cases c.groupBy with
    | none => exact .nil
    | some => exact .word (by decide) (by decide)
  have horder : NoId (orderText c.orderBy) := by
    cases c.orderBy with
    | none => exact .nil
    | some => exact .word (by decide) (by decide)
  have hlimit : NoId (limitText c.limit) := by
    cases c.limit with
    | none => exact .nil
    | some => exact .word (by decide) (by decide)
  exact (noId_whereText _).append (hgroup.append (horder.append hlimit))

section Plain

variable (hs : FreeSchema schema) (ht : t ∈ schema.tables)
include hs ht

theorem Condition.tidy (c : Condition t) : Tidy c.text := by
  have hsign : Tidy c.op.sql.toList := by cases c.op <;> decide
  exact (hs.free_of_mem ht c.column.2).tidy.space (hsign.space c.value.tidy)

theorem tidyEnd_linked (rest : List (Connective × Condition t)) : TidyEnd (linked rest) := by
  induction rest with
  | nil => exact .nil
  | cons link rest ih =>
    obtain ⟨k, c⟩ := link
    have hword : Tidy (connectiveWord k).toList := by cases k <;> decide
    exact .cons (hword.space ((c.tidy hs ht).append ih))

theorem tidyEnd_whereText (c : Option (Chain t)) : TidyEnd (whereText c) := by
  cases c with
  | none => exact .nil
  | some c =>
    have hwhere : Tidy "where".toList := by decide
    exact .cons (hwhere.space ((c.first.tidy hs ht).append (tidyEnd_linked hs ht c.rest)))

theorem tidyEnd_groupText (g : Option (ColumnOf t)) : TidyEnd (groupText g) := by
  cases g with
  | none => exact .nil
  | some c =>
    have hgrouped : Tidy ("grouped".toList ++ ' ' :: "by".toList) := by decide
    exact .cons (hgrouped.space (hs.free_of_mem ht c.2).tidy)

theorem tidyEnd_orderText (o : Option (ColumnOf t × Bool)) : TidyEnd (orderText o) := by
  cases o with
  | none => exact .nil
  | some o =>
    obtain ⟨c, descending⟩ := o
    have horder : Tidy "order".toList := by decide
    have hby : Tidy "by".toList := by decide
    have hdirection : Tidy (directionWord descending).toList := by cases descending <;> decide
    exact .cons (horder.space (hby.space ((hs.free_of_mem ht c.2).tidy.space hdirection)))

omit hs ht in
theorem tidyEnd_limitText (l : Option Limit) : TidyEnd (limitText l) := by
  cases l with
  | none => exact .nil
  | some n =>
    have hlimit : Tidy "limit".toList := by decide
    exact .cons (hlimit.space (numeralOf n.1).tidy)

theorem Clauses.tidyEnd_tail (c : Clauses t) : TidyEnd c.tail :=
  (tidyEnd_groupText hs ht _).append ((tidyEnd_orderText hs ht _).append (tidyEnd_limitText _))

theorem plain_whereText (c : Option (Chain t)) : Plain (whereText c) := by
  have hlacks {ws : List String} (hws : ws ⊆ reserved) (hl : Lettered ws)
      (hkeys : ∀ k ∈ ["and", "or", "where"], Lacks ws k.toList) : Lacks ws (whereText c) := by
    refine lacks_whereText hs ht hws hl (fun k => ?_) (hkeys "where" (by simp)) c
    cases k with
    | and => exact hkeys "and" (by simp)
    | or => exact hkeys "or" (by simp)
  exact ⟨tidyEnd_whereText hs ht c, hlacks (by decide) (by decide) (by decide),
    hlacks (by decide) (by decide) (by decide)⟩

theorem Clauses.plain (c : Clauses t) : Plain c.text := by
  have htail : Plain c.tail := ⟨c.tidyEnd_tail hs ht, c.lacks_tail hs ht (by decide) (by decide) (by decide),
    c.lacks_tail hs ht (by decide) (by decide) (by decide)⟩
  exact (plain_whereText hs ht c.filter).append htail

end Plain

end Parlance.Sentence
