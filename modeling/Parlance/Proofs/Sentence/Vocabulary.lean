import Parlance.Proofs.Grammar.Keys

/-! Names that no clause of a sentence is taken for. They are lowercase identifiers outside a list of
reserved words; in a schema of such names every table and every column is found under its name. -/

namespace Parlance.Sentence

open Pattern Text
open Grammar (isFiller isOneOf fillerWords cueWords groupWords orderingWords limitWords latestWords
  valuesWords namedWords prepositions recencyWords)
open Interpretation

/-- Words of the grammar: the fillers, the words that open a clause, a list or a mention of a table, the
words passed over before a name, the connectives, and the word by which a count is ordered. -/
def reserved : List String :=
  fillerWords ++ cueWords ++ groupWords ++ orderingWords ++ limitWords ++ latestWords ++ valuesWords
    ++ namedWords ++ prepositions ++ recencyWords
    ++ ["set", "the", "a", "an", "their", "its", "all", "my", "each", "me", "and", "or", "count"]

def isLowerNameChar (c : Char) : Bool := c.isLower || c = '_' || isAsciiDigit c

structure FreeName (n : String) : Prop where
  isName : IsName n.toList
  lower : ∀ c ∈ n.toList, isLowerNameChar c = true
  free : n ∉ reserved

instance (w : List Char) : Decidable (IsName w) :=
  match w with
  | [] => .isFalse fun ⟨_, _, h, _⟩ => nomatch h
  | c :: cs => decidable_of_iff (isNameStart c = true ∧ ∀ d ∈ cs, isNameChar d = true)
      ⟨fun h => ⟨c, cs, rfl, h⟩, fun ⟨_, _, h, hc, hcs⟩ => by cases h; exact ⟨hc, hcs⟩⟩

instance (n : String) : Decidable (FreeName n) :=
  decidable_of_iff (IsName n.toList ∧ (∀ c ∈ n.toList, isLowerNameChar c = true) ∧ n ∉ reserved)
    ⟨fun ⟨h₁, h₂, h₃⟩ => ⟨h₁, h₂, h₃⟩, fun ⟨h₁, h₂, h₃⟩ => ⟨h₁, h₂, h₃⟩⟩

/-- The names of the tables are free and no two alike, and so are those of the columns of each. -/
structure FreeSchema (schema : Schema) : Prop where
  tables : ∀ t ∈ schema.tables, FreeName t.name
  columns : ∀ t ∈ schema.tables, ∀ c ∈ t.columns, FreeName c.name
  tables_distinct : schema.tables.Pairwise fun t t' => sameWord t.name.toList t'.name.toList = false
  columns_distinct : ∀ t ∈ schema.tables,
    t.columns.Pairwise fun c c' => sameWord c.name.toList c'.name.toList = false

/-- The name of a column of the table. -/
abbrev ColumnOf (t : Table) := {c : String // c ∈ t.columns.map (·.name)}

/-! ### Characters of a free name -/

theorem ascii_of_isLowerNameChar {c : Char} (h : isLowerNameChar c = true) : c.toNat < 128 := by
  simp only [isLowerNameChar, Bool.or_eq_true, decide_eq_true_eq] at h
  rcases h with (h | rfl) | h
  · exact ascii_of_isLower h
  · decide
  · exact ascii_of_isAsciiDigit h

theorem toLower_of_isLowerNameChar {c : Char} (h : isLowerNameChar c = true) : c.toLower = c :=
  forall_ascii (P := fun c => isLowerNameChar c = true → c.toLower = c) (by decide)
    (ascii_of_isLowerNameChar h) h

theorem sameWord_comm (a b : List Char) : sameWord a b = sameWord b a :=
  BEq.comm

theorem sameWord_of_spelled {w m : List Char} (h : Spelled w m) (hm : ∀ c ∈ m, c.toNat < 128) :
    sameWord w m = true := by
  rw [sameWord, beq_iff_eq, asciiLower, asciiLower]
  induction h with
  | nil => rfl
  | @cons l c w m hc _ ih =>
    obtain ⟨hascii, hm⟩ := List.forall_mem_cons.mp hm
    have hlong : c.toNat ≠ 0x17f := by omega
    have hkelvin : c.toNat ≠ 0x212a := by omega
    have hlower : c.toLower = l.toLower := by simpa [sameLetter, hlong, hkelvin] using hc
    rw [List.map_cons, List.map_cons, ih hm, hlower]

namespace FreeName

variable {n k : String} {ws : List String} (h : FreeName n)
include h

theorem isNameChar : ∀ c ∈ n.toList, Pattern.isNameChar c = true := h.isName.isNameChar

theorem isWord : ∀ c ∈ n.toList, Text.isWord c = true := h.isName.isWord

theorem not_isBlank : ∀ c ∈ n.toList, isBlank c = false :=
  fun c hc => isBlank_of_isNameChar (h.isNameChar c hc)

theorem ne_nil : n.toList ≠ [] := h.isName.ne_nil

theorem visible (x : List Char) : ∀ c ∈ (n.toList ++ x).head?, isBlank c = false := by
  obtain ⟨c, cs, hn⟩ := List.exists_cons_of_ne_nil h.ne_nil
  intro d hd
  rw [hn] at hd
  cases hd
  exact h.not_isBlank c (by rw [hn]; exact List.mem_cons_self)

theorem asciiLower_eq : asciiLower n.toList = n.toList := by
  have hid : n.toList.map Char.toLower = n.toList.map id :=
    List.map_congr_left fun c hc => toLower_of_isLowerNameChar (h.lower c hc)
  rw [asciiLower, hid, List.map_id]

theorem lower_eq : Text.lower n.toList = n.toList := by
  rw [lower_ascii fun c hc => ascii_of_isLowerNameChar (h.lower c hc), h.asciiLower_eq]

/-- A free name is no reserved word in any spelling. -/
theorem not_sameWord (hk : k ∈ reserved) : sameWord k.toList n.toList = false := by
  have hlower : ∀ k ∈ reserved, asciiLower k.toList = k.toList := by decide +kernel
  rw [sameWord, h.asciiLower_eq, hlower k hk]
  refine beq_false_of_ne fun he => ?_
  rw [String.toList_inj.mp he] at hk
  exact h.free hk

theorem not_isOneOf (hws : ws ⊆ reserved) : isOneOf ws n.toList = false :=
  List.any_eq_false.mpr fun k hk => by simp [h.not_sameWord (hws hk)]

theorem not_isFiller : isFiller n.toList = false :=
  h.not_isOneOf (List.subset_append_of_subset_left _ (by simp))

theorem not_spelled (hk : k ∈ reserved) : ¬Spelled k.toList n.toList := by
  intro hs
  have hword := sameWord_of_spelled hs fun c hc => ascii_of_isLowerNameChar (h.lower c hc)
  rw [h.not_sameWord hk] at hword
  cases hword

theorem lacks (hws : ws ⊆ reserved) : Lacks ws n.toList :=
  .of_word h.isWord fun _ hk => h.not_spelled (hws hk)

end FreeName

/-! ### Looking names up -/

theorem find?_of_pairwise {α : Type} {f : α → List Char} {l : List α} {a : α}
    (h : l.Pairwise fun x y => sameWord (f x) (f y) = false) (ha : a ∈ l) :
    l.find? (fun x => sameWord (f x) (f a)) = some a := by
  induction l with
  | nil => cases ha
  | cons x l ih =>
    obtain ⟨hx, hl⟩ := List.pairwise_cons.mp h
    rw [List.find?_cons]
    rcases List.mem_cons.mp ha with rfl | ha
    · simp [sameWord]
    · rw [hx a ha]
      exact ih hl ha

theorem candidates_eq_cons (w : List Char) : ∃ forms, Inflection.candidates w = w :: forms := by
  simp only [Inflection.candidates, Inflection.addForm, List.foldl_cons, List.foldl_nil]
  split <;> split <;> exact ⟨_, rfl⟩

def subjectOf (schema : Schema) (t : Table) : Subject := ⟨schema, t.name, true⟩

namespace FreeSchema

variable {schema : Schema} {t : Table} {c : String} (h : FreeSchema schema) (ht : t ∈ schema.tables)
include h ht

theorem find?_eq : schema.find? t.name.toList = some t :=
  find?_of_pairwise (f := fun t : Table => t.name.toList) h.tables_distinct ht

theorem lookupTable?_eq : lookupTable? schema t.name.toList = some t.name := by
  obtain ⟨forms, hforms⟩ := candidates_eq_cons t.name.toList
  rw [lookupTable?, (h.tables t ht).lower_eq, hforms, List.findSome?_cons, h.find?_eq ht]
  rfl

theorem columns?_eq : schema.columns? t.name = some t.columns := by
  rw [Schema.columns?, h.find?_eq ht]
  rfl

theorem free_of_mem (hc : c ∈ t.columns.map (·.name)) : FreeName c := by
  obtain ⟨column, hcolumn, rfl⟩ := List.mem_map.mp hc
  exact h.columns t ht column hcolumn

theorem findColumn?_eq (hc : c ∈ t.columns.map (·.name)) :
    schema.findColumn? t.name c.toList = some c := by
  obtain ⟨column, hcolumn, rfl⟩ := List.mem_map.mp hc
  have hfind := find?_of_pairwise (f := fun c : Column => c.name.toList) (h.columns_distinct t ht) hcolumn
  simp only [Schema.findColumn?, h.columns?_eq ht, Option.bind_eq_bind, Option.bind_some]
  exact congrArg (Option.map (·.name)) hfind

theorem column?_eq (hc : c ∈ t.columns.map (·.name)) : (subjectOf schema t).column? c.toList = some c :=
  h.findColumn?_eq ht hc

theorem resolve_eq (hc : c ∈ t.columns.map (·.name)) : (subjectOf schema t).resolve c.toList = .ok c := by
  simp only [Subject.resolve, subjectOf, if_true, h.findColumn?_eq ht hc]

end FreeSchema

end Parlance.Sentence
