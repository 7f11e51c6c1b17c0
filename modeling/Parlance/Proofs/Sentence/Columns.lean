import Parlance.Proofs.Sentence.Opening

/-! The columns to show stand between the verb and the table. They are the words that are left when all
clauses have been taken. -/

namespace Parlance.Sentence

open Pattern Text
open Interpretation
open Grammar (isFiller nameWord)

variable {schema : Schema} {t : Table} {ws : List String}

inductive Separator
  | space
  | comma
  | and
  deriving DecidableEq, Repr

def Separator.text : Separator → List Char
  | space => [' ']
  | comma => [',', ' ']
  | and => ' ' :: ("and".toList ++ [' '])

/-- Further columns, each behind the separator. -/
def listed (sep : Separator) : List (ColumnOf t) → List Char
  | [] => []
  | c :: cs => sep.text ++ (c.1.toList ++ listed sep cs)

def columnsText (sep : Separator) : List (ColumnOf t) → List Char
  | [] => []
  | c :: cs => ' ' :: (c.1.toList ++ listed sep cs)

theorem isWordAt_listed (sep : Separator) (cs : List (ColumnOf t)) {x : List Char} (hx : Spaced x) :
    isWordAt (listed sep cs ++ x).head? = false := by
  cases cs with
  | nil => exact hx.isWordAt
  | cons c cs =>
    cases sep with
    | comma => exact (by decide : isWord ',' = false)
    | space | and => exact (by decide : isWord ' ' = false)

section Schema

variable (hs : FreeSchema schema) (ht : t ∈ schema.tables)
include hs ht

theorem lacks_listed (hws : ws ⊆ reserved) (hand : Lacks ws "and".toList) (sep : Separator)
    (cs : List (ColumnOf t)) : ∀ c : ColumnOf t, Lacks ws (c.1.toList ++ listed sep cs) := by
  induction cs with
  | nil =>
    intro c
    rw [listed, List.append_nil]
    exact (hs.free_of_mem ht c.2).lacks hws
  | cons d cs ih =>
    intro c
    have hc := (hs.free_of_mem ht c.2).lacks hws
    cases sep with
    | space => exact Lacks.append_space.mpr ⟨hc, ih d⟩
    | comma => exact (Lacks.append_iff (by decide)).mpr ⟨hc, Lacks.space_cons.mpr (ih d)⟩
    | and => exact Lacks.append_space.mpr ⟨hc, Lacks.append_space.mpr ⟨hand, ih d⟩⟩

theorem lacks_columnsText (hws : ws ⊆ reserved) (hand : Lacks ws "and".toList) (sep : Separator)
    (cs : List (ColumnOf t)) : Lacks ws (columnsText sep cs) := by
  cases cs with
  | nil => exact .nil
  | cons c cs => exact Lacks.space_cons.mpr (lacks_listed hs ht hws hand sep cs c)

theorem tidy_listed (sep : Separator) (cs : List (ColumnOf t)) :
    ∀ c : ColumnOf t, Tidy (c.1.toList ++ listed sep cs) := by
  induction cs with
  | nil =>
    intro c
    rw [listed, List.append_nil]
    exact (hs.free_of_mem ht c.2).tidy
  | cons d cs ih =>
    intro c
    have hfree := hs.free_of_mem ht c.2
    cases sep with
    | space => exact hfree.tidy.space (ih d)
    | comma =>
      have hcomma : Tidy (c.1.toList ++ [',']) := by
        refine .of_word (by simp) (List.forall_mem_append.mpr ⟨hfree.not_isDropped, ?_⟩)
        decide
      have h := hcomma.space (ih d)
      rwa [List.append_assoc] at h
    | and =>
      have hand : Tidy "and".toList := by decide
      exact hfree.tidy.space (hand.space (ih d))

theorem tidyEnd_columnsText (sep : Separator) (cs : List (ColumnOf t)) : TidyEnd (columnsText sep cs) := by
  cases cs with
  | nil => exact .nil
  | cons c cs => exact .cons (tidy_listed hs ht sep cs c)

theorem plain_columnsText (sep : Separator) (cs : List (ColumnOf t)) : Plain (columnsText sep cs) where
  tidy := tidyEnd_columnsText hs ht sep cs
  no_mention := lacks_columnsText hs ht (by decide) (by decide) sep cs
  no_time := lacks_columnsText hs ht (by decide) (by decide) sep cs

end Schema

/-! ### Reading the columns -/

/-- The words of hits that are no fillers, in lower case. -/
def meaningful (hs : List Hit) : List (List Char) := (hs.map fun h => lower h.text).filter (!isFiller ·)

/-- A separator holds nothing but a filler. -/
theorem meaningful_separator (sep : Separator) (u v : List Char) {low : Nat} (hlow : low ≤ size u) :
    ∃ low', low' ≤ size (u ++ sep.text) ∧
      meaningful (nameWord.hitsFrom low (.between u (sep.text ++ v)) (sep.text ++ v)) =
        meaningful (nameWord.hitsFrom low' (.between (u ++ sep.text) v) v) := by
  cases sep with
  | space =>
    refine ⟨low, by rw [size_append]; omega, ?_⟩
    exact congrArg meaningful (hitsFrom_nameWord_skip (by decide))
  | comma =>
    refine ⟨low, by rw [size_append]; omega, ?_⟩
    exact congrArg meaningful (hitsFrom_nameWord_skip (by decide))
  | and =>
    have hname : IsName "and".toList := ⟨'a', _, rfl, by decide, by decide⟩
    have hspace : nameWord.hitsFrom low (.between u ([' '] ++ ("and".toList ++ ([' '] ++ v))))
        ([' '] ++ ("and".toList ++ ([' '] ++ v))) = _ := hitsFrom_nameWord_skip (by decide)
    have hand : nameWord.hitsFrom low (.between (u ++ [' ']) ("and".toList ++ ([' '] ++ v)))
        ("and".toList ++ ([' '] ++ v)) = _ :=
      hitsFrom_nameWord hname (isWordAt_concat_space u) (by exact (by decide : isWord ' ' = false))
        (by rw [size_append]; omega)
    have hbehind : nameWord.hitsFrom (size (u ++ [' '] ++ "and".toList))
        (.between (u ++ [' '] ++ "and".toList) ([' '] ++ v)) ([' '] ++ v) = _ := hitsFrom_nameWord_skip (by decide)
    have hfiller : isFiller (lower "and".toList) = true := by decide
    refine ⟨size (u ++ [' '] ++ "and".toList), ?_, ?_⟩
    · simp only [Separator.text, size_append, size]
      omega
    · have hshape : Separator.text .and ++ v = [' '] ++ ("and".toList ++ ([' '] ++ v)) := by simp [Separator.text]
      have hcursor : u ++ Separator.text .and = u ++ [' '] ++ "and".toList ++ [' '] := by simp [Separator.text]
      rw [hshape, hcursor, hspace, hand, hbehind, meaningful, List.map_cons, List.filter_cons_of_neg]
      · rfl
      · simp only [Hit.behind, hfiller]
        decide

variable (hs : FreeSchema schema) (ht : t ∈ schema.tables)
include hs ht

theorem meaningful_listed (sep : Separator) {z : List Char} (hz : ∀ c ∈ z, isNameStart c = false) (hspaced : Spaced z)
    (cs : List (ColumnOf t)) : ∀ (c : ColumnOf t) (u : List Char) (low : Nat), isWordAt u.getLast? = false →
      low ≤ size u → meaningful (nameWord.hitsFrom low (.between u (c.1.toList ++ (listed sep cs ++ z)))
        (c.1.toList ++ (listed sep cs ++ z))) = (c :: cs).map (·.1.toList) := by
  induction cs with
  | nil =>
    intro c u low hu hlow
    have hfree := hs.free_of_mem ht c.2
    rw [listed, List.nil_append, hitsFrom_nameWord hfree.isName hu hspaced.isWordAt hlow, hitsFrom_nameWord_eq_nil hz]
    simp [meaningful, Hit.behind, hfree.lower_eq, hfree.not_isFiller]
  | cons d cs ih =>
    intro c u low hu hlow
    have hfree := hs.free_of_mem ht c.2
    have hrest := isWordAt_listed sep (d :: cs) hspaced
    obtain ⟨low', hlow', hsep⟩ := meaningful_separator sep (u ++ c.1.toList) (d.1.toList ++ (listed sep cs ++ z))
      (Nat.le_refl _)
    have hlast : isWordAt (u ++ c.1.toList ++ sep.text).getLast? = false := by
      cases sep
      · exact isWordAt_concat_space _
      · have h := isWordAt_concat_space (u ++ c.1.toList ++ [','])
        rwa [List.append_assoc] at h
      · have h := isWordAt_concat_space (u ++ c.1.toList ++ ' ' :: "and".toList)
        rwa [List.append_assoc] at h
    have hshape : listed sep (d :: cs) ++ z = sep.text ++ (d.1.toList ++ (listed sep cs ++ z)) := by
      simp [listed]
    have hnext := ih d (u ++ c.1.toList ++ sep.text) low' hlast hlow'
    rw [hitsFrom_nameWord hfree.isName hu hrest hlow, hshape]
    rw [← hsep] at hnext
    simp only [meaningful, List.map_cons, Hit.behind, hfree.lower_eq] at hnext ⊢
    rw [List.filter_cons_of_pos (by simp [hfree.not_isFiller]), hnext]

theorem filterMap_column? (cs : List (ColumnOf t)) :
    (cs.map (·.1.toList)).filterMap (subjectOf schema t).column? = cs.map (·.1) := by
  induction cs with
  | nil => rfl
  | cons c cs ih => simp only [List.map_cons, List.filterMap_cons, hs.column?_eq ht c.2, ih]

omit hs ht in
theorem foldl_addColumn {cs : List String} : ∀ before : List String, (before ++ cs).Nodup →
    cs.foldl addColumn before = before ++ cs := by
  induction cs with
  | nil => intro before _; simp
  | cons c cs ih =>
    intro before h
    have hnot : c ∉ before := by
      intro hmem
      exact (List.nodup_append.mp h).2.2 c hmem c List.mem_cons_self rfl
    have hrest := ih (before ++ [c]) (by simpa using h)
    rw [List.foldl_cons, addColumn, if_neg hnot, hrest, List.append_assoc, List.singleton_append]

/-- What is left of the text are the columns, in the order in which they stand. -/
theorem columnsLeft_eq (sep : Separator) (cs : List (ColumnOf t)) (hcs : cs.Nodup) {a z : List Char}
    (hz : ∀ c ∈ z, c = ' ') :
    columnsLeft (subjectOf schema t) (size a) ⟨a ++ (columnsText sep cs ++ z)⟩ = cs.map (·.1) := by
  have hnames : (cs.map (·.1)).Nodup := by
    refine List.pairwise_map.mpr (hcs.imp fun hne he => hne (Subtype.ext he))
  have hstart : ∀ c ∈ z, isNameStart c = false := by
    intro c hc
    rw [hz c hc]
    decide
  have hspaced : Spaced z := fun c hc => hz c (List.mem_of_mem_head? hc)
  have hwords : ((Workspace.words ⟨a ++ (columnsText sep cs ++ z)⟩ (size a)).filter (!isFiller ·)) =
      cs.map (·.1.toList) := by
    rw [Workspace.words, Workspace.after, dropTo_size_append]
    cases cs with
    | nil =>
      have hnil : nameWord.hits z = [] := hitsFrom_nameWord_eq_nil (u := []) hstart
      rw [columnsText, List.nil_append, hnil]
      rfl
    | cons c cs =>
      have hskip : nameWord.hitsFrom 0 (.between [] ([' '] ++ (c.1.toList ++ (listed sep cs ++ z))))
          ([' '] ++ (c.1.toList ++ (listed sep cs ++ z))) = _ := hitsFrom_nameWord_skip (by decide)
      have hshape : columnsText sep (c :: cs) ++ z = [' '] ++ (c.1.toList ++ (listed sep cs ++ z)) := by
        simp [columnsText]
      have hlisted := meaningful_listed hs ht sep hstart hspaced cs c [' '] 0 (by decide) (Nat.zero_le _)
      rw [hshape, Pattern.hits]
      exact (congrArg meaningful hskip).trans hlisted
  rw [columnsLeft, hwords, filterMap_column? hs ht, foldl_addColumn [] (by simpa using hnames), List.nil_append]

end Parlance.Sentence
