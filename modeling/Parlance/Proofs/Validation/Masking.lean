import Parlance.Proofs.Pattern.WholeWord

/-! What is left of a statement when its quoted text and its parentheses are masked. The mask works
from left to right, so that a text behind another is masked from where the first one leaves it. -/

namespace Parlance

namespace Text

variable {w : String}

theorem hasWord_nil (hw : w ≠ "") : hasWord w [] = false := by
  have hl : w.toList ≠ [] := fun h => hw (String.toList_eq_nil_iff.mp h)
  cases h : w.toList with
  | nil => exact absurd h hl
  | cons c cs => simp [hasWord, pieces, sameWord, asciiLower, h]

theorem hasWord_of_no_word (hw : w ≠ "") {cs : List Char} (h : ∀ c ∈ cs, isWord c = false) :
    hasWord w cs = false := by
  induction cs with
  | nil => exact hasWord_nil hw
  | cons c cs ih =>
    obtain ⟨hc, hcs⟩ := List.forall_mem_cons.mp h
    rw [hasWord_cons hc cs (hasWord_nil hw), ih hcs]

theorem hasWord_append_blank (hw : w ≠ "") {es : List Char} (h : ∀ c ∈ es, isWord c = false)
    (cs : List Char) : hasWord w (cs ++ es) = hasWord w cs := by
  cases es with
  | nil => rw [List.append_nil]
  | cons c es =>
    obtain ⟨hc, hes⟩ := List.forall_mem_cons.mp h
    rw [hasWord_append hc, hasWord_of_no_word hw hes, Bool.or_false]

theorem hasWord_blank_append (hw : w ≠ "") {bs : List Char} (h : ∀ c ∈ bs, isWord c = false)
    (cs : List Char) : hasWord w (bs ++ cs) = hasWord w cs := by
  induction bs with
  | nil => rfl
  | cons c bs ih =>
    obtain ⟨hc, hrest⟩ := List.forall_mem_cons.mp h
    rw [List.cons_append, hasWord_cons hc _ (hasWord_nil hw), ih hrest]

end Text

namespace Validation

open Text (isBlank isWord hasWord)

/-- Where a scan stands behind a text. -/
def Nesting.run (n : Nesting) (cs : List Char) : Nesting := cs.foldl Nesting.step n

theorem Nesting.run_append (n : Nesting) (a b : List Char) : n.run (a ++ b) = (n.run a).run b :=
  List.foldl_append

theorem maskFrom_append (n : Nesting) (a b : List Char) :
    maskFrom n (a ++ b) = maskFrom n a ++ maskFrom (n.run a) b := by
  induction a generalizing n with
  | nil => rfl
  | cons c a ih =>
    rw [List.cons_append, maskFrom, ih, maskFrom]
    rfl

/-- The character neither opens nor closes anything. -/
def Neutral (c : Char) : Prop := isQuote c = false ∧ c ≠ '(' ∧ c ≠ ')'

instance (c : Char) : Decidable (Neutral c) := inferInstanceAs (Decidable (_ ∧ _ ∧ _))

theorem step_quoted (q : Char) (n : Nat) (c : Char) :
    Nesting.step ⟨some q, n⟩ c = ⟨if c = q then none else some q, n⟩ := by
  simp only [Nesting.step]
  split <;> rfl

theorem step_quote {c : Char} (h : isQuote c = true) (n : Nat) :
    Nesting.step ⟨none, n⟩ c = ⟨some c, n⟩ := by
  simp [Nesting.step, h]

theorem step_open (n : Nat) : Nesting.step ⟨none, n⟩ '(' = ⟨none, n + 1⟩ := rfl
theorem step_close (n : Nat) : Nesting.step ⟨none, n⟩ ')' = ⟨none, n - 1⟩ := rfl

theorem step_plain {c : Char} (h : Neutral c) (n : Nat) :
    Nesting.step ⟨none, n⟩ c = ⟨none, n⟩ := by
  obtain ⟨hq, ho, hc⟩ := h
  simp [Nesting.step, hq, ho, hc]

theorem shows_quoted (q : Char) (n : Nat) (c : Char) : Nesting.shows ⟨some q, n⟩ c = false := by
  simp [Nesting.shows, Nesting.outer]

theorem shows_quote {c : Char} (h : isQuote c = true) (n : Nesting) : n.shows c = false := by
  simp [Nesting.shows, h]

theorem shows_outer {c : Char} (h : Neutral c) : Nesting.outer.shows c = true := by
  obtain ⟨hq, ho, hc⟩ := h
  simp [Nesting.shows, hq, ho, hc]

/-- A text that opens and closes nothing shows as it is. -/
theorem maskFrom_outer {cs : List Char} (h : ∀ c ∈ cs, Neutral c) :
    maskFrom .outer cs = cs ∧ Nesting.outer.run cs = .outer := by
  induction cs with
  | nil => exact ⟨rfl, rfl⟩
  | cons c cs ih =>
    obtain ⟨hc, hrest⟩ := List.forall_mem_cons.mp h
    have hstep : Nesting.outer.step c = .outer := step_plain hc 0
    obtain ⟨hmask, hrun⟩ := ih hrest
    constructor
    · rw [maskFrom, shows_outer hc, if_pos rfl, hstep, hmask]
    · rw [Nesting.run, List.foldl_cons, hstep, ← Nesting.run, hrun]

/-- A class without quotes and parentheses is neutral. -/
theorem neutral_of_holds {p : Char → Bool} (hp : ∀ d ∈ ['\'', '"', '`', '(', ')'], p d = false)
    {c : Char} (h : p c = true) : Neutral c := by
  have hne (d : Char) (hd : d ∈ ['\'', '"', '`', '(', ')']) : c ≠ d := Text.ne_of_holds h (hp d hd)
  have hs := hne '\'' (by decide)
  have hd := hne '"' (by decide)
  have hb := hne '`' (by decide)
  exact ⟨by simp [isQuote, hs, hd, hb], hne '(' (by decide), hne ')' (by decide)⟩

theorem neutral_of_isBlank {c : Char} (h : isBlank c = true) : Neutral c :=
  neutral_of_holds (by decide) h

theorem isWord_of_mem_maskFrom {n : Nesting} {es : List Char} (h : ∀ c ∈ es, isBlank c = true) :
    ∀ c ∈ maskFrom n es, isWord c = false := by
  induction es generalizing n with
  | nil => simp [maskFrom]
  | cons e es ih =>
    obtain ⟨he, hes⟩ := List.forall_mem_cons.mp h
    rw [maskFrom]
    refine List.forall_mem_cons.mpr ⟨?_, ih hes⟩
    split
    · exact Text.isWord_of_isBlank he
    · decide

/-- Trimming a statement changes none of the words that show. -/
theorem hasWord_topLevel_trim {w : String} (hw : w ≠ "") (cs : List Char) :
    hasWord w (topLevel (Text.trim cs)) = hasWord w (topLevel cs) := by
  obtain ⟨bs, es, hcs, hbs, hes⟩ := Text.trim_append cs
  generalize Text.trim cs = t at hcs ⊢
  subst hcs
  -- Blanks open and close nothing: the scan meets the rest as it would without them.
  obtain ⟨hmask, hrun⟩ := maskFrom_outer fun c hc => neutral_of_isBlank (hbs c hc)
  rw [topLevel, topLevel, maskFrom_append, maskFrom_append, hmask, hrun,
    Text.hasWord_append_blank hw (isWord_of_mem_maskFrom hes),
    Text.hasWord_blank_append hw fun c hc => Text.isWord_of_isBlank (hbs c hc)]

/-! ### Styles of quoting -/

/-- The marks that open quoted text, each with the mark that closes it. -/
abbrev Quotation := List (Char × Char)

/-- The styles that the mask knows. -/
def Quotation.masked : Quotation := [('\'', '\''), ('"', '"'), ('`', '`')]

/-- The styles of the mask and those of table names. -/
def Quotation.all : Quotation := Quotation.masked ++ [('[', ']')]

/-- The statement with spaces for all that stands between marks of the given styles or in
parentheses. The mark that is awaited comes first, then the number of open parentheses. -/
def shownFrom (q : Quotation) : Option Char → Nat → List Char → List Char
  | _, _, [] => []
  | some close, n, c :: cs => ' ' :: shownFrom q (if c = close then none else some close) n cs
  | none, n, c :: cs =>
    match q.lookup c with
    | some close => ' ' :: shownFrom q (some close) n cs
    | none =>
      if c = '(' then ' ' :: shownFrom q none (n + 1) cs
      else if c = ')' then ' ' :: shownFrom q none (n - 1) cs
      else (if n = 0 then c else ' ') :: shownFrom q none n cs

def shown (q : Quotation) (cs : List Char) : List Char := shownFrom q none 0 cs

theorem lookup_masked (c : Char) : Quotation.masked.lookup c = if isQuote c then some c else none := by
  have hbeq (d : Char) : (c == d) = decide (c = d) := rfl
  simp only [Quotation.masked, List.lookup_cons, List.lookup_nil, isQuote, hbeq]
  by_cases hs : c = '\''
  · simp [hs]
  · by_cases hd : c = '"'
    · simp [hd]
    · by_cases hb : c = '`' <;> simp [hs, hd, hb]

theorem shownFrom_masked (quote : Option Char) (n : Nat) (cs : List Char) :
    shownFrom .masked quote n cs = maskFrom ⟨quote, n⟩ cs := by
  induction cs generalizing quote n with
  | nil => cases quote <;> rfl
  | cons c cs ih =>
    cases quote with
    | some close => rw [shownFrom, maskFrom, shows_quoted, step_quoted, ih]; rfl
    | none =>
      rw [shownFrom, lookup_masked, maskFrom]
      cases hq : isQuote c with
      | true =>
        rw [shows_quote hq, step_quote hq, ← ih]
        rfl
      | false =>
        by_cases ho : c = '('
        · subst ho
          rw [step_open, ← ih]
          simp [Nesting.shows]
        · by_cases hc : c = ')'
          · subst hc
            rw [step_close, ← ih]
            simp [Nesting.shows]
          · rw [step_plain ⟨hq, ho, hc⟩, ← ih]
            simp [Nesting.shows, Nesting.outer, hq, ho, hc]

/-- The mask of the validator is the one for its three styles. -/
theorem shown_masked (cs : List Char) : shown .masked cs = topLevel cs :=
  shownFrom_masked none 0 cs

end Validation

end Parlance
