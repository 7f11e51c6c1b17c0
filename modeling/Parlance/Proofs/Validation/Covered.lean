import Parlance.Proofs.Validation.Agreement

/-! Quoted texts and groups in parentheses may take each other's place. The scan is behind them where it was
before, and all that it leaves of them is spaces; so what is said of an UPDATE or a DELETE depends on what
stands around them alone. -/

namespace Parlance

namespace Validation

open Text (hasWord isWord)

def inQuotes (q : Char) (body : List Char) : List Char := q :: (body ++ [q])
def inParentheses (body : List Char) : List Char := '(' :: (body ++ [')'])

/-- Whatever is opened in the text is closed in it. -/
inductive Balanced : List Char → Prop
  | nil : Balanced []
  | plain {c : Char} {cs : List Char} : Neutral c → Balanced cs → Balanced (c :: cs)
  | quoted {q : Char} {body cs : List Char} : isQuote q = true → q ∉ body → Balanced cs →
      Balanced (inQuotes q body ++ cs)
  | group {body cs : List Char} : Balanced body → Balanced cs → Balanced (inParentheses body ++ cs)

/-- Quoted texts and balanced groups, one behind the other, and nothing else. -/
inductive Covered : List Char → Prop
  | nil : Covered []
  | quoted {q : Char} {body cs : List Char} : isQuote q = true → q ∉ body → Covered cs →
      Covered (inQuotes q body ++ cs)
  | group {body cs : List Char} : Balanced body → Covered cs → Covered (inParentheses body ++ cs)

theorem Balanced.of_neutral {a cs : List Char} (ha : ∀ c ∈ a, Neutral c) (h : Balanced cs) : Balanced (a ++ cs) := by
  induction a with
  | nil => exact h
  | cons c a ih =>
    obtain ⟨hc, ha⟩ := List.forall_mem_cons.mp ha
    exact .plain hc (ih ha)

/-- Read from `n`, the text shows nothing and leaves the scan where it was. -/
structure Hides (n : Nesting) (cs : List Char) : Prop where
  stays : n.run cs = n
  hidden : ∀ c ∈ maskFrom n cs, c = ' '

namespace Hides

variable {n m : Nesting} {a b : List Char}

theorem nil (n : Nesting) : Hides n [] := ⟨rfl, fun _ h => nomatch h⟩

theorem append (ha : Hides n a) (hb : Hides n b) : Hides n (a ++ b) := by
  constructor
  · rw [Nesting.run_append, ha.stays, hb.stays]
  · rw [maskFrom_append, ha.stays]
    exact List.forall_mem_append.mpr ⟨ha.hidden, hb.hidden⟩

/-- One character leads into another state, and one leads back. -/
theorem enclose {c d : Char} (hc : n.step c = m) (hd : m.step d = n) (hcs : n.shows c = false)
    (hds : m.shows d = false) (h : Hides m a) : Hides n (c :: (a ++ [d])) := by
  constructor
  · have hrun : n.run (c :: (a ++ [d])) = (n.step c).run (a ++ [d]) := rfl
    rw [hrun, hc, Nesting.run_append, h.stays]
    exact hd
  · rw [maskFrom, hc, hcs, maskFrom_append, h.stays]
    refine List.forall_mem_cons.mpr ⟨rfl, List.forall_mem_append.mpr ⟨h.hidden, ?_⟩⟩
    simp [maskFrom, hds]

theorem within {q : Char} {body : List Char} (h : q ∉ body) (n : Nat) : Hides ⟨some q, n⟩ body := by
  induction body with
  | nil => exact nil _
  | cons c body ih =>
    have hc : c ≠ q := Ne.symm (List.ne_of_not_mem_cons h)
    have hstep : Nesting.step ⟨some q, n⟩ c = ⟨some q, n⟩ := by rw [step_quoted, if_neg hc]
    obtain ⟨hstays, hhidden⟩ := ih (List.not_mem_of_not_mem_cons h)
    constructor
    · rw [Nesting.run, List.foldl_cons, hstep, ← Nesting.run, hstays]
    · rw [maskFrom, shows_quoted, hstep]
      exact List.forall_mem_cons.mpr ⟨rfl, hhidden⟩

theorem quoted {q : Char} {body : List Char} (hq : isQuote q = true) (h : q ∉ body) (n : Nat) :
    Hides ⟨none, n⟩ (inQuotes q body) := by
  have hclose : Nesting.step ⟨some q, n⟩ q = ⟨none, n⟩ := by rw [step_quoted, if_pos rfl]
  exact enclose (step_quote hq n) hclose (shows_quote hq _) (shows_quoted q n q) (within h n)

theorem group {body : List Char} {n : Nat} (h : Hides ⟨none, n + 1⟩ body) :
    Hides ⟨none, n⟩ (inParentheses body) := by
  have hopen : Nesting.shows ⟨none, n⟩ '(' = false := by simp [Nesting.shows]
  have hclose : Nesting.shows ⟨none, n + 1⟩ ')' = false := by simp [Nesting.shows]
  exact enclose (step_open n) (step_close (n + 1)) hopen hclose h

/-- Inside parentheses nothing shows that would show outside. -/
theorem plain {c : Char} (hc : Neutral c) (n : Nat) : Hides ⟨none, n + 1⟩ [c] := by
  have hshows : Nesting.shows ⟨none, n + 1⟩ c = false := by simp [Nesting.shows, Nesting.outer]
  constructor
  · exact step_plain hc (n + 1)
  · simp [maskFrom, hshows]

end Hides

theorem Balanced.hides {cs : List Char} (h : Balanced cs) (n : Nat) : Hides ⟨none, n + 1⟩ cs := by
  -- The depth grows with the groups, so that the hypothesis is needed at every depth.
  induction h generalizing n with
  | nil => exact Hides.nil _
  | plain hc _ ih => exact (Hides.plain hc n).append (ih n)
  | quoted hq hbody _ ih => exact (Hides.quoted hq hbody (n + 1)).append (ih n)
  | group _ _ ihbody ih => exact (Hides.group (ihbody (n + 1))).append (ih n)

theorem Covered.hides {cs : List Char} (h : Covered cs) : Hides .outer cs := by
  induction h with
  | nil => exact Hides.nil _
  | quoted hq hbody _ ih => exact (Hides.quoted hq hbody 0).append ih
  | group hbody _ ih => exact (Hides.group (hbody.hides 0)).append ih

/-- Spaces part the words on either side and are none themselves. -/
theorem hasWord_topLevel_covered {w : String} (hw : w ≠ "") {p m : List Char} (hp : Nesting.outer.run p = .outer)
    (hm : Covered m) (hne : m ≠ []) (r : List Char) :
    hasWord w (topLevel (p ++ m ++ r)) = (hasWord w (topLevel p) || hasWord w (topLevel r)) := by
  obtain ⟨hstays, hhidden⟩ := hm.hides
  rw [topLevel, maskFrom_append, maskFrom_append, Nesting.run_append, hp, hstays, List.append_assoc]
  obtain ⟨c, cs, rfl⟩ := List.exists_cons_of_ne_nil hne
  rw [maskFrom] at hhidden ⊢
  obtain ⟨hc, hcs⟩ := List.forall_mem_cons.mp hhidden
  have hblank : ∀ d ∈ maskFrom (Nesting.outer.step c) cs, isWord d = false := by
    intro d hd
    rw [hcs d hd]
    decide
  rw [hc, List.cons_append, Text.hasWord_append (by decide), Text.hasWord_blank_append hw hblank]
  rfl

section Exchange

variable {k : String} {p r : List Char}

/-- The statement that begins with the word and holds the text between two others. -/
def around (k : String) (p m r : List Char) : List Char := k.toList ++ ' ' :: (p ++ m ++ r)

/-- The word WHERE shows before or behind the text between. -/
def ShowsWhere (p r : List Char) : Prop :=
  hasWord "where" (topLevel p) = true ∨ hasWord "where" (topLevel r) = true

instance (p r : List Char) : Decidable (ShowsWhere p r) := inferInstanceAs (Decidable (_ ∨ _))

theorem hasWord_around (hk : ∀ c ∈ k.toList, Neutral c) (hword : hasWord "where" k.toList = false) {m : List Char}
    (hp : Nesting.outer.run p = .outer) (hm : Covered m) (hne : m ≠ []) :
    hasWord "where" (topLevel (around k p m r)) = true ↔ ShowsWhere p r := by
  obtain ⟨hmask, hrun⟩ := maskFrom_outer hk
  have hspace : Nesting.outer.step ' ' = .outer := rfl
  rw [around, topLevel, maskFrom_append, hrun, hmask, maskFrom, shows_outer (by decide), if_pos rfl, hspace,
    Text.hasWord_append (by decide), hword, Bool.false_or, ← topLevel,
    hasWord_topLevel_covered (by decide) hp hm hne, Bool.or_eq_true]
  rfl

/-- The words whose statements are looked at for a WHERE. -/
def filteredWords : List String := ["UPDATE", "DELETE"]

theorem leadingKeyword_around (hk : k ∈ filteredWords) (p m r : List Char) :
    leadingKeyword (Text.trim (around k p m r)) = k := by
  have hall : ∀ k ∈ filteredWords, k.toList ≠ [] ∧ (∀ c ∈ k.toList, endsKeyword c = false) ∧
      String.ofList (Text.upper k.toList) = k := by
    decide
  obtain ⟨hne, hends, hupper⟩ := hall k hk
  rw [around, leadingKeyword_append hne hends, hupper]

/-- The verdict depends on the word and on what stands around the text. -/
theorem verdict_around (hk : k ∈ filteredWords) (hp : Nesting.outer.run p = .outer) {m : List Char} (hm : Covered m)
    (hne : m ≠ []) (v : Validator) (confirm : Bool) :
    (v.validate (around k p m r) confirm).operation =
        (if ShowsWhere p r then k else k ++ " without WHERE clause") ∧
      ((v.validate (around k p m r) confirm).isDestructive = true ↔ k = "DELETE" ∨ ¬ ShowsWhere p r) := by
  have hall : ∀ k ∈ filteredWords, (∀ c ∈ k.toList, Neutral c) ∧ hasWord "where" k.toList = false ∧
      (k = "DELETE" ∨ k = "UPDATE") ∧ (k ∈ destructiveWords ↔ k = "DELETE") := by
    decide
  obtain ⟨hneutral, hword, hfiltered, hdestructive⟩ := hall k hk
  have hwhere := hasWord_around (r := r) hneutral hword hp hm hne
  rw [operation_validate, isDestructive_iff, leadingKeyword_around hk]
  by_cases hs : ShowsWhere p r
  · have hshown := hwhere.mpr hs
    simp [hshown, hs, hdestructive]
  · have hshown : hasWord "where" (topLevel (around k p m r)) = false := by
      rw [← Bool.not_eq_true, hwhere]
      exact hs
    simp only [hshown, hfiltered, hs, if_true, if_false, and_true, not_false_eq_true, or_true, iff_true, true_and]
    exact hfiltered.imp hdestructive.mpr id

/-- Two statements that differ in what is quoted or in parentheses are judged alike: as filtered if the word WHERE
shows in what they share, and as changes of the whole table if it does not. -/
theorem verdict_exchange (hk : k ∈ filteredWords) (hp : Nesting.outer.run p = .outer) {m m' : List Char}
    (hm : Covered m) (hne : m ≠ []) (hm' : Covered m') (hne' : m' ≠ []) (v : Validator) (confirm : Bool) :
    let x := v.validate (around k p m r) confirm
    let y := v.validate (around k p m' r) confirm
    x.operation = y.operation ∧ x.isDestructive = y.isDestructive ∧
      x.operation = (if ShowsWhere p r then k else k ++ " without WHERE clause") ∧
      (x.isDestructive = true ↔ k = "DELETE" ∨ ¬ ShowsWhere p r) := by
  intro x y
  obtain ⟨hoperation, hdestructive⟩ := verdict_around (r := r) hk hp hm hne v confirm
  obtain ⟨hoperation', hdestructive'⟩ := verdict_around (r := r) hk hp hm' hne' v confirm
  refine ⟨hoperation.trans hoperation'.symm, ?_, hoperation, hdestructive⟩
  rw [Bool.eq_iff_iff]
  exact hdestructive.trans hdestructive'.symm

/-- A value that holds a quote and a WHERE, and a nested selection that has one of its own. -/
theorem verdict_exchange_update :
    let p := "t SET x = ".toList
    let r := " where(id = 3)".toList
    let m := "'it''s (where'".toList
    let m' := "(SELECT y FROM u WHERE (z = \")\"))".toList
    let x := (Validator.new false 100 []).validate (around "UPDATE" p m r) false
    let y := (Validator.new false 100 []).validate (around "UPDATE" p m' r) false
    "UPDATE" ∈ filteredWords ∧ Nesting.outer.run p = .outer ∧ Covered m ∧ m ≠ [] ∧ Covered m' ∧ m' ≠ [] ∧
      x.operation = y.operation ∧ x.isDestructive = y.isDestructive ∧
      x.operation = (if ShowsWhere p r then "UPDATE" else "UPDATE without WHERE clause") ∧
      (x.isDestructive = true ↔ "UPDATE" = "DELETE" ∨ ¬ ShowsWhere p r) := by
  intro p r m m' x y
  have hk : "UPDATE" ∈ filteredWords := by decide
  have hp : Nesting.outer.run p = .outer := by decide
  have hm : Covered m := by
    have hparts : m = inQuotes '\'' "it".toList ++ (inQuotes '\'' "s (where".toList ++ []) := by decide
    rw [hparts]
    exact .quoted (by decide) (by decide) (.quoted (by decide) (by decide) .nil)
  have hm' : Covered m' := by
    have hparts : m' = inParentheses ("SELECT y FROM u WHERE ".toList ++
        (inParentheses ("z = ".toList ++ (inQuotes '"' ")".toList ++ [])) ++ [])) ++ [] := by decide
    rw [hparts]
    have hinner : Balanced ("z = ".toList ++ (inQuotes '"' ")".toList ++ [])) :=
      .of_neutral (by decide) (.quoted (by decide) (by decide) .nil)
    exact .group (.of_neutral (by decide) (.group hinner .nil)) .nil
  have hne : m ≠ [] := by decide
  have hne' : m' ≠ [] := by decide
  exact ⟨hk, hp, hm, hne, hm', hne', verdict_exchange hk hp hm hne hm' hne' _ _⟩

end Exchange

end Validation

end Parlance
