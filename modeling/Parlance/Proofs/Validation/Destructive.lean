import Parlance.Proofs.Validation.Masking

/-! Which statements count as destructive. The leading word of a statement stands behind blanks and
semicolons and ends with its last word character. The validator reads a keyword instead: it begins
behind blanks only, and reaches to the next blank, parenthesis or semicolon. Where the two differ a
destructive statement is taken for a harmless one. -/

namespace Parlance

namespace Text

theorem upper_append (a b : List Char) : upper (a ++ b) = upper a ++ upper b :=
  List.flatMap_append

theorem upperChar_ne_nil (c : Char) : upperChar c ≠ [] := by
  have hrows : ∀ e ∈ upperExpansions, e.2 ≠ [] := by decide
  simp only [upperChar]
  split
  · simp
  · split
    · next h =>
      have hne := hrows _ (List.mem_of_find?_eq_some h)
      simpa using hne
    · simp

theorem upper_ascii {cs : List Char} (h : ∀ c ∈ cs, c.toNat < 128) : upper cs = cs.map Char.toUpper := by
  induction cs with
  | nil => rfl
  | cons c cs ih =>
    obtain ⟨hc, hcs⟩ := List.forall_mem_cons.mp h
    rw [upper, List.flatMap_cons, ← upper, ih hcs, upperChar, if_pos hc]
    rfl

theorem isAsciiWord_ascii {c : Char} (h : isAsciiWord c = true) : c.toNat < 128 := by
  rcases (Bool.or_eq_true ..).mp h with h | h
  · rcases (Bool.or_eq_true ..).mp h with h | h
    · exact ascii_of_isAlpha h
    · have hz := (Char.isDigit_iff_toNat.mp h).2
      exact Nat.lt_of_le_of_lt hz (by decide)
  · rw [beq_iff_eq.mp h]
    decide

end Text

/-- A destructive statement is not accepted without leave. -/
theorem Validator.not_accepted_of_isDestructive {v : Validator} {sql : List Char}
    (hv : v.allowDestructive = false) (h : (v.validate sql false).isDestructive = true) :
    (v.validate sql false).accepted = false := by
  simp only [validate] at h ⊢
  split at h
  · cases h
  · next hne =>
    rw [if_neg hne]
    simp only at h ⊢
    simp [hv, h, confirmationErrors]

namespace Validation

open Text (isBlank isAsciiWord hasWord)

/-! ### The leading word -/

def isSeparator (c : Char) : Bool := isBlank c || c = ';'

/-- The first run of ASCII word characters behind blanks and semicolons, in upper case. -/
def leadingWord (cs : List Char) : List Char :=
  ((cs.dropWhile isSeparator).takeWhile isAsciiWord).map Char.toUpper

def behindWord (cs : List Char) : List Char := (cs.dropWhile isSeparator).dropWhile isAsciiWord

/-- The statement changes or removes whatever there is: its leading word says so, or it is an update
for which no WHERE shows. -/
def Dangerous (sql : List Char) : Prop :=
  String.ofList (leadingWord sql) ∈ destructiveWords ∨
    (String.ofList (leadingWord sql) = "UPDATE" ∧ hasWord "where" (shown .all sql) = false)

instance (sql : List Char) : Decidable (Dangerous sql) := inferInstanceAs (Decidable (_ ∨ _))

/-- The leading word is there to be read as a keyword, and no WHERE shows between brackets either. -/
structure Recognized (sql : List Char) : Prop where
  begun : ';' ∉ sql.takeWhile isSeparator
  ended : ∀ c ∈ (behindWord sql).head?, endsKeyword c = true
  unfiltered : String.ofList (leadingWord sql) = "UPDATE" → hasWord "where" (shown .masked sql) = false

/-! ### The keyword -/

theorem takeWhile_append_of_forall {p : Char → Bool} {es : List Char} (h : ∀ c ∈ es, p c = false)
    (cs : List Char) : (cs ++ es).takeWhile p = cs.takeWhile p := by
  induction cs with
  | nil =>
    cases es with
    | nil => rfl
    | cons e es => simp [h e List.mem_cons_self]
  | cons c cs ih => simp only [List.cons_append, List.takeWhile_cons, ih]

theorem leadingKeyword_trim (cs : List Char) :
    leadingKeyword (Text.trim cs) = leadingKeyword (Text.trimStart cs) := by
  obtain ⟨es, he, hes⟩ := Text.dropEndWhile_append isBlank (Text.trimStart cs)
  have hend : ∀ c ∈ es, (!endsKeyword c) = false := fun c hc => by simp [endsKeyword, hes c hc]
  have hk := takeWhile_append_of_forall hend (Text.dropEndWhile isBlank (Text.trimStart cs))
  rw [← he] at hk
  rw [leadingKeyword, leadingKeyword, Text.trim, Text.trimEnd, hk]

theorem trimStart_of_begun {cs : List Char} (h : ';' ∉ cs.takeWhile isSeparator) :
    Text.trimStart cs = cs.dropWhile isSeparator := by
  induction cs with
  | nil => rfl
  | cons c cs ih =>
    rw [Text.trimStart, List.dropWhile_cons, List.dropWhile_cons]
    cases hb : isBlank c with
    | true =>
      have hs : isSeparator c = true := by simp [isSeparator, hb]
      rw [List.takeWhile_cons, if_pos hs] at h
      rw [if_pos rfl, if_pos hs, ← ih (List.not_mem_of_not_mem_cons h), Text.trimStart]
    | false =>
      have hs : isSeparator c = false := by
        rw [Bool.eq_false_iff]
        intro hs
        rw [List.takeWhile_cons, if_pos hs] at h
        refine List.ne_of_not_mem_cons h (Eq.symm ?_)
        simpa [isSeparator, hb] using hs
      rw [if_neg Bool.false_ne_true, hs, if_neg Bool.false_ne_true]

theorem trimStart_of_not_begun {cs : List Char} (h : ';' ∈ cs.takeWhile isSeparator) :
    ∃ rest, Text.trimStart cs = ';' :: rest := by
  induction cs with
  | nil => cases h
  | cons c cs ih =>
    rw [Text.trimStart, List.dropWhile_cons]
    cases hb : isBlank c with
    | true =>
      have hs : isSeparator c = true := by simp [isSeparator, hb]
      rw [List.takeWhile_cons, if_pos hs] at h
      rcases List.mem_cons.mp h with rfl | h
      · cases hb
      · exact ih h
    | false =>
      refine ⟨cs, ?_⟩
      rw [List.takeWhile_cons] at h
      split at h
      · next hs =>
        have hc : c = ';' := by simpa [isSeparator, hb] using hs
        rw [hc]
        rfl
      · cases h

/-- Behind a semicolon no keyword is read. -/
theorem leadingKeyword_of_not_begun {sql : List Char} (h : ';' ∈ sql.takeWhile isSeparator) :
    leadingKeyword (Text.trim sql) = "" := by
  obtain ⟨rest, hr⟩ := trimStart_of_not_begun h
  have hend : endsKeyword ';' = true := by decide
  rw [leadingKeyword_trim, hr, leadingKeyword, List.takeWhile_cons, hend]
  rfl

theorem endsKeyword_of_isAsciiWord {c : Char} (h : isAsciiWord c = true) : endsKeyword c = false :=
  Text.forall_ascii (P := fun c => isAsciiWord c = true → endsKeyword c = false) (by decide)
    (Text.isAsciiWord_ascii h) h

/-- Behind blanks the keyword is the leading word and all that is glued to it. -/
theorem leadingKeyword_of_begun {sql : List Char} (h : ';' ∉ sql.takeWhile isSeparator) :
    leadingKeyword (Text.trim sql) = String.ofList (leadingWord sql ++
      Text.upper ((behindWord sql).takeWhile (!endsKeyword ·))) := by
  have hword : ∀ c ∈ (sql.dropWhile isSeparator).takeWhile isAsciiWord, isAsciiWord c = true :=
    List.all_eq_true.mp List.all_takeWhile
  have hcut := List.takeWhile_append_dropWhile (p := isAsciiWord) (l := sql.dropWhile isSeparator)
  rw [leadingKeyword_trim, trimStart_of_begun h, leadingKeyword]
  rw [leadingWord, behindWord, ← Text.upper_ascii fun c hc => Text.isAsciiWord_ascii (hword c hc),
    ← Text.upper_append]
  generalize (sql.dropWhile isSeparator).takeWhile isAsciiWord = word at hword hcut
  generalize (sql.dropWhile isSeparator).dropWhile isAsciiWord = rest at hcut
  rw [← hcut, List.takeWhile_append_of_pos]
  intro c hc
  simp [endsKeyword_of_isAsciiWord (hword c hc)]

/-! ### The verdict -/

theorem classify_destructive (cs : List Char) : (classify cs).2 = true ↔
    leadingKeyword cs ∈ destructiveWords ∨
      (leadingKeyword cs = "UPDATE" ∧ hasWord "where" (topLevel cs) = false) := by
  have hdelete : "DELETE" ∈ destructiveWords := by decide
  simp only [classify, holds_whereClause]
  generalize leadingKeyword cs = k
  cases hw : hasWord "where" (topLevel cs) with
  | true => simp
  | false =>
    by_cases hk : k = "DELETE"
    · simp [hk, hdelete]
    · by_cases hu : k = "UPDATE"
      · simp [hu]
      · simp [hk, hu]

theorem isDestructive_validate (v : Validator) (sql : List Char) (confirm : Bool) :
    (v.validate sql confirm).isDestructive = (classify (Text.trim sql)).2 := by
  simp only [Validator.validate]
  split
  · next h =>
    rw [List.isEmpty_iff.mp h]
    decide
  · rfl

theorem isDestructive_iff (v : Validator) (sql : List Char) (confirm : Bool) :
    (v.validate sql confirm).isDestructive = true ↔ leadingKeyword (Text.trim sql) ∈ destructiveWords ∨
      (leadingKeyword (Text.trim sql) = "UPDATE" ∧ hasWord "where" (topLevel sql) = false) := by
  rw [isDestructive_validate, classify_destructive, hasWord_topLevel_trim (w := "where") (by decide)]

theorem operation_validate (v : Validator) (sql : List Char) (confirm : Bool) :
    (v.validate sql confirm).operation =
      if (leadingKeyword (Text.trim sql) = "DELETE" ∨ leadingKeyword (Text.trim sql) = "UPDATE") ∧
          hasWord "where" (topLevel sql) = false then
        leadingKeyword (Text.trim sql) ++ " without WHERE clause"
      else leadingKeyword (Text.trim sql) := by
  have hc : (v.validate sql confirm).operation = (classify (Text.trim sql)).1 := by
    simp only [Validator.validate]
    split
    · next h =>
      rw [List.isEmpty_iff.mp h]
      decide
    · rfl
  rw [hc, classify, holds_whereClause, hasWord_topLevel_trim (w := "where") (by decide)]
  generalize leadingKeyword (Text.trim sql) = k
  cases hasWord "where" (topLevel sql) with
  | true => simp
  | false =>
    simp only [Bool.not_false, Bool.and_true, Bool.or_eq_true, decide_eq_true_eq, and_true]
    split <;> rfl

/-- Words that no other of them begins with. -/
theorem eq_of_prefix_keyword : ∀ a ∈ "UPDATE" :: destructiveWords, ∀ b ∈ "UPDATE" :: destructiveWords,
    a.toList <+: b.toList → a = b := by
  decide

/-- Something glued to a leading word makes another keyword of it. -/
theorem not_mem_keywords_of_glued {word more : List Char} (hm : more ≠ [])
    (hw : String.ofList word ∈ "UPDATE" :: destructiveWords) :
    String.ofList (word ++ more) ∉ "UPDATE" :: destructiveWords := by
  intro hk
  have hp : (String.ofList word).toList <+: (String.ofList (word ++ more)).toList := by
    simp only [String.toList_ofList]
    exact List.prefix_append word more
  have he := eq_of_prefix_keyword _ hw _ hk hp
  have hl := congrArg String.toList he
  simp only [String.toList_ofList] at hl
  exact hm (List.append_cancel_left (hl.symm.trans (List.append_nil word).symm))

theorem Dangerous.mem_keywords {sql : List Char} (h : Dangerous sql) :
    String.ofList (leadingWord sql) ∈ "UPDATE" :: destructiveWords := by
  rcases h with h | ⟨h, -⟩
  · exact List.mem_cons_of_mem _ h
  · rw [h]
    exact List.mem_cons_self

theorem upper_takeWhile_ne_nil {cs : List Char} {c : Char} (hc : cs.head? = some c)
    (he : endsKeyword c = false) : Text.upper (cs.takeWhile (!endsKeyword ·)) ≠ [] := by
  cases cs with
  | nil => cases hc
  | cons d cs =>
    cases hc
    rw [List.takeWhile_cons, he, Bool.not_false, if_pos rfl, Text.upper, List.flatMap_cons]
    exact fun hn => Text.upperChar_ne_nil c (List.append_eq_nil_iff.mp hn).1

theorem takeWhile_eq_nil_of_ended {cs : List Char} (h : ∀ c ∈ cs.head?, endsKeyword c = true) :
    cs.takeWhile (!endsKeyword ·) = [] := by
  cases cs with
  | nil => rfl
  | cons c cs => rw [List.takeWhile_cons, h c rfl]; rfl

/-- A destructive statement is taken for one exactly if it is recognized; then it is not accepted
without leave. -/
theorem isDestructive_iff_recognized (v : Validator) (sql : List Char) (h : Dangerous sql) :
    (∀ confirm, (v.validate sql confirm).isDestructive = true ↔ Recognized sql) ∧
      (v.allowDestructive = false → Recognized sql → (v.validate sql false).accepted = false) := by
  have hiff (confirm : Bool) : (v.validate sql confirm).isDestructive = true ↔ Recognized sql := by
    rw [isDestructive_iff, ← shown_masked]
    by_cases hb : ';' ∈ sql.takeWhile isSeparator
    · refine iff_of_false ?_ fun hr => hr.begun hb
      rw [leadingKeyword_of_not_begun hb]
      rintro (hd | ⟨hu, -⟩)
      · exact absurd hd (by decide)
      · exact absurd hu (by decide)
    · -- The keyword is the leading word with whatever is glued to it.
      rw [leadingKeyword_of_begun hb]
      by_cases he : ∀ c ∈ (behindWord sql).head?, endsKeyword c = true
      · rw [takeWhile_eq_nil_of_ended he, Text.upper, List.flatMap_nil, List.append_nil]
        constructor
        · rintro (hd | ⟨-, hw⟩)
          · refine ⟨hb, he, fun hu => ?_⟩
            rw [hu] at hd
            exact absurd hd (by decide)
          · exact ⟨hb, he, fun _ => hw⟩
        · intro hr
          rcases h with hd | ⟨hu, -⟩
          · exact .inl hd
          · exact .inr ⟨hu, hr.unfiltered hu⟩
      · refine iff_of_false ?_ fun hr => he hr.ended
        simp only [Classical.not_forall, Bool.not_eq_true] at he
        obtain ⟨c, hc, hc'⟩ := he
        have hk := not_mem_keywords_of_glued (upper_takeWhile_ne_nil hc hc') h.mem_keywords
        rintro (hd | ⟨hu, -⟩)
        · exact hk (List.mem_cons_of_mem _ hd)
        · exact hk (hu ▸ List.mem_cons_self)
  refine ⟨hiff, fun hv hr => ?_⟩
  exact Validator.not_accepted_of_isDestructive hv ((hiff false).mpr hr)

theorem isDestructive_truncate : Dangerous "\n truncate(users)".toList ∧
    ((Validator.new false 100 []).validate "\n truncate(users)".toList false).isDestructive = true := by
  have hd : Dangerous "\n truncate(users)".toList := .inl (by decide +kernel)
  have hbehind : (behindWord "\n truncate(users)".toList).head? = some '(' := by decide +kernel
  have hended : ∀ c ∈ (behindWord "\n truncate(users)".toList).head?, endsKeyword c = true := by
    rw [hbehind]
    rintro c ⟨rfl⟩
    rfl
  have hr : Recognized "\n truncate(users)".toList := ⟨by decide +kernel, hended, by decide +kernel⟩
  exact ⟨hd, ((isDestructive_iff_recognized _ _ hd).1 false).mpr hr⟩

/-- A semicolon before the word, a quoted name right behind it, and a column in brackets each hide
what the statement does. -/
theorem dangerous_accepted : ([";DROP TABLE users", "UPDATE\"users\"SET status='x'",
      "UPDATE users SET [where] = 1"].all fun sql =>
    decide (Dangerous sql.toList) &&
      !((Validator.new false 100 []).validate sql.toList false).isDestructive &&
      ((Validator.new false 100 []).validate sql.toList false).accepted) = true := by
  decide +kernel

end Validation

end Parlance
