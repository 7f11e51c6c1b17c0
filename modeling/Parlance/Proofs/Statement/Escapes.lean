import Parlance.Proofs.Filter.Wildcards
import Parlance.Proofs.Interpretation.Stages

/-! String literals as MySQL reads them, where a backslash escapes the character behind it. Text is quoted by
doubling its quotes, whatever the dialect, and no backslash is doubled. So a literal is read as it was meant unless
a backslash of the text escapes something; if that is a quote, what follows the quote is read as SQL or the literal
takes in what stands behind it. -/

namespace Parlance.Escapes

/-- What a backslash and the character behind it stand for. -/
def escaped : Char → List Char
  | '0' => ['\x00']
  | 'b' => ['\x08']
  | 'n' => ['\n']
  | 'r' => ['\r']
  | 't' => ['\t']
  | 'Z' => ['\x1a']
  | '%' => ['\\', '%']
  | '_' => ['\\', '_']
  | c => [c]

/-- The content of a literal up to its closing quote, and the text behind that. -/
def content? : List Char → Option (List Char × List Char)
  | [] => none
  | '\\' :: cs =>
    match cs with
    | [] => none
    | c :: cs => (content? cs).map fun (s, rest) => (escaped c ++ s, rest)
  | '\'' :: cs =>
    match cs with
    | '\'' :: cs => (content? cs).map fun (s, rest) => ('\'' :: s, rest)
    | cs => some ([], cs)
  | c :: cs => (content? cs).map fun (s, rest) => (c :: s, rest)

/-- What the literal says that the text begins with, and what stands behind it. -/
def literal? : List Char → Option (List Char × List Char)
  | '\'' :: cs => content? cs
  | _ => none

/-- No backslash escapes a quote of the text, or the one that is to close the literal. -/
def guarded : List Char → Bool
  | [] => true
  | '\\' :: cs =>
    match cs with
    | [] => false
    | c :: cs => c ≠ '\'' && guarded cs
  | _ :: cs => guarded cs

/-- The text with its escapes replaced by what they stand for. -/
def decoded : List Char → List Char
  | [] => []
  | '\\' :: cs =>
    match cs with
    | [] => ['\\']
    | c :: cs => escaped c ++ decoded cs
  | c :: cs => c :: decoded cs

/-- Every backslash stands before a wildcard, where it is kept. -/
def Verbatim (cs : List Char) : Prop :=
  ∀ u v, cs = u ++ '\\' :: v → v.head? = some '%' ∨ v.head? = some '_'

abbrev double (cs : List Char) : List Char := Text.substitute '\'' ['\'', '\''] cs

variable {c : Char} {cs rest s : List Char}

theorem content?_escape (c : Char) (cs : List Char) :
    content? ('\\' :: c :: cs) = (content? cs).map fun (s, rest) => (escaped c ++ s, rest) := rfl

theorem content?_quotes (cs : List Char) :
    content? ('\'' :: '\'' :: cs) = (content? cs).map fun (s, rest) => ('\'' :: s, rest) := rfl

theorem content?_close (h : cs.head? ≠ some '\'') : content? ('\'' :: cs) = some ([], cs) := by
  cases cs with
  | nil => rfl
  | cons c cs =>
    have hc : c ≠ '\'' := fun hc => h (by rw [hc]; rfl)
    simp [content?, hc]

theorem content?_plain (hb : c ≠ '\\') (hq : c ≠ '\'') (cs : List Char) :
    content? (c :: cs) = (content? cs).map fun (s, rest) => (c :: s, rest) := by
  rw [content?]
  · exact hb
  · exact hq

theorem double_quote (cs : List Char) : double ('\'' :: cs) = '\'' :: '\'' :: double cs := rfl

theorem double_cons (hq : c ≠ '\'') (cs : List Char) : double (c :: cs) = c :: double cs := by
  rw [double, Text.substitute, List.flatMap_cons, if_neg hq]
  rfl

theorem map_eq_some {f : List Char → List Char} {o : Option (List Char × List Char)} :
    (o.map fun (s, rest) => (f s, rest)) = some (s, rest) ↔ ∃ t, o = some (t, rest) ∧ f t = s := by
  rw [Option.map_eq_some_iff]
  constructor
  · rintro ⟨⟨t, _⟩, ht, he⟩
    cases he
    exact ⟨t, ht, rfl⟩
  · rintro ⟨t, ht, rfl⟩
    exact ⟨(t, rest), ht, rfl⟩

/-- What is left behind a literal is shorter than the text that it begins. -/
theorem length_of_content? (h : content? cs = some (s, rest)) : rest.length < cs.length := by
  induction cs using content?.induct generalizing s with
  | case1 => cases h
  | case2 => cases h
  | case3 c cs ih =>
    obtain ⟨t, ht, -⟩ := map_eq_some.mp h
    have := ih ht
    simp only [List.length_cons]
    omega
  | case4 cs ih =>
    obtain ⟨t, ht, -⟩ := map_eq_some.mp h
    have := ih ht
    simp only [List.length_cons]
    omega
  | case5 cs hcs =>
    have hhead : cs.head? ≠ some '\'' := by
      cases cs with
      | nil => simp
      | cons c cs =>
        rintro ⟨rfl⟩
        exact hcs cs rfl
    rw [content?_close hhead] at h
    cases h
    simp
  | case6 c cs hb hq ih =>
    rw [content?_plain hb hq] at h
    obtain ⟨t, ht, -⟩ := map_eq_some.mp h
    have := ih ht
    simp only [List.length_cons]
    omega

theorem guarded_plain (hb : c ≠ '\\') (cs : List Char) : guarded (c :: cs) = guarded cs := by
  rw [guarded]
  exact hb

theorem decoded_plain (hb : c ≠ '\\') (cs : List Char) : decoded (c :: cs) = c :: decoded cs := by
  rw [decoded]
  exact hb

/-! ### Reading a quoted text -/

theorem content?_guarded (hrest : rest.head? ≠ some '\'') (h : guarded cs = true) :
    content? (double cs ++ '\'' :: rest) = some (decoded cs, rest) := by
  induction cs using guarded.induct with
  | case1 => exact content?_close hrest
  | case2 => cases h
  | case3 c cs ih =>
    simp only [guarded, Bool.and_eq_true, decide_eq_true_eq] at h
    obtain ⟨hq, hcs⟩ := h
    rw [double_cons (by decide), double_cons hq, List.cons_append, List.cons_append, content?_escape, ih hcs]
    rfl
  | case4 c cs hb ih =>
    have hd := decoded_plain hb cs
    have hcs := ih (guarded_plain hb cs ▸ h)
    by_cases hq : c = '\''
    · rw [hd, hq, double_quote, List.cons_append, List.cons_append, content?_quotes, hcs]
      rfl
    · rw [hd, double_cons hq, List.cons_append, content?_plain hb hq, hcs]
      rfl

/-- Behind an escaped quote the doubled one is left over: the literal ends there, or with the quotes behind it
doubled in their turn. -/
theorem content?_leftover (cs : List Char) : content? ('\'' :: (double cs ++ '\'' :: rest)) ≠ some (s, rest) := by
  induction cs generalizing s with
  | nil =>
    intro h
    obtain ⟨t, ht, -⟩ := map_eq_some.mp ((content?_quotes rest).symm.trans h)
    exact absurd (length_of_content? ht) (Nat.lt_irrefl _)
  | cons c cs ih =>
    intro h
    by_cases hq : c = '\''
    · rw [hq, double_quote, List.cons_append, List.cons_append, content?_quotes] at h
      obtain ⟨t, ht, -⟩ := map_eq_some.mp h
      exact ih ht
    · have hhead : (double (c :: cs) ++ '\'' :: rest).head? ≠ some '\'' := by
        rw [double_cons hq, List.cons_append, List.head?_cons]
        exact fun he => hq (Option.some.inj he)
      rw [content?_close hhead] at h
      have hlength := congrArg (fun r => (r.map (·.2.length)).getD 0) h
      simp only [Option.map_some, Option.getD_some, List.length_append, List.length_cons] at hlength
      omega

theorem content?_unguarded (h : guarded cs = false) : content? (double cs ++ '\'' :: rest) ≠ some (s, rest) := by
  induction cs using guarded.induct generalizing s with
  | case1 => cases h
  | case2 =>
    -- The quote that is to close the literal is escaped.
    intro hread
    obtain ⟨t, ht, -⟩ := map_eq_some.mp ((content?_escape '\'' rest).symm.trans hread)
    exact absurd (length_of_content? ht) (Nat.lt_irrefl _)
  | case3 c cs ih =>
    intro hread
    by_cases hq : c = '\''
    · rw [hq, double_cons (by decide), double_quote, List.cons_append, List.cons_append, List.cons_append,
        content?_escape] at hread
      obtain ⟨t, ht, -⟩ := map_eq_some.mp hread
      exact content?_leftover cs ht
    · have hcs : guarded cs = false := by simpa [guarded, hq] using h
      rw [double_cons (by decide), double_cons hq, List.cons_append, List.cons_append, content?_escape] at hread
      obtain ⟨t, ht, -⟩ := map_eq_some.mp hread
      exact ih hcs ht
  | case4 c cs hb ih =>
    rw [guarded_plain hb] at h
    intro hread
    by_cases hq : c = '\''
    · rw [hq, double_quote, List.cons_append, List.cons_append, content?_quotes] at hread
      obtain ⟨t, ht, -⟩ := map_eq_some.mp hread
      exact ih h ht
    · rw [double_cons hq, List.cons_append, content?_plain hb hq] at hread
      obtain ⟨t, ht, -⟩ := map_eq_some.mp hread
      exact ih h ht

/-- A literal ends with its last quote if no quote is escaped, and only then. -/
theorem literal?_quoted_iff (s : String) (hrest : rest.head? ≠ some '\'') {content : List Char} :
    literal? ((quoted s).toList ++ rest) = some (content, rest) ↔
      guarded s.toList = true ∧ decoded s.toList = content := by
  have htext : literal? ((quoted s).toList ++ rest) = content? (double s.toList ++ '\'' :: rest) := by
    rw [Statement.toList_quoted, List.cons_append, List.append_assoc]
    rfl
  rw [htext]
  cases hg : guarded s.toList with
  | true => simp [content?_guarded hrest hg]
  | false => simp [content?_unguarded hg]

/-! ### Texts that are kept -/

theorem verbatim_cons : Verbatim (c :: cs) ↔
    (c = '\\' → cs.head? = some '%' ∨ cs.head? = some '_') ∧ Verbatim cs := by
  constructor
  · intro h
    refine ⟨?_, fun u v huv => h (c :: u) v (by rw [huv]; rfl)⟩
    rintro rfl
    exact h [] cs rfl
  · rintro ⟨hc, hcs⟩ u v huv
    cases u with
    | nil =>
      obtain ⟨rfl, rfl⟩ := List.cons.inj huv
      exact hc rfl
    | cons d u =>
      obtain ⟨-, rfl⟩ := List.cons.inj huv
      exact hcs u v rfl

theorem verbatim_escape : Verbatim ('\\' :: c :: cs) ↔ (c = '%' ∨ c = '_') ∧ Verbatim cs := by
  rw [verbatim_cons, verbatim_cons]
  constructor
  · rintro ⟨hc, -, hcs⟩
    exact ⟨by simpa using hc, hcs⟩
  · rintro ⟨hc, hcs⟩
    refine ⟨by simpa using hc, ?_, hcs⟩
    rintro rfl
    rcases hc with hc | hc <;> cases hc

/-- Only before a wildcard does a backslash stand for itself. -/
theorem escaped_cases (c : Char) : (c = '%' ∨ c = '_') ∧ escaped c = ['\\', c] ∨
    (c ≠ '%' ∧ c ≠ '_') ∧ ∃ d, escaped c = [d] := by
  unfold escaped
  split <;> simp_all

theorem length_decoded_le (cs : List Char) : (decoded cs).length ≤ cs.length := by
  induction cs using decoded.induct with
  | case1 => exact Nat.le_refl _
  | case2 => exact Nat.le_refl _
  | case3 c cs ih =>
    have hlength : (escaped c).length ≤ 2 := by
      rcases escaped_cases c with ⟨-, he⟩ | ⟨-, d, he⟩ <;> simp [he]
    simp only [decoded, List.length_append, List.length_cons]
    omega
  | case4 c cs hb ih =>
    rw [decoded_plain hb, List.length_cons, List.length_cons]
    omega

theorem verbatim_iff (cs : List Char) : Verbatim cs ↔ guarded cs = true ∧ decoded cs = cs := by
  induction cs using guarded.induct with
  | case1 =>
    refine iff_of_true (fun u v h => ?_) ⟨rfl, rfl⟩
    cases u <;> cases h
  | case2 =>
    refine iff_of_false (fun h => ?_) (fun h => nomatch h.1)
    rcases h [] [] rfl with h | h <;> cases h
  | case3 c cs ih =>
    rw [verbatim_escape, ih]
    have hd : decoded ('\\' :: c :: cs) = escaped c ++ decoded cs := rfl
    rw [hd]
    rcases escaped_cases c with ⟨hc, he⟩ | ⟨⟨hrun, hone⟩, d, he⟩
    · have hq : c ≠ '\'' := by rcases hc with rfl | rfl <;> decide
      simp [guarded, hc, he, hq]
    · refine iff_of_false (fun h => h.1.elim hrun hone) fun h => ?_
      -- The escape has become one character, and the rest does not make up for it.
      have hlength := congrArg List.length h.2
      have hle := length_decoded_le cs
      simp only [he, List.length_append, List.length_cons, List.length_nil] at hlength
      omega
  | case4 c cs hb ih =>
    rw [verbatim_cons, ih, guarded_plain hb, decoded_plain hb]
    simp only [List.cons.injEq, true_and]
    exact and_iff_right fun h => absurd h hb

/-- The literal of a text is read back as the text just if it has no backslash but before wildcards, and ends with
its last quote just if none of its backslashes escapes a quote; the literal behind LIKE ends there just if none of
them does with the wildcards around the pattern. -/
theorem literal_backslashes (s : String) (hrest : rest.head? ≠ some '\'') :
    (literal? ((Literal.text s).sql.toList ++ rest) = some (s.toList, rest) ↔ Verbatim s.toList) ∧
    ((∃ content, literal? ((Literal.text s).sql.toList ++ rest) = some (content, rest)) ↔ guarded s.toList = true) ∧
    ∀ (column : String) (mode : LikeMode), ∃ literal, (Predicate.sql .mysql (.like column mode s)).toList =
        column.toList ++ " LIKE ".toList ++ literal ∧
      ((∃ content, literal? (literal ++ rest) = some (content, rest)) ↔ guarded (mode.content s).toList = true) := by
  have hends (s : String) : (∃ content, literal? ((quoted s).toList ++ rest) = some (content, rest)) ↔
      guarded s.toList = true := by
    simp [literal?_quoted_iff s hrest]
  refine ⟨?_, hends s, fun column mode => ⟨_, Where.sql_like .mysql column mode s, hends _⟩⟩
  rw [verbatim_iff]
  exact literal?_quoted_iff s hrest

/-- A doubled quote and a wildcard are read back, and what stands behind the literal is left. -/
theorem literal_backslashes_share :
    let s := "it's 100\\% \\_"
    let rest := " LIMIT 3".toList
    rest.head? ≠ some '\'' ∧ Verbatim s.toList ∧
      literal? ((Literal.text s).sql.toList ++ rest) = some (s.toList, rest) := by
  intro s rest
  have hrest : rest.head? ≠ some '\'' := by decide
  have hs : Verbatim s.toList := (verbatim_iff _).mpr (by decide)
  exact ⟨hrest, hs, (literal_backslashes s hrest).1.mpr hs⟩

/-- A backslash at the end takes the closing quote away, and one before a quote lets out what follows; both come from
what a user can write. -/
theorem backslash_escapes :
    (∃ i, (Interpreter.ofDialect .mysql).interpret "show t where x = '\\'" .empty = .ok i ∧
      i.sql.toList = "SELECT * FROM t WHERE x = ".toList ++ (Literal.text "\\").sql.toList) ∧
    literal? (Literal.text "\\").sql.toList = none ∧
    literal? (quoted (LikeMode.content "\\" .endsWith)).toList = none ∧
    literal? (Literal.text "\\' OR 1=1 #").sql.toList = some (['\''], " OR 1=1 #'".toList) ∧
    ¬ ∀ (s : String) (rest : List Char), rest.head? ≠ some '\'' →
      literal? ((Literal.text s).sql.toList ++ rest) = some (s.toList, rest) := by
  have hopen : literal? (Literal.text "\\").sql.toList = none := by decide
  refine ⟨?_, hopen, by decide, by decide, fun h => ?_⟩
  · have hok : ((Interpreter.ofDialect .mysql).interpret "show t where x = '\\'" .empty).toOption.any (fun i =>
        i.sql.toList = "SELECT * FROM t WHERE x = ".toList ++ (Literal.text "\\").sql.toList) = true := by
      decide +kernel
    obtain ⟨i, hi, hsql⟩ := exists_ok_of_any hok
    exact ⟨i, hi, of_decide_eq_true hsql⟩
  · have hread := h "\\" [] (by decide)
    rw [List.append_nil, hopen] at hread
    cases hread

end Parlance.Escapes
