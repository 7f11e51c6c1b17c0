import Parlance.Proofs.Filter.Faithful

/-! What a text has to look like for LIKE. A pattern with wildcards around it finds the texts that have the
pattern in the place which the mode names. Wildcards of its own only add to them, since every pattern is like
itself. -/

namespace Parlance

/-- Whether the text is like the pattern: `%` stands for any run of characters, `_` for any one, and every other
character for itself. -/
def isLike : List Char → List Char → Bool
  | [], v => v.isEmpty
  | p :: ps, v =>
    if p = '%' then (List.range (v.length + 1)).any fun n => isLike ps (v.drop n)
    else
      match v with
      | [] => false
      | c :: cs => (p = '_' || p = c) && isLike ps cs

theorem isLike_nil {v : List Char} : isLike [] v = true ↔ v = [] := List.isEmpty_iff

theorem isLike_run {ps v : List Char} : isLike ('%' :: ps) v = true ↔ ∃ u w, v = u ++ w ∧ isLike ps w = true := by
  simp only [isLike, if_true, List.any_eq_true, List.mem_range]
  constructor
  · rintro ⟨n, -, h⟩
    exact ⟨v.take n, v.drop n, (List.take_append_drop n v).symm, h⟩
  · rintro ⟨u, w, rfl, h⟩
    refine ⟨u.length, ?_, by rwa [List.drop_left]⟩
    rw [List.length_append]
    omega

theorem isLike_cons {p : Char} (hp : p ≠ '%') {ps v : List Char} :
    isLike (p :: ps) v = true ↔ ∃ c w, v = c :: w ∧ (p = '_' ∨ p = c) ∧ isLike ps w = true := by
  simp only [isLike, if_neg hp]
  cases v with
  | nil => simp
  | cons c cs =>
    simp only [Bool.and_eq_true, Bool.or_eq_true, decide_eq_true_eq]
    constructor
    · intro h
      exact ⟨c, cs, rfl, h⟩
    · rintro ⟨_, _, hv, h⟩
      cases hv
      exact h

theorem isLike_append {a b v : List Char} :
    isLike (a ++ b) v = true ↔ ∃ u w, v = u ++ w ∧ isLike a u = true ∧ isLike b w = true := by
  induction a generalizing v with
  | nil =>
    simp only [List.nil_append, isLike_nil]
    constructor
    · intro h
      exact ⟨[], v, rfl, rfl, h⟩
    · rintro ⟨_, w, rfl, rfl, h⟩
      exact h
  | cons p a ih =>
    rw [List.cons_append]
    by_cases hp : p = '%'
    · subst hp
      simp only [isLike_run, ih]
      constructor
      · rintro ⟨s, _, rfl, u, w, rfl, hu, hw⟩
        exact ⟨s ++ u, w, by simp, ⟨s, u, rfl, hu⟩, hw⟩
      · rintro ⟨_, w, rfl, ⟨s, u, rfl, hu⟩, hw⟩
        exact ⟨s, u ++ w, by simp, u, w, rfl, hu, hw⟩
    · simp only [isLike_cons hp, ih]
      constructor
      · rintro ⟨c, _, rfl, hc, u, w, rfl, hu, hw⟩
        exact ⟨c :: u, w, rfl, ⟨c, u, rfl, hc, hu⟩, hw⟩
      · rintro ⟨_, w, rfl, ⟨c, u, rfl, hc, hu⟩, hw⟩
        exact ⟨c, u ++ w, rfl, hc, u, w, rfl, hu, hw⟩

theorem isLike_any (v : List Char) : isLike ['%'] v = true :=
  isLike_run.mpr ⟨v, [], by simp, rfl⟩

/-- A wildcard stands for itself among others. -/
theorem isLike_self (p : List Char) : isLike p p = true := by
  induction p with
  | nil => rfl
  | cons c p ih =>
    by_cases hc : c = '%'
    · rw [hc]
      exact isLike_run.mpr ⟨['%'], p, rfl, ih⟩
    · exact (isLike_cons hc).mpr ⟨c, p, rfl, .inr rfl, ih⟩

/-- A pattern that stands for nothing but itself. -/
def Plain (p : List Char) : Prop := ∀ c ∈ p, c ≠ '%' ∧ c ≠ '_'

theorem isLike_plain {p v : List Char} (h : Plain p) : isLike p v = true ↔ v = p := by
  induction p generalizing v with
  | nil => exact isLike_nil
  | cons c p ih =>
    obtain ⟨⟨hrun, hone⟩, hp⟩ := List.forall_mem_cons.mp h
    rw [isLike_cons hrun]
    constructor
    · rintro ⟨d, w, rfl, hd, hw⟩
      rw [(ih hp).mp hw, hd.resolve_left hone]
    · rintro rfl
      exact ⟨c, p, rfl, .inr rfl, isLike_self p⟩

namespace LikeMode

/-- The part stands in the text where the mode looks for it. -/
def Finds (part text : List Char) : LikeMode → Prop
  | contains => part <:+: text
  | startsWith => part <+: text
  | endsWith => part <:+ text

theorem isLike_content (mode : LikeMode) (pattern : String) (v : List Char) :
    isLike (mode.content pattern).toList v = true ↔ ∃ u, mode.Finds u v ∧ isLike pattern.toList u = true := by
  have hany : "%".toList = ['%'] := rfl
  cases mode with
  | contains =>
    simp only [content, String.toList_append, hany, isLike_append, isLike_any, and_true, true_and, Finds]
    constructor
    · rintro ⟨_, b, rfl, a, u, rfl, hu⟩
      exact ⟨u, ⟨a, b, rfl⟩, hu⟩
    · rintro ⟨u, ⟨a, b, rfl⟩, hu⟩
      exact ⟨a ++ u, b, rfl, a, u, rfl, hu⟩
  | startsWith =>
    simp only [content, String.toList_append, hany, isLike_append, isLike_any, and_true, Finds]
    constructor
    · rintro ⟨u, b, rfl, hu⟩
      exact ⟨u, ⟨b, rfl⟩, hu⟩
    · rintro ⟨u, ⟨b, rfl⟩, hu⟩
      exact ⟨u, b, rfl, hu⟩
  | endsWith =>
    simp only [content, String.toList_append, hany, isLike_append, isLike_any, true_and, Finds]
    constructor
    · rintro ⟨a, u, rfl, hu⟩
      exact ⟨u, ⟨a, rfl⟩, hu⟩
    · rintro ⟨u, ⟨a, rfl⟩, hu⟩
      exact ⟨a, u, rfl, hu⟩

end LikeMode

namespace Where

/-- What a literal says that takes the whole text. -/
def literal? : List Char → Option (List Char)
  | '\'' :: cs => (content? cs).bind fun (s, rest) => if rest.isEmpty then some s else none
  | _ => none

theorem literal?_quoted (s : String) : literal? (quoted s).toList = some s.toList := by
  rw [Statement.toList_quoted, literal?, content?_doubled]
  rfl

theorem sql_like (d : Dialect) (column : String) (mode : LikeMode) (pattern : String) :
    (Predicate.sql d (.like column mode pattern)).toList =
      column.toList ++ " LIKE ".toList ++ (quoted (mode.content pattern)).toList := by
  rw [mode.quoted_content]
  simp [Predicate.sql]

/-- The literal behind LIKE is read as a pattern that a text is like just if it has, where the mode looks for it, a
part that is like the pattern asked for. The pattern itself is such a part, and without wildcards the only one. -/
theorem like_literal (d : Dialect) (column : String) (mode : LikeMode) (pattern : String) :
    ∃ literal decoded, (Predicate.sql d (.like column mode pattern)).toList =
        column.toList ++ " LIKE ".toList ++ literal ∧ literal? literal = some decoded ∧
      ∀ v, (isLike decoded v = true ↔ ∃ u, mode.Finds u v ∧ isLike pattern.toList u = true) ∧
        (mode.Finds pattern.toList v → isLike decoded v = true) ∧
        (Plain pattern.toList → isLike decoded v = true → mode.Finds pattern.toList v) := by
  refine ⟨_, _, sql_like d column mode pattern, literal?_quoted _, fun v => ⟨mode.isLike_content pattern v, ?_, ?_⟩⟩
  · intro h
    exact (mode.isLike_content pattern v).mpr ⟨_, h, isLike_self _⟩
  · intro hplain h
    obtain ⟨u, hu, hlike⟩ := (mode.isLike_content pattern v).mp h
    rwa [(isLike_plain hplain).mp hlike] at hu

/-- A quote in a pattern that has no wildcards, and a pattern that has both. -/
theorem like_literal_quotes :
    (Plain "o's".toList ∧ LikeMode.endsWith.Finds "o's".toList "two o's".toList ∧
      ∃ literal decoded, (Predicate.sql .sqlite (.like "note" .endsWith "o's")).toList =
          "note".toList ++ " LIKE ".toList ++ literal ∧ literal? literal = some decoded ∧
        isLike decoded "two o's".toList = true ∧
        (isLike decoded "o's!".toList = true → LikeMode.endsWith.Finds "o's".toList "o's!".toList)) ∧
    LikeMode.contains.Finds "a_'%".toList "(a_'%)".toList ∧
      ∃ literal decoded, (Predicate.sql .mysql (.like "note" .contains "a_'%")).toList =
          "note".toList ++ " LIKE ".toList ++ literal ∧ literal? literal = some decoded ∧
        isLike decoded "(a_'%)".toList = true := by
  have hplain : Plain "o's".toList := by
    rw [Plain]
    decide
  have hends : LikeMode.endsWith.Finds "o's".toList "two o's".toList := ⟨"two ".toList, rfl⟩
  have hcontains : LikeMode.contains.Finds "a_'%".toList "(a_'%)".toList := ⟨['('], [')'], rfl⟩
  obtain ⟨literal, decoded, hsql, hread, h⟩ := like_literal .sqlite "note" .endsWith "o's"
  obtain ⟨literal', decoded', hsql', hread', h'⟩ := like_literal .mysql "note" .contains "a_'%"
  exact ⟨⟨hplain, hends, literal, decoded, hsql, hread, (h _).2.1 hends, (h _).2.2 hplain⟩,
    hcontains, literal', decoded', hsql', hread', (h' _).2.1 hcontains⟩

end Where

end Parlance
