import Parlance.Text.Basic

/-! The words of a text are its longest runs of word characters. A text has a word if one of its
runs is that word up to the case of ASCII letters; a character outside words cuts the question in
two. What is trimmed from a text stood at its ends. -/

namespace Parlance.Text

variable {sep : Char → Bool}

theorem pieces_ne_nil (cs : List Char) : pieces sep cs ≠ [] := by
  cases cs with
  | nil => simp [pieces]
  | cons c cs =>
    rw [pieces]
    split
    · simp
    · split <;> simp

theorem pieces_cons (sep : Char → Bool) (c : Char) (cs : List Char) : ∃ p ps, pieces sep cs = p :: ps ∧
    pieces sep (c :: cs) = if sep c then [] :: p :: ps else (c :: p) :: ps := by
  rw [pieces]
  split
  · next h => exact absurd h (pieces_ne_nil cs)
  · next p ps h => exact ⟨p, ps, h, rfl⟩

/-- A separator cuts a text in two. -/
theorem pieces_append {c : Char} (hc : sep c = true) (u v : List Char) :
    pieces sep (u ++ c :: v) = pieces sep u ++ pieces sep v := by
  induction u with
  | nil =>
    obtain ⟨p, ps, hv, h⟩ := pieces_cons sep c v
    rw [List.nil_append, h, if_pos hc, hv]
    rfl
  | cons d u ih =>
    obtain ⟨p, ps, hu, h⟩ := pieces_cons sep d u
    obtain ⟨q, qs, huv, h'⟩ := pieces_cons sep d (u ++ c :: v)
    rw [ih, hu, List.cons_append, List.cons.injEq] at huv
    obtain ⟨rfl, rfl⟩ := huv
    rw [List.cons_append, h', h]
    split <;> rfl

theorem pieces_of_forall {cs : List Char} (h : ∀ c ∈ cs, sep c = false) : pieces sep cs = [cs] := by
  induction cs with
  | nil => rfl
  | cons c cs ih =>
    obtain ⟨hc, hcs⟩ := List.forall_mem_cons.mp h
    simp [pieces, ih hcs, hc]

/-- The first piece stands at the start, and every other one behind a separator. -/
theorem pieces_spec (sep : Char → Bool) (cs : List Char) : ∃ p ps, pieces sep cs = p :: ps ∧
    (∀ m ∈ p :: ps, ∀ c ∈ m, sep c = false) ∧
    (∃ v, cs = p ++ v ∧ ∀ d ∈ v.head?, sep d = true) ∧
    ∀ m ∈ ps, ∃ u d v, cs = u ++ d :: (m ++ v) ∧ sep d = true ∧ ∀ e ∈ v.head?, sep e = true := by
  induction cs with
  | nil => exact ⟨[], [], rfl, by simp, ⟨[], rfl, by simp⟩, by simp⟩
  | cons c cs ih =>
    obtain ⟨p, ps, hp, hsep, ⟨v, hv, hend⟩, hps⟩ := ih
    obtain ⟨q, qs, hq, h⟩ := pieces_cons sep c cs
    rw [hp, List.cons.injEq] at hq
    obtain ⟨rfl, rfl⟩ := hq
    -- A separator stands behind an empty piece; any other character goes to the first one.
    cases hc : sep c with
    | true =>
      rw [hc, if_pos rfl] at h
      refine ⟨[], p :: ps, h, List.forall_mem_cons.mpr ⟨by simp, hsep⟩, ⟨c :: cs, rfl, ?_⟩, fun m hm => ?_⟩
      · simpa using hc
      · rcases List.mem_cons.mp hm with rfl | hm
        · exact ⟨[], c, v, by rw [hv]; rfl, hc, hend⟩
        · obtain ⟨u, d, v', hcs, hd, hend'⟩ := hps m hm
          exact ⟨c :: u, d, v', by rw [hcs]; rfl, hd, hend'⟩
    | false =>
      rw [hc, if_neg Bool.false_ne_true] at h
      obtain ⟨hp', hps'⟩ := List.forall_mem_cons.mp hsep
      refine ⟨c :: p, ps, h, ?_, ⟨v, by rw [hv]; rfl, hend⟩, fun m hm => ?_⟩
      · exact List.forall_mem_cons.mpr ⟨List.forall_mem_cons.mpr ⟨hc, hp'⟩, hps'⟩
      · obtain ⟨u, d, v', hcs, hd, hend'⟩ := hps m hm
        exact ⟨c :: u, d, v', by rw [hcs]; rfl, hd, hend'⟩

theorem mem_pieces_iff {cs m : List Char} : m ∈ pieces sep cs ↔ (∀ c ∈ m, sep c = false) ∧
    ∃ u v, cs = u ++ m ++ v ∧ (∀ d ∈ u.getLast?, sep d = true) ∧ ∀ d ∈ v.head?, sep d = true := by
  constructor
  · intro hm
    obtain ⟨p, ps, hp, hsep, ⟨v, hv, hend⟩, hps⟩ := pieces_spec sep cs
    rw [hp] at hm
    refine ⟨hsep m hm, ?_⟩
    rcases List.mem_cons.mp hm with rfl | hm
    · exact ⟨[], v, hv, by simp, hend⟩
    · obtain ⟨u, d, v, hcs, hd, hend⟩ := hps m hm
      exact ⟨u ++ [d], v, by simp [hcs], by simpa using hd, hend⟩
  · rintro ⟨hm, u, v, rfl, hu, hv⟩
    -- First without the text before it, which ends in a separator if there is any.
    have hright : m ∈ pieces sep (m ++ v) := by
      cases v with
      | nil => simp [pieces_of_forall hm]
      | cons d v =>
        rw [pieces_append (hv d rfl), pieces_of_forall hm]
        exact List.mem_append_left _ (List.mem_singleton_self m)
    rcases List.eq_nil_or_concat u with rfl | ⟨u, d, rfl⟩
    · exact hright
    · rw [List.append_assoc, List.concat_eq_append, List.append_assoc, List.singleton_append,
        pieces_append (hu d (by simp))]
      exact List.mem_append_right _ hright

theorem words_append_blank {c : Char} (hc : isBlank c = true) (u v : List Char) :
    words (u ++ c :: v) = words u ++ words v := by
  rw [words, pieces_append hc, List.filter_append]
  rfl

/-! ### Trimming -/

theorem dropEndWhile_append (p : Char → Bool) (cs : List Char) :
    ∃ es, cs = dropEndWhile p cs ++ es ∧ ∀ c ∈ es, p c = true := by
  refine ⟨(cs.reverse.takeWhile p).reverse, ?_, fun c hc => ?_⟩
  · rw [dropEndWhile, ← List.reverse_append, List.takeWhile_append_dropWhile, List.reverse_reverse]
  · exact List.all_eq_true.mp List.all_takeWhile c (List.mem_reverse.mp hc)

/-- Trimming takes blanks from both ends. -/
theorem trim_append (cs : List Char) : ∃ bs es, cs = bs ++ trim cs ++ es ∧
    (∀ c ∈ bs, isBlank c = true) ∧ ∀ c ∈ es, isBlank c = true := by
  obtain ⟨es, he, hes⟩ := dropEndWhile_append isBlank (trimStart cs)
  refine ⟨cs.takeWhile isBlank, es, ?_, List.all_eq_true.mp List.all_takeWhile, hes⟩
  rw [List.append_assoc, trim, trimEnd, ← he, trimStart, List.takeWhile_append_dropWhile]

theorem dropEndWhile_eq_self {p : Char → Bool} {cs : List Char} (h : ∀ c ∈ cs.getLast?, p c = false) :
    dropEndWhile p cs = cs := by
  rw [dropEndWhile]
  rw [List.getLast?_eq_head?_reverse] at h
  cases hr : cs.reverse with
  | nil => rw [← List.reverse_reverse cs, hr]; rfl
  | cons c r =>
    rw [hr] at h
    rw [List.dropWhile_cons_of_neg (by simp [h c rfl]), ← hr, List.reverse_reverse]

theorem trim_eq_self {cs : List Char} (hhead : ∀ c ∈ cs.head?, isBlank c = false)
    (hlast : ∀ c ∈ cs.getLast?, isBlank c = false) : trim cs = cs := by
  have hstart : trimStart cs = cs := by
    cases cs with
    | nil => rfl
    | cons c cs => exact List.dropWhile_cons_of_neg (by simp [hhead c rfl])
  rw [trim, hstart]
  exact dropEndWhile_eq_self hlast

/-! ### What stands at the ends -/

theorem withoutStart?_eq_some_iff {w cs rest : List Char} : withoutStart? w cs = some rest ↔ cs = w ++ rest := by
  rw [withoutStart?]
  by_cases h : w <+: cs
  · obtain ⟨a, rfl⟩ := h
    simp
  · rw [if_neg (mt List.isPrefixOf_iff_prefix.mp h)]
    refine ⟨fun hnone => (by cases hnone), fun hcs => absurd ?_ h⟩
    rw [hcs]
    exact List.prefix_append w rest

theorem withoutEnd?_eq_some_iff {w cs rest : List Char} : withoutEnd? w cs = some rest ↔ cs = rest ++ w := by
  rw [withoutEnd?]
  by_cases h : w <:+ cs
  · obtain ⟨a, rfl⟩ := h
    simp
  · rw [if_neg (mt List.isSuffixOf_iff_suffix.mp h)]
    refine ⟨fun hnone => (by cases hnone), fun hcs => absurd ?_ h⟩
    rw [hcs]
    exact List.suffix_append rest w

/-! ### Runs of one class of characters -/

theorem run_of_forall {p : Char → Bool} {cs : List Char} (h : ∀ c ∈ cs, p c = true) :
    cs.takeWhile p = cs ∧ cs.dropWhile p = [] := by
  have htake : (cs ++ []).takeWhile p = cs ++ [] := List.takeWhile_append_of_pos h
  have hdrop : (cs ++ []).dropWhile p = [] := List.dropWhile_append_of_pos h
  rw [List.append_nil] at htake hdrop
  exact ⟨htake, hdrop⟩

theorem takeWhile_append_of_lacks {p : Char → Bool} (a : List Char) {b : List Char} (h : ∀ c ∈ b.head?, p c = false) :
    (a ++ b).takeWhile p = a.takeWhile p := by
  induction a with
  | nil =>
    cases b with
    | nil => rfl
    | cons c b => simp [h c rfl]
  | cons c a ih =>
    rw [List.cons_append, List.takeWhile_cons, List.takeWhile_cons, ih]

theorem dropWhile_append_of_lacks {p : Char → Bool} (a : List Char) {b : List Char} (h : ∀ c ∈ b.head?, p c = false) :
    (a ++ b).dropWhile p = a.dropWhile p ++ b := by
  induction a with
  | nil =>
    cases b with
    | nil => rfl
    | cons c b => simp [h c rfl]
  | cons c a ih =>
    rw [List.cons_append, List.dropWhile_cons, List.dropWhile_cons, ih]
    split <;> rfl

/-! ### Words -/

def hasWord (w : String) (cs : List Char) : Bool :=
  (pieces (!isWord ·) cs).any (sameWord · w.toList)

variable {w : String}

theorem hasWord_append {c : Char} (hc : isWord c = false) (u v : List Char) :
    hasWord w (u ++ c :: v) = (hasWord w u || hasWord w v) := by
  rw [hasWord, pieces_append (by simp [hc]), List.any_append]
  rfl

theorem hasWord_cons {c : Char} (hc : isWord c = false) (cs : List Char) (hw : hasWord w [] = false) :
    hasWord w (c :: cs) = hasWord w cs := by
  have h := hasWord_append (w := w) hc [] cs
  rw [hw, Bool.false_or] at h
  exact h

theorem hasWord_iff {cs : List Char} : hasWord w cs = true ↔ ∃ m u v, cs = u ++ m ++ v ∧
    sameWord m w.toList = true ∧ (∀ c ∈ m, isWord c = true) ∧
    isWordAt u.getLast? = false ∧ isWordAt v.head? = false := by
  have hat (o : Option Char) : (∀ d ∈ o, (!isWord d) = true) ↔ isWordAt o = false := by
    cases o <;> simp [isWordAt]
  simp only [hasWord, List.any_eq_true, mem_pieces_iff, hat]
  constructor
  · rintro ⟨m, ⟨hm, u, v, hcs, hu, hv⟩, hw⟩
    exact ⟨m, u, v, hcs, hw, by simpa using hm, hu, hv⟩
  · rintro ⟨m, u, v, hcs, hw, hm, hu, hv⟩
    exact ⟨m, ⟨by simpa using hm, u, v, hcs, hu, hv⟩, hw⟩

end Parlance.Text
