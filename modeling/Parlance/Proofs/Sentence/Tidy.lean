import Parlance.Proofs.Sentence.Value

/-! Sentences have single spaces between their words and no closing mark, so that normalizing leaves
them as they are. -/

namespace Parlance.Sentence

open Pattern Text

theorem squeeze_append {u v : List Char}
    (h : ∀ c ∈ u.getLast?, ∀ d ∈ v.head?, isBlank c = false ∨ isBlank d = false) :
    squeeze (u ++ v) = squeeze u ++ squeeze v := by
  induction u with
  | nil => rfl
  | cons c u ih =>
    cases u with
    | nil =>
      cases v with
      | nil => simp [squeeze]
      | cons d v =>
        rcases h c rfl d rfl with hc | hd
        · simp [squeeze, hc]
        · cases hc : isBlank c <;> simp [squeeze, hc, hd]
    | cons d u =>
      have hrest := ih h
      rw [List.cons_append] at hrest
      rw [List.cons_append, List.cons_append, squeeze, squeeze, hrest]
      split
      · split <;> rfl
      · rfl

theorem squeeze_eq_self {w : List Char} (h : ∀ c ∈ w, isBlank c = false) : squeeze w = w := by
  induction w with
  | nil => rfl
  | cons c w ih =>
    obtain ⟨hc, hw⟩ := List.forall_mem_cons.mp h
    have hrest := ih hw
    cases w with
    | nil => simp [squeeze, hc]
    | cons d w => rw [squeeze, hc, hrest, if_neg Bool.false_ne_true]

/-- At its end a text loses blanks and these marks. -/
def isDropped (c : Char) : Bool := isBlank c || c = '?' || c = '.' || c = '!'

theorem isBlank_of_isDropped {c : Char} (h : isDropped c = false) : isBlank c = false := by
  simp only [isDropped, Bool.or_eq_false_iff] at h
  exact h.1.1.1

/-- Normalizing has nothing to do. -/
structure Tidy (cs : List Char) : Prop where
  nonempty : cs ≠ []
  visible : ∀ c ∈ cs.head?, isBlank c = false
  last : ∀ c ∈ cs.getLast?, isDropped c = false
  squeezed : squeeze cs = cs

instance (cs : List Char) : Decidable (Tidy cs) :=
  decidable_of_iff (cs ≠ [] ∧ cs.head?.all (!isBlank ·) ∧ cs.getLast?.all (!isDropped ·) ∧ squeeze cs = cs)
    ⟨fun ⟨h₁, h₂, h₃, h₄⟩ => ⟨h₁, by simpa [Option.all_eq_true] using h₂, by simpa [Option.all_eq_true] using h₃, h₄⟩,
      fun ⟨h₁, h₂, h₃, h₄⟩ => ⟨h₁, by simpa [Option.all_eq_true] using h₂, by simpa [Option.all_eq_true] using h₃, h₄⟩⟩

/-- The text is empty or goes on from a tidy one with a space. -/
def TidyEnd (cs : List Char) : Prop := cs = [] ∨ ∃ v, cs = ' ' :: v ∧ Tidy v

namespace Tidy

variable {u v w : List Char}

theorem of_word (hne : w ≠ []) (h : ∀ c ∈ w, isDropped c = false) : Tidy w where
  nonempty := hne
  visible c hc := isBlank_of_isDropped (h c (List.mem_of_mem_head? hc))
  last c hc := h c (List.mem_of_getLast? hc)
  squeezed := squeeze_eq_self fun c hc => isBlank_of_isDropped (h c hc)

theorem normalize_eq (h : Tidy w) : Interpreter.normalize w = w := by
  have hblank : ∀ c ∈ w.getLast?, isBlank c = false := fun c hc => isBlank_of_isDropped (h.last c hc)
  have hmark : ∀ c ∈ w.getLast?, (decide (c = '?') || decide (c = '.') || decide (c = '!')) = false := by
    intro c hc
    have hlast := h.last c hc
    simp only [isDropped, Bool.or_assoc, Bool.or_eq_false_iff] at hlast
    simp only [Bool.or_assoc, Bool.or_eq_false_iff]
    exact hlast.2
  rw [Interpreter.normalize, trim_eq_self h.visible hblank, h.squeezed, dropEndWhile_eq_self hmark, trimEnd,
    dropEndWhile_eq_self hblank]

theorem space (hu : Tidy u) (hv : Tidy v) : Tidy (u ++ ' ' :: v) where
  nonempty := by simp
  visible := by
    obtain ⟨c, u, rfl⟩ := List.exists_cons_of_ne_nil hu.nonempty
    exact hu.visible
  last := by
    obtain ⟨c, v, rfl⟩ := List.exists_cons_of_ne_nil hv.nonempty
    intro d hd
    rw [List.getLast?_append, List.getLast?_cons_cons, List.getLast?_eq_some_getLast (List.cons_ne_nil c v)] at hd
    exact hv.last d (by rwa [List.getLast?_eq_some_getLast (List.cons_ne_nil c v)])
  squeezed := by
    have hspace : squeeze (' ' :: v) = ' ' :: v := by
      have h : squeeze ([' '] ++ v) = squeeze [' '] ++ squeeze v :=
        squeeze_append fun _ _ d hd => .inr (hv.visible d hd)
      rwa [hv.squeezed] at h
    rw [squeeze_append fun c hc _ _ => .inl (isBlank_of_isDropped (hu.last c hc)), hu.squeezed, hspace]

theorem append (hu : Tidy u) (hv : TidyEnd v) : Tidy (u ++ v) := by
  rcases hv with rfl | ⟨v, rfl, hv⟩
  · rwa [List.append_nil]
  · exact hu.space hv

end Tidy

namespace TidyEnd

variable {u v : List Char}

theorem nil : TidyEnd [] := .inl rfl

theorem cons (h : Tidy v) : TidyEnd (' ' :: v) := .inr ⟨v, rfl, h⟩

theorem append (hu : TidyEnd u) (hv : TidyEnd v) : TidyEnd (u ++ v) := by
  rcases hu with rfl | ⟨u, rfl, hu⟩
  · exact hv
  · exact .cons (hu.append hv)

end TidyEnd

theorem FreeName.not_isDropped {n : String} (h : FreeName n) : ∀ c ∈ n.toList, isDropped c = false :=
  fun c hc => forall_ascii (P := fun c => isLowerNameChar c = true → isDropped c = false) (by decide)
    (ascii_of_isLowerNameChar (h.lower c hc)) (h.lower c hc)

theorem FreeName.tidy {n : String} (h : FreeName n) : Tidy n.toList := .of_word h.ne_nil h.not_isDropped

theorem Numeral.tidy (n : Numeral) : Tidy n.digits :=
  .of_word n.nonempty (n.forall_class (by decide))

end Parlance.Sentence
