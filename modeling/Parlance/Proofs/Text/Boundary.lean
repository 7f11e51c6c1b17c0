import Parlance.Text.Basic

/-! Cutting a text by bytes. A text can be cut where a character ends; an offset inside a character, or behind the
text, is no place to cut. Blanking a span between two such places out leaves the text as long as it was and
every place a place, and changes the bytes of the span only. -/

namespace Parlance.Text

/-- A character ends at byte `n` of the text, or the text begins there. -/
def isBoundary : Nat → List Char → Bool
  | 0, _ => true
  | _ + 1, [] => false
  | n + 1, c :: cs => c.utf8Size ≤ n + 1 && isBoundary (n + 1 - c.utf8Size) cs

variable {a b cs : List Char} {m n : Nat}

@[simp] theorem isBoundary_zero (cs : List Char) : isBoundary 0 cs = true := by cases cs <;> rfl

theorem isBoundary_iff : isBoundary n cs = true ↔ ∃ a b, cs = a ++ b ∧ size a = n := by
  constructor
  · intro h
    induction cs generalizing n with
    | nil =>
      cases n with
      | zero => exact ⟨[], [], rfl, rfl⟩
      | succ n => cases h
    | cons c cs ih =>
      cases n with
      | zero => exact ⟨[], c :: cs, rfl, rfl⟩
      | succ n =>
        simp only [isBoundary, Bool.and_eq_true, decide_eq_true_eq] at h
        obtain ⟨a, b, rfl, hsize⟩ := ih h.2
        exact ⟨c :: a, b, rfl, by simp only [size]; omega⟩
  · rintro ⟨a, b, rfl, rfl⟩
    induction a with
    | nil => exact isBoundary_zero b
    | cons c a ih =>
      have hc := c.utf8Size_pos
      obtain ⟨k, hk⟩ : ∃ k, size (c :: a) = k + 1 := ⟨size (c :: a) - 1, by simp only [size]; omega⟩
      have hrest : k + 1 - c.utf8Size = size a := by
        simp only [size] at hk
        omega
      rw [hk, List.cons_append, isBoundary, hrest, ih, Bool.and_true, decide_eq_true_eq]
      simp only [size] at hk
      omega

theorem isBoundary_size_append (a b : List Char) : isBoundary (size a) (a ++ b) = true :=
  isBoundary_iff.mpr ⟨a, b, rfl, rfl⟩

/-- The blanks at the start of a text end where a character ends. -/
theorem isBoundary_trimStart (cs : List Char) : isBoundary (size cs - size (trimStart cs)) cs = true := by
  have hsplit : cs.takeWhile isBlank ++ trimStart cs = cs := List.takeWhile_append_dropWhile
  have hsize : size cs - size (trimStart cs) = size (cs.takeWhile isBlank) := by
    rw [← congrArg size hsplit, size_append, Nat.add_sub_cancel]
  rw [hsize]
  exact isBoundary_iff.mpr ⟨_, _, hsplit.symm, rfl⟩

theorem le_size_of_isBoundary (h : isBoundary n cs = true) : n ≤ size cs := by
  obtain ⟨a, b, rfl, rfl⟩ := isBoundary_iff.mp h
  rw [size_append]
  exact Nat.le_add_right _ _

/-! ### What stands behind a place -/

theorem dropTo_size_add (a b : List Char) (n : Nat) : dropTo (size a + n) (a ++ b) = dropTo n b := by
  induction a with
  | nil => rw [size, Nat.zero_add, List.nil_append]
  | cons c a ih =>
    have hc := c.utf8Size_pos
    obtain ⟨k, hk⟩ : ∃ k, size (c :: a) + n = k + 1 := ⟨size (c :: a) + n - 1, by simp only [size]; omega⟩
    have hrest : k + 1 - c.utf8Size = size a + n := by
      simp only [size] at hk
      omega
    rw [hk, List.cons_append, dropTo, hrest, ih]
    exact Nat.succ_ne_zero k

theorem dropTo_dropTo (h : isBoundary m cs = true) (n : Nat) : dropTo n (dropTo m cs) = dropTo (m + n) cs := by
  obtain ⟨a, b, rfl, rfl⟩ := isBoundary_iff.mp h
  rw [dropTo_size_append, dropTo_size_add]

theorem isBoundary_add (hm : isBoundary m cs = true) (hn : isBoundary n (dropTo m cs) = true) :
    isBoundary (m + n) cs = true := by
  obtain ⟨a, b, rfl, rfl⟩ := isBoundary_iff.mp hm
  rw [dropTo_size_append] at hn
  obtain ⟨w, x, rfl, rfl⟩ := isBoundary_iff.mp hn
  rw [← size_append, ← List.append_assoc]
  exact isBoundary_size_append _ _

theorem length_dropTo_le (h : isBoundary n cs = true) : (dropTo n cs).length ≤ cs.length := by
  obtain ⟨a, b, rfl, rfl⟩ := isBoundary_iff.mp h
  rw [dropTo_size_append, List.length_append]
  exact Nat.le_add_left _ _

/-- Behind a part of a text that is not empty less of it is left. -/
theorem length_dropTo_lt_of_pos (h : isBoundary n cs = true) (hpos : 0 < n) : (dropTo n cs).length < cs.length := by
  obtain ⟨a, b, rfl, rfl⟩ := isBoundary_iff.mp h
  rw [dropTo_size_append]
  cases a with
  | nil => exact absurd hpos (Nat.lt_irrefl _)
  | cons c a =>
    simp only [List.length_append, List.length_cons]
    omega

theorem length_dropTo_lt {k : Nat} (hk : isBoundary k cs = true) (hm : isBoundary m (dropTo k cs) = true)
    (hn : isBoundary n (dropTo (k + m) cs) = true) (hpos : 0 < n) :
    (dropTo (k + m + n) cs).length < (dropTo k cs).length := by
  have hle := length_dropTo_le hm
  have hlt := length_dropTo_lt_of_pos hn hpos
  rw [dropTo_dropTo hk] at hle
  rw [dropTo_dropTo (isBoundary_add hk hm)] at hlt
  exact Nat.lt_of_lt_of_le hlt hle

/-! ### Spans -/

/-- Both ends of the span are places of the text. -/
structure Span.Fits (s : Span) (cs : List Char) : Prop where
  start : isBoundary s.start cs = true
  stop : isBoundary s.stop cs = true
  le : s.start ≤ s.stop

theorem Span.Fits.shift {s : Span} (hm : isBoundary m cs = true) (h : s.Fits (dropTo m cs)) : (s.shift m).Fits cs where
  start := isBoundary_add hm h.start
  stop := isBoundary_add hm h.stop
  le := Nat.add_le_add_left h.le m

theorem fits_of_append (a w b : List Char) : Span.Fits ⟨size a, size (a ++ w)⟩ (a ++ (w ++ b)) where
  start := isBoundary_size_append a (w ++ b)
  stop := by
    rw [← List.append_assoc]
    exact isBoundary_size_append (a ++ w) b
  le := by
    rw [size_append]
    exact Nat.le_add_right _ _

/-- A place that is not behind another one stands before it. -/
theorem exists_append_of_size_le {p q : List Char} (h : p ++ q = a ++ b) (hle : size p ≤ size a) :
    ∃ z, a = p ++ z ∧ q = z ++ b := by
  rcases List.append_eq_append_iff.mp h with ⟨z, ha, hq⟩ | ⟨z, hp, hb⟩
  · exact ⟨z, ha, hq⟩
  · cases z with
    | nil => exact ⟨[], by simpa using hp.symm, by simpa using hb.symm⟩
    | cons c z =>
      have hc := c.utf8Size_pos
      rw [hp, size_append] at hle
      simp only [size] at hle
      omega

theorem Span.Fits.split {s : Span} (h : s.Fits cs) : ∃ a w b, cs = a ++ (w ++ b) ∧ s = ⟨size a, size (a ++ w)⟩ := by
  obtain ⟨start, stop⟩ := s
  obtain ⟨a, r, rfl, hstart⟩ := isBoundary_iff.mp h.start
  obtain ⟨p, b, hp, hstop⟩ := isBoundary_iff.mp h.stop
  have hle := h.le
  dsimp only at hstart hstop hle
  subst hstart hstop
  obtain ⟨w, rfl, rfl⟩ := exists_append_of_size_le hp hle
  exact ⟨a, w, b, rfl, rfl⟩

theorem blankOut_append (a w b : List Char) :
    blankOut ⟨size a, size (a ++ w)⟩ (a ++ (w ++ b)) = a ++ (List.replicate (size w) ' ' ++ b) := by
  have hdrop : dropTo (size (a ++ w)) (a ++ (w ++ b)) = b := by
    rw [← List.append_assoc, dropTo_size_append]
  have hwidth : size (a ++ w) - size a = size w := by
    rw [size_append, Nat.add_sub_cancel_left]
  rw [blankOut, takeTo_size_append, hdrop, hwidth, List.append_assoc]

theorem Span.Fits.size_blankOut {s : Span} (h : s.Fits cs) : size (blankOut s cs) = size cs := by
  obtain ⟨a, w, b, rfl, rfl⟩ := h.split
  rw [blankOut_append]
  simp only [size_append, size_spaces]

/-- A place of the text is a place still when a span is blanked out, also one inside the span. -/
theorem Span.Fits.isBoundary_blankOut {s : Span} (h : s.Fits cs) (hn : isBoundary n cs = true) :
    isBoundary n (blankOut s cs) = true := by
  obtain ⟨a, w, b, rfl, rfl⟩ := h.split
  obtain ⟨p, q, hp, rfl⟩ := isBoundary_iff.mp hn
  rw [blankOut_append, isBoundary_iff]
  -- The place stands before the span, in it or behind it.
  rcases Nat.le_total (size p) (size a) with hle | hle
  · obtain ⟨z, rfl, -⟩ := exists_append_of_size_le hp.symm hle
    exact ⟨p, z ++ (List.replicate (size w) ' ' ++ b), by rw [List.append_assoc], rfl⟩
  · obtain ⟨z, rfl, hz⟩ := exists_append_of_size_le hp hle
    rcases Nat.le_total (size z) (size w) with hle | hle
    · obtain ⟨y, rfl, -⟩ := exists_append_of_size_le hz.symm hle
      refine ⟨a ++ List.replicate (size z) ' ', List.replicate (size y) ' ' ++ b, ?_, ?_⟩
      · rw [size_append, ← List.replicate_append_replicate]
        simp only [List.append_assoc]
      · simp only [size_append, size_spaces]
    · obtain ⟨y, rfl, rfl⟩ := exists_append_of_size_le hz hle
      refine ⟨a ++ (List.replicate (size w) ' ' ++ y), q, by simp only [List.append_assoc], ?_⟩
      simp only [size_append, size_spaces]

/-! ### Bytes -/

def bytes (cs : List Char) : List UInt8 := cs.flatMap String.utf8EncodeChar

theorem bytes_append (a b : List Char) : bytes (a ++ b) = bytes a ++ bytes b := List.flatMap_append

theorem length_bytes (cs : List Char) : (bytes cs).length = size cs := by
  induction cs with
  | nil => rfl
  | cons c cs ih =>
    have hcons : bytes (c :: cs) = String.utf8EncodeChar c ++ bytes cs := rfl
    rw [hcons, List.length_append, String.length_utf8EncodeChar, ih, size]

theorem bytes_spaces (n : Nat) : bytes (List.replicate n ' ') = List.replicate n 0x20 := by
  induction n with
  | zero => rfl
  | succ n ih =>
    have hcons : bytes (' ' :: List.replicate n ' ') = 0x20 :: bytes (List.replicate n ' ') := rfl
    rw [List.replicate_succ, hcons, ih, List.replicate_succ]

def Span.covers (s : Span) (i : Nat) : Bool := s.start ≤ i && i < s.stop

/-- The bytes with a space for each that one of the spans covers. -/
def blanked (ss : List Span) (bs : List UInt8) : List UInt8 :=
  bs.mapIdx fun i b => if ss.any (·.covers i) then 0x20 else b

theorem blanked_nil (bs : List UInt8) : blanked [] bs = bs := by
  refine List.ext_getElem? fun i => ?_
  simp [blanked]

theorem blanked_blanked (ss ts : List Span) (bs : List UInt8) : blanked ss (blanked ts bs) = blanked (ss ++ ts) bs := by
  rw [blanked, blanked, List.mapIdx_mapIdx, blanked]
  refine List.ext_getElem? fun i => ?_
  simp only [List.getElem?_mapIdx, List.any_append]
  congr 1
  funext b
  cases ss.any (·.covers i) <;> simp

theorem bytes_blankOut {s : Span} (h : s.Fits cs) : bytes (blankOut s cs) = blanked [s] (bytes cs) := by
  obtain ⟨a, w, b, rfl, rfl⟩ := h.split
  rw [blankOut_append]
  refine List.ext_getElem? fun i => ?_
  simp only [blanked, List.getElem?_mapIdx, bytes_append, bytes_spaces, List.getElem?_append, length_bytes, size_append,
    List.length_replicate, List.any_cons, List.any_nil, Bool.or_false, Span.covers, Bool.and_eq_true, decide_eq_true_eq]
  by_cases hbefore : i < size a
  · have hout : ¬ (size a ≤ i ∧ i < size a + size w) := by omega
    simp [hbefore, hout]
  · rw [if_neg hbefore, if_neg hbefore]
    by_cases hin : i - size a < size w
    · have hcovered : size a ≤ i ∧ i < size a + size w := by omega
      have hlt : i - size a < (bytes w).length := by rwa [length_bytes]
      simp [hin, hcovered, List.getElem?_eq_getElem hlt]
    · have hout : ¬ (size a ≤ i ∧ i < size a + size w) := by omega
      simp [hin, hout]

end Parlance.Text
