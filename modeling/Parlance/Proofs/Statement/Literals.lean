import Parlance.Intent.Render

/-! Reading SQL by the rule for string literals. Every quote changes between the inside and the
outside of a literal; a doubled quote changes twice and so stays inside, as the rule wants it. -/

namespace Parlance.Statement

/-- The text outside the literals, if every literal is closed. A quote opens a literal; inside it
two quotes stand for one, and the next single one closes it. -/
def bareFrom : Bool → List Char → Option (List Char)
  | false, [] => some []
  | true, [] => none
  | false, c :: cs => if c = '\'' then bareFrom true cs else (bareFrom false cs).map (c :: ·)
  | true, [c] => if c = '\'' then some [] else none
  | true, c :: d :: cs =>
    if c = '\'' then
      if d = '\'' then bareFrom true cs else bareFrom false (d :: cs)
    else bareFrom true (d :: cs)

def bare? (sql : List Char) : Option (List Char) := bareFrom false sql

/-- Whether a text that begins inside or outside a literal ends inside one. -/
def inside : Bool → List Char → Bool
  | q, [] => q
  | q, c :: cs => inside (if c = '\'' then !q else q) cs

def bare : Bool → List Char → List Char
  | _, [] => []
  | q, c :: cs => if c = '\'' then bare (!q) cs else if q then bare q cs else c :: bare q cs

theorem bareFrom_eq (q : Bool) (cs : List Char) :
    bareFrom q cs = if inside q cs then none else some (bare q cs) := by
  induction q, cs using bareFrom.induct with
  | case1 | case2 => rfl
  | case3 cs ih => simp [bareFrom, inside, bare, ih]
  | case4 c cs hc ih =>
    simp only [bareFrom, inside, bare, hc, ih, if_false]
    split <;> simp
  | case5 => rfl
  | case6 c hc => simp [bareFrom, inside, hc]
  | case7 cs ih => simp [bareFrom, inside, bare, ih]
  | case8 d cs hd ih => rw [bareFrom, if_pos rfl, if_neg hd, ih]; rfl
  | case9 c d cs hc ih =>
    have hi : inside true (c :: d :: cs) = inside true (d :: cs) := by rw [inside, if_neg hc]
    have hb : bare true (c :: d :: cs) = bare true (d :: cs) := by rw [bare, if_neg hc, if_pos rfl]
    rw [bareFrom, if_neg hc, ih, hi, hb]

theorem bare?_of_closed {sql : List Char} (h : inside false sql = false) :
    bare? sql = some (bare false sql) := by
  simp [bare?, bareFrom_eq, h]

theorem inside_append (q : Bool) (a b : List Char) : inside q (a ++ b) = inside (inside q a) b := by
  induction a generalizing q with
  | nil => rfl
  | cons c a ih => exact ih _

theorem bare_append (q : Bool) (a b : List Char) :
    bare q (a ++ b) = bare q a ++ bare (inside q a) b := by
  induction a generalizing q with
  | nil => rfl
  | cons c a ih =>
    simp only [List.cons_append, bare, inside]
    split
    · exact ih _
    · split
      · exact ih _
      · rw [ih, List.cons_append]

theorem inside_of_not_mem {cs : List Char} (h : '\'' ∉ cs) (q : Bool) : inside q cs = q := by
  induction cs with
  | nil => rfl
  | cons c cs ih =>
    have hc := List.ne_of_not_mem_cons h
    have hcs := List.not_mem_of_not_mem_cons h
    rw [inside, if_neg (Ne.symm hc), ih hcs]

theorem bare_of_not_mem {cs : List Char} (h : '\'' ∉ cs) : bare false cs = cs := by
  induction cs with
  | nil => rfl
  | cons c cs ih =>
    have hc := List.ne_of_not_mem_cons h
    have hcs := List.not_mem_of_not_mem_cons h
    rw [bare, if_neg (Ne.symm hc), if_neg Bool.false_ne_true, ih hcs]

theorem substitute_of_not_mem {cs : List Char} (h : '\'' ∉ cs) : Text.substitute '\'' ['\'', '\''] cs = cs := by
  induction cs with
  | nil => rfl
  | cons c cs ih =>
    have hc := List.ne_of_not_mem_cons h
    rw [Text.substitute, List.flatMap_cons, ← Text.substitute, ih (List.not_mem_of_not_mem_cons h), if_neg (Ne.symm hc),
      List.singleton_append]

theorem toList_quoted (s : String) :
    (quoted s).toList = '\'' :: (Text.substitute '\'' ['\'', '\''] s.toList ++ ['\'']) := by
  simp [quoted, doubled]

/-- Text that keeps a reader inside the literal in which it stands. -/
structure Within (cs : List Char) : Prop where
  stays : inside true cs = true
  hidden : bare true cs = []

namespace Within

variable {a b : List Char}

theorem append (ha : Within a) (hb : Within b) : Within (a ++ b) := by
  constructor
  · rw [inside_append, ha.stays, hb.stays]
  · rw [bare_append, ha.stays, ha.hidden, hb.hidden, List.append_nil]

theorem of_not_mem {cs : List Char} (h : '\'' ∉ cs) : Within cs := by
  refine ⟨inside_of_not_mem h true, ?_⟩
  induction cs with
  | nil => rfl
  | cons c cs ih =>
    have hc := List.ne_of_not_mem_cons h
    have hcs := List.not_mem_of_not_mem_cons h
    rw [bare, if_neg (Ne.symm hc), if_pos rfl, ih hcs]

theorem substitute (cs : List Char) : Within (Text.substitute '\'' ['\'', '\''] cs) := by
  induction cs with
  | nil => exact ⟨rfl, rfl⟩
  | cons c cs ih =>
    rw [Text.substitute, List.flatMap_cons, ← Text.substitute]
    refine Within.append ?_ ih
    split
    · exact ⟨rfl, rfl⟩
    · next hc => exact of_not_mem (by simpa using Ne.symm hc)

/-- Whatever a text is, doubling its quotes keeps it inside a literal. -/
theorem doubled (s : String) : Within (doubled s).toList := by
  rw [Parlance.doubled, String.toList_ofList]
  exact substitute _

theorem like (mode : LikeMode) (pattern : String) : Within (mode.sql pattern).toList := by
  have hp : Within "%".toList := of_not_mem (by decide)
  have hd := doubled pattern
  cases mode with
  | contains =>
    simp only [LikeMode.sql, String.toList_append]
    exact (hp.append hd).append hp
  | startsWith =>
    simp only [LikeMode.sql, String.toList_append]
    exact hd.append hp
  | endsWith =>
    simp only [LikeMode.sql, String.toList_append]
    exact hp.append hd

end Within

end Parlance.Statement
