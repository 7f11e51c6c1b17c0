import Parlance.Json.Layout
import Parlance.Proofs.Json.Scalar

/-! Every text of a value is read as the value, however its tokens are spaced, as long as containers
are not nested too deep. Both printers write such texts, so reading undoes printing for all that
printing keeps: everything but doubles, integers beyond 64 bits and parts that have no value. -/

namespace Parlance.Json

open Number (maxWord64)
open Text (ne_of_holds)

/-! ### Texts of a value -/

/-- What may stand between two tokens. -/
def Gap (g : List Char) : Prop := ∀ c ∈ g, isSpace c = true

def quoteChars (s : String) : List Char := '"' :: (s.toList.flatMap escape ++ ['"'])

mutual

inductive Spells : Json → List Char → Prop
  | null : Spells null "null".toList
  | bool (b : Bool) : Spells (bool b) (if b then "true" else "false").toList
  | nat {n : Nat} (h : n ≤ maxWord64) : Spells (int n) (Nat.toDigits 10 n)
  | negative {n : Nat} (h : n + 1 ≤ Nat.pow 2 63) : Spells (int (.negSucc n)) ('-' :: Nat.toDigits 10 (n + 1))
  | text (s : String) : Spells (text s) (quoteChars s)
  | noItems : Spells (list []) ['[', ']']
  | items {j : Json} {js : List Json} {g x xs : List Char} (hg : Gap g) (hj : Spells j x)
      (hjs : SpellsItems js xs) : Spells (list (j :: js)) ('[' :: (g ++ (x ++ xs)))
  | noFields : Spells (object []) ['\x7b', '\x7d']
  | fields {k : String} {j : Json} {fs : List (String × Json)} {g h x xs : List Char} (hg : Gap g) (hh : Gap h)
      (hj : Spells j x) (hfs : SpellsFields fs xs) :
      Spells (object ((k, j) :: fs)) ('\x7b' :: (g ++ (quoteChars k ++ ':' :: (h ++ (x ++ xs)))))

/-- What is behind an item, with the bracket at the end. -/
inductive SpellsItems : List Json → List Char → Prop
  | nil {g : List Char} (hg : Gap g) : SpellsItems [] (g ++ [']'])
  | cons {j : Json} {js : List Json} {g x xs : List Char} (hg : Gap g) (hj : Spells j x)
      (hjs : SpellsItems js xs) : SpellsItems (j :: js) (',' :: (g ++ (x ++ xs)))

/-- What is behind a field, with the brace at the end. -/
inductive SpellsFields : List (String × Json) → List Char → Prop
  | nil {g : List Char} (hg : Gap g) : SpellsFields [] (g ++ ['\x7d'])
  | cons {k : String} {j : Json} {fs : List (String × Json)} {g h x xs : List Char} (hg : Gap g) (hh : Gap h)
      (hj : Spells j x) (hfs : SpellsFields fs xs) :
      SpellsFields ((k, j) :: fs) (',' :: (g ++ (quoteChars k ++ ':' :: (h ++ (x ++ xs)))))

end

theorem not_isSpace_of_isDigit {d : Char} (h : isDigit d = true) : isSpace d = false := by
  cases hd : isSpace d with
  | false => rfl
  | true =>
    simp only [isSpace, Bool.or_eq_true, decide_eq_true_eq] at hd
    rcases hd with ((rfl | rfl) | rfl) | rfl <;> exact absurd h (by decide)

theorem Spells.exists_cons {j : Json} {x : List Char} (h : Spells j x) :
    ∃ c cs, x = c :: cs ∧ isSpace c = false ∧ c ≠ ']' := by
  cases h with
  | bool b => cases b <;> exact ⟨_, _, rfl, by decide, by decide⟩
  | nat h =>
    have hn := numbers_toDigits h
    obtain ⟨d, ds, hds, -⟩ := hn.begins
    have hd := hn.digits d (by simp [hds])
    exact ⟨d, ds, hds, not_isSpace_of_isDigit hd, ne_of_holds hd (by decide)⟩
  | _ => exact ⟨_, _, rfl, by decide, by decide⟩

/-! ### Nesting -/

mutual

/-- The number of containers that the innermost value stands in, or that are in one another. -/
def nesting : Json → Nat
  | list items => nestingOfItems items + 1
  | object fields => nestingOfFields fields + 1
  | _ => 0

def nestingOfItems : List Json → Nat
  | [] => 0
  | j :: js => max j.nesting (nestingOfItems js)

def nestingOfFields : List (String × Json) → Nat
  | [] => 0
  | (_, j) :: fs => max j.nesting (nestingOfFields fs)

end

/-! ### Runs -/

/-- Where a reader is: the containers that are open, what is to be done, and the text to come. -/
structure Place where
  stack : List Frame
  step : Step
  rest : List Char

def Place.run (mode : Mode) (fuel : Nat) (p : Place) : Except Fault Json :=
  Json.run mode fuel p.stack p.step p.rest

/-- A reader gets from one place to another in at least one step and in so many at most. -/
def Reaches (mode : Mode) (n : Nat) (p q : Place) : Prop :=
  ∃ k < n, ∀ fuel, p.run mode (fuel + k + 1) = q.run mode fuel

variable {mode : Mode} {stack : List Frame} {p q r : Place}

theorem Reaches.step (h : ∀ fuel, p.run mode (fuel + 1) = q.run mode fuel) : Reaches mode 1 p q :=
  ⟨0, Nat.one_pos, h⟩

theorem Reaches.trans {m n : Nat} (hpq : Reaches mode m p q) (hqr : Reaches mode n q r) :
    Reaches mode (m + n) p r := by
  obtain ⟨k, hk, hpq⟩ := hpq
  obtain ⟨l, hl, hqr⟩ := hqr
  refine ⟨l + 1 + k, by omega, fun fuel => ?_⟩
  rw [← Nat.add_assoc, ← Nat.add_assoc, hpq, hqr]

theorem Reaches.mono {m n : Nat} (h : Reaches mode m p q) (hmn : m ≤ n) : Reaches mode n p q := by
  obtain ⟨k, hk, h⟩ := h
  exact ⟨k, Nat.lt_of_lt_of_le hk hmn, h⟩

theorem skipSpace_gap {g cs : List Char} (h : Gap g) : skipSpace (g ++ cs) = skipSpace cs :=
  List.dropWhile_append_of_pos h

theorem skipSpace_cons {c : Char} {cs : List Char} (h : isSpace c = false) : skipSpace (c :: cs) = c :: cs := by
  simp [skipSpace, h]

/-! ### Steps -/

attribute [local simp] Place.run run

theorem tooDeep_eq_false (h : stack.length + 1 < depthLimit) : tooDeep mode stack = false := by
  simp [tooDeep, h]

theorem close_eq {v : Json} (h : stack.length + 1 < depthLimit) : close stack.length v = v := by
  simp [close, Nat.not_le.mpr h]

section Steps

variable {g x rest : List Char} {items : List Json} {fields : List (String × Json)} {k : String} {v j : Json}

theorem reaches_list_end (hg : Gap g) (h : stack.length + 1 < depthLimit) :
    Reaches mode 1 ⟨.list items :: stack, .done v, g ++ ']' :: rest⟩
      ⟨stack, .done (list (v :: items).reverse), rest⟩ := by
  refine .step fun fuel => ?_
  simp [skipSpace_gap hg, skipSpace_cons (c := ']') (by decide), close_eq h]

theorem reaches_object_end (hg : Gap g) (h : stack.length + 1 < depthLimit) :
    Reaches mode 1 ⟨.object (some fields) (some k) :: stack, .done v, g ++ '\x7d' :: rest⟩
      ⟨stack, .done (object ((k, v) :: fields).reverse), rest⟩ := by
  refine .step fun fuel => ?_
  simp [skipSpace_gap hg, skipSpace_cons (c := '\x7d') (by decide), Fields.add, Fields.close, close_eq h]

/-- Behind a gap the value is come upon, which is not the end of a list. -/
theorem Spells.skipSpace (hg : Gap g) (hx : Spells j x) (rest : List Char) :
    ∃ c cs, x ++ rest = c :: cs ∧ c ≠ ']' ∧ Json.skipSpace (g ++ c :: cs) = c :: cs := by
  obtain ⟨c, cs, rfl, hspace, hbracket⟩ := hx.exists_cons
  exact ⟨c, cs ++ rest, rfl, hbracket, by rw [skipSpace_gap hg, skipSpace_cons hspace]⟩

theorem reaches_first_item (hg : Gap g) (hx : Spells j x) (h : stack.length + 1 < depthLimit) :
    Reaches mode 1 ⟨stack, .value, '[' :: (g ++ (x ++ rest))⟩ ⟨.list [] :: stack, .value, x ++ rest⟩ := by
  obtain ⟨c, cs, hcons, hbracket, hskip⟩ := hx.skipSpace hg rest
  rw [hcons]
  refine .step fun fuel => ?_
  simp [skipSpace_cons (c := '[') (by decide), tooDeep_eq_false h, hskip, hbracket]

theorem reaches_next_item (hg : Gap g) (hx : Spells j x) :
    Reaches mode 1 ⟨.list items :: stack, .done v, ',' :: (g ++ (x ++ rest))⟩
      ⟨.list (v :: items) :: stack, .value, x ++ rest⟩ := by
  obtain ⟨c, cs, hcons, hbracket, hskip⟩ := hx.skipSpace hg rest
  rw [hcons]
  refine .step fun fuel => ?_
  simp [skipSpace_cons (c := ',') (by decide), hskip, hbracket]

/-- Behind a gap a key is come upon, which is not the end of an object. -/
theorem skipSpace_quote (hg : Gap g) (cs : List Char) :
    ∃ ds, quoteChars k ++ cs = '"' :: ds ∧ Json.skipSpace (g ++ '"' :: ds) = '"' :: ds :=
  ⟨_, rfl, by rw [skipSpace_gap hg, skipSpace_cons (by decide)]⟩

theorem readKey_quote (known : Fields) (cs : List Char) :
    readKey mode known (quoteChars k ++ ':' :: cs) = .ok (.object known (some k), cs) := by
  simp [readKey, quoteChars, readQuoted_escaped, skipSpace_cons (c := ':'), bind, Except.bind, isSpace]

theorem reaches_key {known : Fields} : Reaches mode 1 ⟨stack, .key known, quoteChars k ++ ':' :: rest⟩
    ⟨.object known (some k) :: stack, .value, rest⟩ := by
  refine .step fun fuel => ?_
  simp [readKey_quote, bind, Except.bind]

theorem reaches_first_key (hg : Gap g) (h : stack.length + 1 < depthLimit) :
    Reaches mode 1 ⟨stack, .value, '\x7b' :: (g ++ (quoteChars k ++ rest))⟩
      ⟨stack, .key (some []), quoteChars k ++ rest⟩ := by
  obtain ⟨ds, hcons, hskip⟩ := skipSpace_quote (k := k) hg rest
  rw [hcons]
  refine .step fun fuel => ?_
  simp [skipSpace_cons (c := '\x7b') (by decide), tooDeep_eq_false h, hskip]

theorem reaches_next_key (hg : Gap g) :
    Reaches mode 1 ⟨.object (some fields) (some k) :: stack, .done v, ',' :: (g ++ (quoteChars l ++ rest))⟩
      ⟨stack, .key (some ((k, v) :: fields)), quoteChars l ++ rest⟩ := by
  obtain ⟨ds, hcons, hskip⟩ := skipSpace_quote (k := l) hg rest
  rw [hcons]
  refine .step fun fuel => ?_
  simp [skipSpace_cons (c := ',') (by decide), hskip, Fields.add]

/-- A value's step passes over the gap in front of it. -/
theorem Reaches.behind_gap {n : Nat} (hg : Gap g) (h : Reaches mode n ⟨stack, .value, rest⟩ p) :
    Reaches mode n ⟨stack, .value, g ++ rest⟩ p := by
  obtain ⟨m, hm, h⟩ := h
  refine ⟨m, hm, fun fuel => ?_⟩
  rw [← h fuel]
  simp only [Place.run, run, skipSpace_gap hg]

end Steps

/-! ### Values -/

theorem ended_gap {g cs : List Char} (hg : Gap g) (h : Ended cs) : Ended (g ++ cs) := by
  cases g with
  | nil => exact h
  | cons c g =>
    intro d hd
    cases hd
    have hspace := hg c (by simp)
    simp only [isSpace, Bool.or_eq_true, decide_eq_true_eq] at hspace
    rcases hspace with ((rfl | rfl) | rfl) | rfl <;> decide

theorem ended_cons {c : Char} {cs : List Char} (h : c ∈ enders) : Ended (c :: cs) := by
  intro d hd
  cases hd
  exact h

theorem SpellsItems.ended {js : List Json} {xs : List Char} (h : SpellsItems js xs) (rest : List Char) :
    Ended (xs ++ rest) := by
  cases h with
  | nil hg =>
    rw [List.append_assoc]
    exact ended_gap hg (ended_cons (by decide))
  | cons => exact ended_cons (by decide)

theorem SpellsFields.ended {fs : List (String × Json)} {xs : List Char} (h : SpellsFields fs xs) (rest : List Char) :
    Ended (xs ++ rest) := by
  cases h with
  | nil hg =>
    rw [List.append_assoc]
    exact ended_gap hg (ended_cons (by decide))
  | cons => exact ended_cons (by decide)

theorem reaches_bool (b : Bool) (rest : List Char) :
    Reaches mode 1 ⟨stack, .value, (if b then "true" else "false").toList ++ rest⟩
      ⟨stack, .done (.bool b), rest⟩ := by
  refine .step fun fuel => ?_
  cases b <;> simp [skipSpace, isSpace, readWord, bind, Except.bind]

theorem run_digit {d : Char} {cs : List Char} (h : isDigit d = true) (fuel : Nat) :
    run mode (fuel + 1) stack .value (d :: cs) =
      readNumber mode false (d :: cs) >>= fun r => run mode fuel stack (.done r.1) r.2 := by
  have hn : d ≠ 'n' := ne_of_holds h (by decide)
  have ht : d ≠ 't' := ne_of_holds h (by decide)
  have hf : d ≠ 'f' := ne_of_holds h (by decide)
  have hminus : d ≠ '-' := ne_of_holds h (by decide)
  have hquote : d ≠ '"' := ne_of_holds h (by decide)
  have hbracket : d ≠ '[' := ne_of_holds h (by decide)
  have hbrace : d ≠ '\x7b' := ne_of_holds h (by decide)
  simp [skipSpace_cons (not_isSpace_of_isDigit h), h]

theorem reaches_nat {n : Nat} {rest : List Char} (h : n ≤ maxWord64) (hrest : Ended rest) :
    Reaches mode 1 ⟨stack, .value, Nat.toDigits 10 n ++ rest⟩ ⟨stack, .done (.int n), rest⟩ := by
  have hread : readNumber mode false (Nat.toDigits 10 n ++ rest) = _ := readNumber_nat h hrest
  obtain ⟨d, ds, hds, -⟩ := (numbers_toDigits h).begins
  have hdigit := (numbers_toDigits h).digits d (by simp [hds])
  rw [hds, List.cons_append] at hread ⊢
  refine .step fun fuel => ?_
  simp only [Place.run, run_digit hdigit, hread, bind, Except.bind]

theorem reaches_negative {n : Nat} {rest : List Char} (h : n + 1 ≤ Nat.pow 2 63) (hrest : Ended rest) :
    Reaches mode 1 ⟨stack, .value, '-' :: Nat.toDigits 10 (n + 1) ++ rest⟩
      ⟨stack, .done (.int (.negSucc n)), rest⟩ := by
  refine .step fun fuel => ?_
  simp [skipSpace_cons (c := '-'), isSpace, readNumber_negative h hrest, bind, Except.bind]

theorem reaches_text (s : String) (rest : List Char) :
    Reaches mode 1 ⟨stack, .value, quoteChars s ++ rest⟩ ⟨stack, .done (.text s), rest⟩ := by
  refine .step fun fuel => ?_
  simp [quoteChars, skipSpace_cons (c := '"'), isSpace, readText_escaped, bind, Except.bind]

theorem reaches_noItems (h : stack.length + 1 < depthLimit) (rest : List Char) :
    Reaches mode 1 ⟨stack, .value, '[' :: ']' :: rest⟩ ⟨stack, .done (list []), rest⟩ := by
  refine .step fun fuel => ?_
  simp [skipSpace_cons (c := '['), skipSpace_cons (c := ']'), isSpace, tooDeep_eq_false h, close_eq h]

theorem reaches_noFields (h : stack.length + 1 < depthLimit) (rest : List Char) :
    Reaches mode 1 ⟨stack, .value, '\x7b' :: '\x7d' :: rest⟩ ⟨stack, .done (object []), rest⟩ := by
  refine .step fun fuel => ?_
  simp [skipSpace_cons (c := '\x7b'), skipSpace_cons (c := '\x7d'), isSpace, tooDeep_eq_false h,
    close_eq h]

mutual

/-- A text of a value is read as the value, in no more steps than it has characters. -/
theorem Spells.reaches {j : Json} {x rest : List Char} (h : Spells j x) (stack : List Frame)
    (hdepth : stack.length + j.nesting < depthLimit) (hrest : Ended rest) :
    Reaches mode x.length ⟨stack, .value, x ++ rest⟩ ⟨stack, .done j, rest⟩ := by
  match h with
  | .null =>
    refine .mono (.step fun fuel => ?_) (by decide)
    simp [skipSpace, isSpace, readWord, bind, Except.bind]
  | .bool b => exact (reaches_bool b rest).mono (by cases b <;> decide)
  | .nat h => exact (reaches_nat h hrest).mono (List.length_pos_iff.mpr Nat.toDigits_ne_nil)
  | .negative h => exact (reaches_negative h hrest).mono (by simp)
  | .text s => exact (reaches_text s rest).mono (by simp [quoteChars])
  | .noItems => exact (reaches_noItems (by simpa [nesting, nestingOfItems] using hdepth) rest).mono (by simp)
  | @Spells.items j js g x xs hg hj hjs =>
    simp only [nesting, nestingOfItems] at hdepth
    have hopen : stack.length + 1 < depthLimit := by omega
    have hvalue := hj.reaches (.list [] :: stack) (by simp only [List.length_cons]; omega) (hjs.ended rest)
    have hitems := hjs.reaches stack [] j rest (by omega)
    have hall := ((reaches_first_item hg hj hopen).trans hvalue).trans hitems
    simp only [List.cons_append, List.append_assoc]
    exact hall.mono (by simp only [List.length_cons, List.length_append]; omega)
  | .noFields => exact (reaches_noFields (by simpa [nesting, nestingOfFields] using hdepth) rest).mono (by simp)
  | @Spells.fields k j fs g h x xs hg hh hj hfs =>
    simp only [nesting, nestingOfFields] at hdepth
    have hopen : stack.length + 1 < depthLimit := by omega
    have hvalue := (hj.reaches (.object (some []) (some k) :: stack) (by simp only [List.length_cons]; omega)
      (hfs.ended rest)).behind_gap hh
    have hfields := hfs.reaches stack [] k j rest (by omega)
    have hall := (((reaches_first_key hg hopen).trans reaches_key).trans hvalue).trans hfields
    simp only [List.cons_append, List.append_assoc]
    exact hall.mono (by simp only [List.length_cons, List.length_append, quoteChars]; omega)

theorem SpellsItems.reaches {js : List Json} {xs : List Char} (h : SpellsItems js xs) (stack : List Frame)
    (items : List Json) (v : Json) (rest : List Char) (hdepth : stack.length + 1 + nestingOfItems js < depthLimit) :
    Reaches mode xs.length ⟨.list items :: stack, .done v, xs ++ rest⟩
      ⟨stack, .done (list ((v :: items).reverse ++ js)), rest⟩ := by
  match h with
  | .nil hg =>
    rw [List.append_assoc, List.append_nil]
    exact (reaches_list_end hg (by omega)).mono (by simp)
  | @SpellsItems.cons j js g x xs hg hj hjs =>
    simp only [nestingOfItems] at hdepth
    have hvalue := hj.reaches (.list (v :: items) :: stack) (by simp only [List.length_cons]; omega) (hjs.ended rest)
    have hitems := hjs.reaches stack (v :: items) j rest (by omega)
    have hall := ((reaches_next_item hg hj).trans hvalue).trans hitems
    simp only [List.reverse_cons (a := j), List.append_assoc, List.singleton_append] at hall
    simp only [List.cons_append, List.append_assoc]
    exact hall.mono (by simp only [List.length_cons, List.length_append]; omega)

theorem SpellsFields.reaches {fs : List (String × Json)} {xs : List Char} (h : SpellsFields fs xs)
    (stack : List Frame) (fields : List (String × Json)) (k : String) (v : Json) (rest : List Char)
    (hdepth : stack.length + 1 + nestingOfFields fs < depthLimit) :
    Reaches mode xs.length ⟨.object (some fields) (some k) :: stack, .done v, xs ++ rest⟩
      ⟨stack, .done (object (((k, v) :: fields).reverse ++ fs)), rest⟩ := by
  match h with
  | .nil hg =>
    rw [List.append_assoc, List.append_nil]
    exact (reaches_object_end hg (by omega)).mono (by simp)
  | @SpellsFields.cons l j fs g h x xs hg hh hj hfs =>
    simp only [nestingOfFields] at hdepth
    have hvalue := (hj.reaches (.object (some ((k, v) :: fields)) (some l) :: stack) (by simp only [List.length_cons]; omega)
      (hfs.ended rest)).behind_gap hh
    have hfields := hfs.reaches stack ((k, v) :: fields) l j rest (by omega)
    have hall := (((reaches_next_key hg).trans reaches_key).trans hvalue).trans hfields
    simp only [List.reverse_cons (a := (l, j)), List.append_assoc, List.singleton_append] at hall
    simp only [List.cons_append, List.append_assoc]
    exact hall.mono (by simp only [List.length_cons, List.length_append, quoteChars]; omega)

end

/-- The fuel suffices. -/
theorem Spells.readIn {j : Json} {x : List Char} (h : Spells j x) (hdepth : j.nesting < depthLimit) :
    readIn mode x = .ok j := by
  have hreaches : Reaches mode x.length ⟨[], .value, x ++ []⟩ ⟨[], .done j, []⟩ :=
    h.reaches [] (by simpa using hdepth) (by simp [Ended])
  obtain ⟨k, hk, hrun⟩ := hreaches
  have hfuel : 2 * x.length + 2 = (2 * x.length - k) + 1 + k + 1 := by omega
  rw [List.append_nil] at hrun
  rw [Json.readIn, hfuel]
  exact hrun _

end Parlance.Json
