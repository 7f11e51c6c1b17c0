import Parlance.Proofs.Pattern.Name
import Parlance.Proofs.Text.Lowered

/-! Matching without regard to case. A pattern whose classes are caseless finds the same places in a text
and in the text in lower case; what it captures there is what it captured before, in lower case. -/

namespace Parlance

open Text (asciiLower)

/-! ### A search in lower case -/

def Cursor.lowered (c : Cursor) : Cursor := ⟨c.before.map Char.toLower, c.pos, asciiLower c.rest⟩

def Capture.lowered (c : Capture) : Capture := ⟨c.span, asciiLower c.text⟩

def Captures.lowered (g : Captures) : Captures := g.map fun e => (e.1, e.2.lowered)

def Pattern.Hit.lowered (h : Pattern.Hit) : Pattern.Hit :=
  ⟨h.span, asciiLower h.text, Captures.lowered h.captures⟩

@[simp] theorem Cursor.pos_lowered (c : Cursor) : c.lowered.pos = c.pos := rfl

theorem Cursor.pass_lowered (c : Cursor) (x : Char) (xs : List Char) :
    c.lowered.pass x.toLower (asciiLower xs) = (c.pass x xs).lowered := by
  simp [pass, lowered]

theorem Cursor.captureTo_lowered (c d : Cursor) :
    c.lowered.captureTo d.lowered = (c.captureTo d).lowered := by
  simp only [captureTo, lowered, Capture.lowered, Text.length_asciiLower]
  simp only [asciiLower, List.map_take]

theorem isWordAt_lowered (o : Option Char) : Text.isWordAt (o.map Char.toLower) = Text.isWordAt o := by
  cases o with
  | none => rfl
  | some c => exact Text.caseless_isWord c

theorem Cursor.atEdge_lowered (c : Cursor) : c.lowered.atEdge = c.atEdge := by
  simp only [atEdge, lowered, asciiLower, List.head?_map, isWordAt_lowered]

namespace Pattern

/-- The classes of the pattern are caseless. -/
def Caseless : Pattern → Prop
  | empty | start | edge => True
  | one p | many p => Text.Caseless p
  | both a b | either a b => a.Caseless ∧ b.Caseless
  | group _ a => a.Caseless

variable {p : Pattern}

theorem runEnds_lowered {q : Char → Bool} (hq : Text.Caseless q) (c : Cursor) :
    runEnds q c.lowered = (runEnds q c).map Cursor.lowered := by
  suffices ∀ (xs : List Char) (c : Cursor),
      runEnds.go q c.lowered (asciiLower xs) = (runEnds.go q c xs).map Cursor.lowered from this c.rest c
  intro xs
  induction xs with
  | nil => intro c; rfl
  | cons x xs ih =>
    intro c
    rw [Text.asciiLower_cons, runEnds.go, runEnds.go, hq x, Cursor.pass_lowered, ih]
    split <;> simp

theorem ends_lowered (hp : p.Caseless) (c : Cursor) (g : Captures) :
    p.ends c.lowered (Captures.lowered g) = (p.ends c g).map fun e => (e.1.lowered, Captures.lowered e.2) := by
  induction p generalizing c g with
  | empty => rfl
  | one q =>
    obtain ⟨before, pos, rest⟩ := c
    cases rest with
    | nil => rfl
    | cons x xs =>
      have hpass := Cursor.pass_lowered ⟨before, pos, x :: xs⟩ x xs
      simp only [Cursor.lowered, Text.asciiLower_cons] at hpass
      simp only [ends, Cursor.lowered, Text.asciiLower_cons, hp x, hpass]
      split <;> rfl
  | many q =>
    simp only [ends, runEnds_lowered hp, List.map_map, Function.comp_def]
  | both a b iha ihb =>
    simp only [ends, iha hp.1, ihb hp.2, List.flatMap_map, List.map_flatMap]
  | either a b iha ihb =>
    simp only [ends, iha hp.1, ihb hp.2, List.map_append]
  | group n a ih =>
    have hcapture := fun d => Cursor.captureTo_lowered c d
    simp only [ends, ih hp, List.map_map, Function.comp_def, hcapture]
    rfl
  | start => by_cases hc : c.pos = 0 <;> simp [ends, hc]
  | edge =>
    simp only [ends, Cursor.atEdge_lowered]
    split <;> rfl

theorem hitAt?_lowered (hp : p.Caseless) (c : Cursor) : p.hitAt? c.lowered = (p.hitAt? c).map Hit.lowered := by
  have hends : p.ends c.lowered [] = (p.ends c []).map fun e => (e.1.lowered, Captures.lowered e.2) :=
    ends_lowered hp c []
  simp only [hitAt?_eq, hends, List.head?_map, Option.map_map, Function.comp_def, Cursor.captureTo_lowered]
  rfl

/-- A hit at the cursor, where hits are wanted there. -/
theorem hitBehind_lowered (hp : p.Caseless) (low : Nat) (c : Cursor) :
    (if low ≤ c.lowered.pos then p.hitAt? c.lowered else none) =
      (if low ≤ c.pos then p.hitAt? c else none).map Hit.lowered := by
  rw [hitAt?_lowered hp]
  by_cases hlow : low ≤ c.pos <;> simp [hlow]

theorem findFrom?_lowered (hp : p.Caseless) (low : Nat) (c : Cursor) (xs : List Char) :
    p.findFrom? low c.lowered (asciiLower xs) = (p.findFrom? low c xs).map Hit.lowered := by
  induction xs generalizing c with
  | nil => exact hitBehind_lowered hp low c
  | cons x xs ih =>
    simp only [Text.asciiLower_cons, findFrom?, hitBehind_lowered hp, Cursor.pass_lowered, ih]
    cases if low ≤ c.pos then p.hitAt? c else none <;> rfl

theorem findAfter?_lowered (hp : p.Caseless) (low : Nat) (cs : List Char) :
    p.findAfter? low (asciiLower cs) = (p.findAfter? low cs).map Hit.lowered :=
  findFrom?_lowered hp low (.ofText cs) cs

theorem find?_lowered (hp : p.Caseless) (cs : List Char) :
    p.find? (asciiLower cs) = (p.find? cs).map Hit.lowered :=
  findAfter?_lowered hp 0 cs

theorem holds_lowered (hp : p.Caseless) (cs : List Char) : p.holds (asciiLower cs) = p.holds cs := by
  rw [holds, holds, find?_lowered hp, Option.isSome_map]

theorem hitsFrom_lowered (hp : p.Caseless) (low : Nat) (c : Cursor) (xs : List Char) :
    p.hitsFrom low c.lowered (asciiLower xs) = (p.hitsFrom low c xs).map Hit.lowered := by
  induction xs generalizing low c with
  | nil =>
    simp only [Text.asciiLower_nil, hitsFrom, hitBehind_lowered hp]
    cases if low ≤ c.pos then p.hitAt? c else none <;> rfl
  | cons x xs ih =>
    simp only [Text.asciiLower_cons, hitsFrom, hitBehind_lowered hp, Cursor.pass_lowered]
    cases if low ≤ c.pos then p.hitAt? c else none with
    | none => exact ih low (c.pass x xs)
    | some h => exact congrArg (h.lowered :: ·) (ih h.span.stop (c.pass x xs))

theorem hits_lowered (hp : p.Caseless) (cs : List Char) : p.hits (asciiLower cs) = (p.hits cs).map Hit.lowered :=
  hitsFrom_lowered hp 0 (.ofText cs) cs

@[simp] theorem Hit.span_lowered (h : Hit) : h.lowered.span = h.span := rfl
@[simp] theorem Hit.text_lowered (h : Hit) : h.lowered.text = asciiLower h.text := rfl

@[simp] theorem Hit.text?_lowered (h : Hit) (n : Nat) : h.lowered.text? n = (h.text? n).map asciiLower := by
  have hlookup (g : Captures) : (Captures.lowered g).lookup n = (g.lookup n).map Capture.lowered := by
    induction g with
    | nil => rfl
    | cons e g ih =>
      obtain ⟨m, c⟩ := e
      simp only [Captures.lowered, List.map_cons, List.lookup_cons] at ih ⊢
      cases n == m with
      | true => rfl
      | false => exact ih
  simp only [text?, capture?, lowered, hlookup, Option.map_map]
  rfl

/-- The words of a group, none if it took no part. -/
@[simp] theorem Hit.getD_text?_lowered (h : Hit) (n : Nat) :
    (h.lowered.text? n).getD [] = asciiLower ((h.text? n).getD []) := by
  rw [Hit.text?_lowered]
  cases h.text? n <;> rfl

/-! ### Caseless patterns -/

theorem caseless_sameLetter (l : Char) : Text.Caseless (sameLetter l) := by
  intro c
  by_cases hc : c.toNat < 128
  · have hlow := Text.ascii_toLower hc
    have hlong : c.toNat ≠ 0x17f ∧ c.toLower.toNat ≠ 0x17f := by omega
    have hkelvin : c.toNat ≠ 0x212a ∧ c.toLower.toNat ≠ 0x212a := by omega
    simp [sameLetter, hlong, hkelvin]
  · rw [Text.toLower_of_not_ascii (by omega)]

@[simp] theorem caseless_seq {ps : List Pattern} : (seq ps).Caseless ↔ ∀ p ∈ ps, p.Caseless := by
  induction ps with
  | nil => simp [seq, Caseless]
  | cons p ps ih =>
    cases ps with
    | nil => simp [seq]
    | cons q qs =>
      change p.Caseless ∧ (seq (q :: qs)).Caseless ↔ _
      rw [ih]
      exact List.forall_mem_cons.symm

@[simp] theorem caseless_oneOf {ps : List Pattern} : (oneOf ps).Caseless ↔ ∀ p ∈ ps, p.Caseless := by
  induction ps with
  | nil => simp [oneOf, Caseless, Text.Caseless]
  | cons p ps ih =>
    cases ps with
    | nil => simp [oneOf]
    | cons q qs =>
      change p.Caseless ∧ (oneOf (q :: qs)).Caseless ↔ _
      rw [ih]
      exact List.forall_mem_cons.symm

@[simp] theorem caseless_both {a b : Pattern} : (both a b).Caseless ↔ a.Caseless ∧ b.Caseless := Iff.rfl
@[simp] theorem caseless_group {n : Nat} {a : Pattern} : (group n a).Caseless ↔ a.Caseless := Iff.rfl
@[simp] theorem caseless_start : start.Caseless := trivial
@[simp] theorem caseless_edge : edge.Caseless := trivial
@[simp] theorem caseless_one {q : Char → Bool} : (one q).Caseless ↔ Text.Caseless q := Iff.rfl
@[simp] theorem caseless_many {q : Char → Bool} : (many q).Caseless ↔ Text.Caseless q := Iff.rfl
@[simp] theorem caseless_optional {a : Pattern} : (optional a).Caseless ↔ a.Caseless :=
  iff_of_eq (and_true _)

@[simp] theorem caseless_gap : gap.Caseless := ⟨Text.caseless_isBlank, Text.caseless_isBlank⟩
@[simp] theorem caseless_maybeGap : maybeGap.Caseless := Text.caseless_isBlank
@[simp] theorem caseless_blank : blank.Caseless := Text.caseless_isBlank
@[simp] theorem caseless_digits : digits.Caseless := ⟨Text.caseless_isDigit, Text.caseless_isDigit⟩
@[simp] theorem caseless_name : name.Caseless := ⟨isNameStart_toLower, isNameChar_toLower⟩

theorem caseless_char {c : Char} (hc : c.isAlpha = false) : (char c).Caseless :=
  fun d => by simp only [Text.toLower_eq_iff hc]

@[simp] theorem caseless_word (w : String) : (word w).Caseless := by
  simp [word, caseless_sameLetter]

@[simp] theorem caseless_phrase (w : String) : (phrase w).Caseless := by
  refine caseless_seq.mpr fun p hp => ?_
  rcases eq_or_mem_of_mem_intersperse hp with rfl | hp
  · exact caseless_gap
  · obtain ⟨l, -, rfl⟩ := List.mem_map.mp hp
    exact caseless_word _

@[simp] theorem caseless_phrases (ws : List String) : (phrases ws).Caseless := by
  simp [phrases]

@[simp] theorem caseless_lead (ws : List String) : (lead ws).Caseless := by
  simp [lead]

/-! ### Names in lower case -/

theorem toLower_of_lowerChar {c d : Char} (hc : isNameChar c = true) (h : Text.lowerChar c = [d]) :
    d.toLower = d := by
  rcases isNameChar_cases hc with hascii | rfl | rfl
  · simp only [Text.lowerChar, hascii, if_true, List.singleton_inj] at h
    rw [← h, Text.toLower_toLower]
  · have hsame : Text.lowerChar (Char.ofNat 0x17f) = [Char.ofNat 0x17f] := by decide
    rw [hsame, List.singleton_inj] at h
    rw [← h]
    decide
  · have hk : Text.lowerChar (Char.ofNat 0x212a) = ['k'] := by decide
    rw [hk, List.singleton_inj] at h
    rw [← h]
    decide

/-- Nothing is left to lower in a name that is in lower case. -/
theorem IsName.asciiLower_lower {w : List Char} (h : IsName w) : asciiLower (Text.lower w) = Text.lower w := by
  suffices ∀ (cs before : List Char), (∀ c ∈ cs, Pattern.isNameChar c = true) →
      asciiLower (Text.lowerAfter before cs) = Text.lowerAfter before cs from this w [] h.isNameChar
  intro cs
  induction cs with
  | nil => exact fun before _ => rfl
  | cons c cs ih =>
    intro before hall
    have hc := hall c List.mem_cons_self
    obtain ⟨d, hd, -, -⟩ := lowerChar_of_isNameChar hc
    rw [Text.lowerAfter, if_neg (ne_capitalSigma hc), hd, List.singleton_append, Text.asciiLower_cons,
      toLower_of_lowerChar hc hd, ih _ fun x hx => hall x (List.mem_cons_of_mem c hx)]

end Pattern

end Parlance
