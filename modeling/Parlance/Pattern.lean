import Parlance.Text.Basic

/-! A pattern is tried at a place in a text and finds its ends in order of preference: an
earlier alternative before a later one, a longer run before a shorter one. `ends` lists them
all; `run` visits the same list and stops at the first that its continuation accepts.
Repetition is of single characters only, so matching recurses on the pattern and on the text
and needs no bound on its steps. -/

namespace Parlance

open Text (Span)

inductive Pattern
  | empty
  | one (p : Char → Bool)
  | many (p : Char → Bool)
  | both (a b : Pattern)
  | either (a b : Pattern)
  | group (n : Nat) (a : Pattern)
  | start
  | edge

/-- A place between two characters. -/
structure Cursor where
  before : Option Char
  pos : Nat
  rest : List Char

def Cursor.ofText (cs : List Char) : Cursor := ⟨none, 0, cs⟩

def Cursor.pass (c : Cursor) (x : Char) (xs : List Char) : Cursor := ⟨some x, c.pos + x.utf8Size, xs⟩

/-- Exactly one neighbour is a word character. -/
def Cursor.atEdge (c : Cursor) : Bool := Text.isWordAt c.before != Text.isWordAt c.rest.head?

structure Capture where
  span : Span
  text : List Char

def Cursor.captureTo (c d : Cursor) : Capture :=
  ⟨⟨c.pos, d.pos⟩, c.rest.take (c.rest.length - d.rest.length)⟩

/-- The latest capture of a group comes first. -/
abbrev Captures := List (Nat × Capture)

/-- The places after each run of `p`, the longest run first. -/
def runEnds (p : Char → Bool) (c : Cursor) : List Cursor :=
  go c c.rest
where
  go (c : Cursor) : List Char → List Cursor
    | [] => [c]
    | x :: xs => if p x then go (c.pass x xs) xs ++ [c] else [c]

namespace Pattern

def ends : Pattern → Cursor → Captures → List (Cursor × Captures)
  | empty, c, g => [(c, g)]
  | one p, c, g =>
    match c.rest with
    | [] => []
    | x :: xs => if p x then [(c.pass x xs, g)] else []
  | many p, c, g => (runEnds p c).map (·, g)
  | both a b, c, g => (a.ends c g).flatMap fun e => b.ends e.1 e.2
  | either a b, c, g => a.ends c g ++ b.ends c g
  | group n a, c, g => (a.ends c g).map fun e => (e.1, (n, c.captureTo e.1) :: e.2)
  | start, c, g => if c.pos = 0 then [(c, g)] else []
  | edge, c, g => if c.atEdge then [(c, g)] else []

/-- The longest run of `p` whose end satisfies the continuation. -/
def runMany {α : Type} (p : Char → Bool) (k : Cursor → Option α) (c : Cursor) :
    List Char → Option α
  | [] => k c
  | x :: xs =>
    if p x then
      match runMany p k (c.pass x xs) xs with
      | some r => some r
      | none => k c
    else k c

def run {α : Type} : Pattern → Cursor → Captures → (Cursor → Captures → Option α) → Option α
  | empty, c, g, k => k c g
  | one p, c, g, k =>
    match c.rest with
    | [] => none
    | x :: xs => if p x then k (c.pass x xs) g else none
  | many p, c, g, k => runMany p (k · g) c c.rest
  | both a b, c, g, k => a.run c g fun c g => b.run c g k
  | either a b, c, g, k =>
    match a.run c g k with
    | some r => some r
    | none => b.run c g k
  | group n a, c, g, k => a.run c g fun d g => k d ((n, c.captureTo d) :: g)
  | start, c, g, k => if c.pos = 0 then k c g else none
  | edge, c, g, k => if c.atEdge then k c g else none

theorem findSome?_flatMap {α β γ : Type} (l : List α) (f : α → List β) (k : β → Option γ) :
    (l.flatMap f).findSome? k = l.findSome? fun a => (f a).findSome? k := by
  induction l with
  | nil => rfl
  | cons a l ih =>
    simp only [List.flatMap_cons, List.findSome?_append, List.findSome?_cons, ih]
    cases (f a).findSome? k <;> rfl

theorem runMany_eq {α : Type} (p : Char → Bool) (k : Cursor → Option α) (c : Cursor)
    (xs : List Char) : runMany p k c xs = (runEnds.go p c xs).findSome? k := by
  induction xs generalizing c with
  | nil => simp [runMany, runEnds.go]
  | cons x xs ih =>
    by_cases h : p x = true
    · simp only [runMany, runEnds.go, h, ih, if_true, List.findSome?_append]
      cases (runEnds.go p (c.pass x xs) xs).findSome? k <;> simp
    · simp [runMany, runEnds.go, h]

/-- Running a pattern visits its ends in order. -/
theorem run_eq_findSome? {α : Type} (p : Pattern) (c : Cursor) (g : Captures)
    (k : Cursor → Captures → Option α) :
    p.run c g k = (p.ends c g).findSome? fun e => k e.1 e.2 := by
  induction p generalizing c g k with
  | empty => simp [run, ends]
  | one p =>
    simp only [run, ends]
    split
    · rfl
    · split <;> simp
  | many p => simp [run, ends, runEnds, runMany_eq, List.findSome?_map, Function.comp_def]
  | both a b iha ihb =>
    simp only [run, ends, iha, ihb, findSome?_flatMap]
  | either a b iha ihb =>
    simp only [run, ends, iha, ihb, List.findSome?_append]
    cases (a.ends c g).findSome? fun e => k e.1 e.2 <;> simp
  | group n a ih => simp [run, ends, ih, List.findSome?_map, Function.comp_def]
  | start => simp only [run, ends]; split <;> simp
  | edge => simp only [run, ends]; split <;> simp

/-- A place where a pattern begins and its preferred end. -/
structure Hit where
  span : Span
  text : List Char
  captures : Captures

def Hit.capture? (h : Hit) (n : Nat) : Option Capture := h.captures.lookup n

/-- The text of a group, empty if the group took no part. -/
def Hit.text? (h : Hit) (n : Nat) : Option (List Char) := (h.capture? n).map (·.text)

def hitAt? (p : Pattern) (c : Cursor) : Option Hit :=
  p.run c [] fun d g => let whole := c.captureTo d; some ⟨whole.span, whole.text, g⟩

/-- The first hit that begins at byte `low` or later. -/
def findFrom? (p : Pattern) (low : Nat) (c : Cursor) : List Char → Option Hit
  | [] => if low ≤ c.pos then p.hitAt? c else none
  | x :: xs =>
    match if low ≤ c.pos then p.hitAt? c else none with
    | some h => some h
    | none => findFrom? p low (c.pass x xs) xs

def find? (p : Pattern) (cs : List Char) : Option Hit := p.findFrom? 0 (.ofText cs) cs

/-- The text before byte `low` is seen by anchors and edges only. -/
def findAfter? (p : Pattern) (low : Nat) (cs : List Char) : Option Hit :=
  p.findFrom? low (.ofText cs) cs

def holds (p : Pattern) (cs : List Char) : Bool := (p.find? cs).isSome

/-- Hits from left to right; each begins where the one before it ends, or later. -/
def hitsFrom (p : Pattern) (low : Nat) (c : Cursor) : List Char → List Hit
  | [] => (if low ≤ c.pos then p.hitAt? c else none).toList
  | x :: xs =>
    match if low ≤ c.pos then p.hitAt? c else none with
    -- An empty hit does not hold the scan up, since the cursor moves on.
    | some h => h :: hitsFrom p h.span.stop (c.pass x xs) xs
    | none => hitsFrom p low (c.pass x xs) xs

def hits (p : Pattern) (cs : List Char) : List Hit := p.hitsFrom 0 (.ofText cs) cs

def groupCount : Pattern → Nat
  | both a b | either a b => max a.groupCount b.groupCount
  | group n a => max n a.groupCount
  | empty | one _ | many _ | start | edge => 0

/-! Building blocks. Letters are matched whatever their case; the long s and the kelvin sign
fold to the letters they resemble. -/

def sameLetter (l c : Char) : Bool :=
  c.toLower = l.toLower || (l.toLower = 's' && c.toNat = 0x17f) || (l.toLower = 'k' && c.toNat = 0x212a)

def seq : List Pattern → Pattern
  | [] => empty
  | [p] => p
  | p :: ps => both p (seq ps)

def oneOf : List Pattern → Pattern
  | [] => one fun _ => false
  | [p] => p
  | p :: ps => either p (oneOf ps)

def optional (p : Pattern) : Pattern := either p empty

def char (c : Char) : Pattern := one (· = c)
def some1 (p : Char → Bool) : Pattern := both (one p) (many p)

def gap : Pattern := some1 Text.isBlank
def maybeGap : Pattern := many Text.isBlank
def blank : Pattern := one Text.isBlank

def word (w : String) : Pattern := seq (w.toList.map fun l => one (sameLetter l))

/-- Words with gaps where the given text has spaces. -/
def phrase (w : String) : Pattern :=
  seq ((Text.pieces (· = ' ') w.toList).map (fun l => word (String.ofList l)) |>.intersperse gap)

def phrases (ws : List String) : Pattern := oneOf (ws.map phrase)

/-- Words to pass over if they are there, with the gap behind them. -/
def lead (ws : List String) : Pattern := optional (both (phrases ws) gap)

def isNameStart (c : Char) : Bool := c.isAlpha || c = '_' || c.toNat = 0x17f || c.toNat = 0x212a
def isNameChar (c : Char) : Bool := isNameStart c || Text.isAsciiDigit c

def name : Pattern := both (one isNameStart) (many isNameChar)
def digits : Pattern := some1 Text.isDigit

end Pattern

end Parlance
