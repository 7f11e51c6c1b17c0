import Parlance.Text.Blank
import Parlance.Text.Case
import Parlance.Text.Digit
import Parlance.Text.Word

/-! Operations on texts as lists of characters. Offsets count bytes of UTF-8, so that the
position of a character is the size of what stands before it. Cutting at an offset and
joining the parts gives the text back. -/

namespace Parlance.Text

/-- Size in bytes of UTF-8. -/
def size : List Char → Nat
  | [] => 0
  | c :: cs => c.utf8Size + size cs

/-- What begins at byte `n` or later. -/
def dropTo : Nat → List Char → List Char
  | _, [] => []
  | 0, cs => cs
  | n, c :: cs => dropTo (n - c.utf8Size) cs

/-- What begins before byte `n`. -/
def takeTo : Nat → List Char → List Char
  | _, [] => []
  | 0, _ => []
  | n, c :: cs => c :: takeTo (n - c.utf8Size) cs

/-- A half-open range of byte offsets. -/
structure Span where
  start : Nat
  stop : Nat
  deriving DecidableEq, Repr

def Span.shift (n : Nat) (s : Span) : Span := ⟨n + s.start, n + s.stop⟩

def slice (s : Span) (cs : List Char) : List Char := takeTo (s.stop - s.start) (dropTo s.start cs)

/-- One space for every byte of the span. -/
def blankOut (s : Span) (cs : List Char) : List Char :=
  takeTo s.start cs ++ List.replicate (s.stop - s.start) ' ' ++ dropTo s.stop cs

def trimStart (cs : List Char) : List Char := cs.dropWhile isBlank
def dropEndWhile (p : Char → Bool) (cs : List Char) : List Char := (cs.reverse.dropWhile p).reverse
def trimEnd (cs : List Char) : List Char := dropEndWhile isBlank cs
def trim (cs : List Char) : List Char := trimEnd (trimStart cs)

/-- The pieces between separators; there is one more piece than there are separators. -/
def pieces (sep : Char → Bool) : List Char → List (List Char)
  | [] => [[]]
  | c :: cs =>
    match pieces sep cs with
    | [] => [[]]
    | p :: ps => if sep c then [] :: p :: ps else (c :: p) :: ps

/-- The runs of characters that are not blank. -/
def words (cs : List Char) : List (List Char) := (pieces isBlank cs).filter (!·.isEmpty)

/-- Every blank run becomes one space. -/
def squeeze : List Char → List Char
  | [] => []
  | c :: cs =>
    if isBlank c then
      match cs with
      | d :: _ => if isBlank d then squeeze cs else ' ' :: squeeze cs
      | [] => [' ']
    else c :: squeeze cs

def substitute (c : Char) (w : List Char) (cs : List Char) : List Char :=
  cs.flatMap fun d => if d = c then w else [d]

def contains (w : List Char) : List Char → Bool
  | [] => w.isEmpty
  | c :: cs => w.isPrefixOf (c :: cs) || contains w cs

/-- What is left after a leading `w`. -/
def withoutStart? (w cs : List Char) : Option (List Char) :=
  if w.isPrefixOf cs then some (cs.drop w.length) else none

def withoutEnd? (w cs : List Char) : Option (List Char) :=
  if w.isSuffixOf cs then some (cs.take (cs.length - w.length)) else none

theorem size_append (a b : List Char) : size (a ++ b) = size a + size b := by
  induction a with
  | nil => simp [size]
  | cons c a ih => simp [size, ih, Nat.add_assoc]

theorem size_spaces (n : Nat) : size (List.replicate n ' ') = n := by
  induction n with
  | zero => rfl
  | succ n ih =>
    have : (' ' : Char).utf8Size = 1 := by decide
    simp [List.replicate_succ, size, ih, this, Nat.add_comm]

@[simp] theorem takeTo_zero (cs : List Char) : takeTo 0 cs = [] := by cases cs <;> rfl
@[simp] theorem dropTo_zero (cs : List Char) : dropTo 0 cs = cs := by cases cs <;> rfl

theorem takeTo_append_dropTo (n : Nat) (cs : List Char) : takeTo n cs ++ dropTo n cs = cs := by
  induction cs generalizing n with
  | nil => cases n <;> rfl
  | cons c cs ih => cases n <;> simp [takeTo, dropTo, ih]

theorem takeTo_size_append (a b : List Char) : takeTo (size a) (a ++ b) = a := by
  induction a with
  | nil => simp [size]
  | cons c a ih =>
    have hp := c.utf8Size_pos
    obtain ⟨k, hk⟩ : ∃ k, size (c :: a) = k + 1 := ⟨size (c :: a) - 1, by simp [size]; omega⟩
    have hs : k + 1 - c.utf8Size = size a := by simp [size] at hk; omega
    rw [hk, List.cons_append, takeTo, hs, ih]
    simp

theorem dropTo_size_append (a b : List Char) : dropTo (size a) (a ++ b) = b := by
  have h := takeTo_append_dropTo (size a) (a ++ b)
  rw [takeTo_size_append] at h
  exact List.append_cancel_left h

end Parlance.Text
