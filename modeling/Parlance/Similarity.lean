import Parlance.Text.Basic

/-! Similarity of two words by the letters they share. Letters match if they are equal and
not too far apart; the score counts the matches and how many of them are out of order, and
is raised for a common beginning. It lies between zero and one. -/

namespace Parlance.Similarity

/-- Takes the first free letter equal to `c` at a place from `low` on and before `high`. -/
def takeLetter (c : Char) (low high : Nat) : Nat → List (Char × Bool) → Option (List (Char × Bool))
  | _, [] => none
  | i, (d, taken) :: ds =>
    if high ≤ i then none
    else if low ≤ i && d = c && !taken then some ((d, true) :: ds)
    else (takeLetter c low high (i + 1) ds).map ((d, taken) :: ·)

/-- The letters of the first word that match, and the second word with its matches marked. -/
def matchLetters (range : Nat) : Nat → List Char → List (Char × Bool) → List Char × List (Char × Bool)
  | _, [], b => ([], b)
  | i, c :: cs, b =>
    match takeLetter c (i - range) (i + range + 1) 0 b with
    | some b => let (matched, b) := matchLetters range (i + 1) cs b; (c :: matched, b)
    | none => matchLetters range (i + 1) cs b

def differences (a b : List Char) : Nat := ((a.zip b).filter fun p => p.1 ≠ p.2).length

def jaro (a b : List Char) : Float :=
  if a.isEmpty && b.isEmpty then 1
  else if a.isEmpty || b.isEmpty then 0
  else
    let range := max a.length b.length / 2 - 1
    let (matched, marked) := matchLetters range 0 a (b.map (·, false))
    let other := (marked.filter (·.2)).map (·.1)
    let swaps := differences matched other / 2
    let m := matched.length.toFloat
    if matched.isEmpty then 0
    else (m / a.length.toFloat + m / b.length.toFloat + (matched.length - swaps).toFloat / m) / 3

def commonStart : List Char → List Char → Nat
  | a :: as, b :: bs => if a = b then commonStart as bs + 1 else 0
  | _, _ => 0

/-- At most four letters of a common beginning count. -/
def score (a b : List Char) : Float :=
  let s := jaro a b
  if 0.7 < s then s + 0.1 * (min 4 (commonStart a b)).toFloat * (1 - s) else s

/-- The last of the best candidates whose score reaches the threshold. -/
def closest? (threshold : Float) (w : List Char) (candidates : List String) : Option String :=
  (candidates.foldl (fun (best : Option (String × Float)) name =>
    let s := score w (Text.lower name.toList)
    if s < threshold then best
    else match best with
      | some (b, t) => if s < t then some (b, t) else some (name, s)
      | none => some (name, s)) none).map (·.1)

end Parlance.Similarity
