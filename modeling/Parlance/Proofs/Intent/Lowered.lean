import Parlance.Error
import Parlance.Intent.Render
import Parlance.Interpretation
import Parlance.Proofs.Text.Lowered

/-! An intent in lower case: the texts of its literals and the patterns of LIKE are, and nothing else is
touched. In an error it is what the error quotes from the request. -/

namespace Parlance

open Text (asciiLower lowered)

def Literal.lowered : Literal → Literal
  | text content => text (Text.lowered content)
  | number digits => number digits
  | boolean value => boolean value

mutual

def Predicate.lowered : Predicate → Predicate
  | .compare column op value => .compare column op value.lowered
  | .like column mode pattern => .like column mode (Text.lowered pattern)
  | .isNull column negated => .isNull column negated
  | .recency column window => .recency column window
  | .group terms => .group (Filter.lowered terms)

def Filter.lowered : Filter → Filter
  | [] => []
  | (c, p) :: terms => (c, p.lowered) :: Filter.lowered terms

end

def ReadClauses.lowered (c : ReadClauses) : ReadClauses := { c with filter := Filter.lowered c.filter }

def Assignment.lowered (a : Assignment) : Assignment := ⟨a.column, a.value.lowered⟩

def Intent.lowered : Intent → Intent
  | select table columns clauses => select table columns clauses.lowered
  | count table clauses => count table clauses.lowered
  | insert table values => insert table (values.map Assignment.lowered)
  | update table assignments filter => update table (assignments.map Assignment.lowered) (Filter.lowered filter)
  | delete table filter => delete table (Filter.lowered filter)

def Error.lowered : Error → Error
  | unrecognizedIntent text => unrecognizedIntent (Text.lowered text)
  | unresolvedTable text => unresolvedTable (Text.lowered text)
  | unresolvedColumn table column => unresolvedColumn table (Text.lowered column)
  | e => e

namespace Filter

theorem lowered_eq_map (f : Filter) : Filter.lowered f = f.map fun t => (t.1, t.2.lowered) := by
  induction f with
  | nil => rfl
  | cons t f ih => simp [Filter.lowered, ih]

@[simp] theorem lowered_append (f g : Filter) :
    Filter.lowered (f ++ g) = Filter.lowered f ++ Filter.lowered g := by
  simp only [lowered_eq_map, List.map_append]

theorem lowered_flattened (f : Filter) : (Filter.lowered f).flattened = Filter.lowered f.flattened := by
  match f with
  | [] => rfl
  | [(_, p)] => cases p <;> rfl
  | _ :: _ :: _ => simp [flattened, Filter.lowered]

end Filter

@[simp] theorem Intent.hasPlaceholders_lowered (i : Intent) : i.lowered.hasPlaceholders = i.hasPlaceholders := by
  cases i <;> simp [lowered, hasPlaceholders]

/-! ### Values -/

namespace Literal

open Text (withoutStart? withoutEnd?)

theorem unquoted?_lowered {q : Char} (hq : q.isAlpha = false) (cs : List Char) :
    unquoted? q (asciiLower cs) = (unquoted? q cs).map asciiLower := by
  have hquote : ∀ c ∈ [q], c.isAlpha = false := by simpa using hq
  rw [unquoted?, unquoted?, Text.withoutStart?_asciiLower hquote]
  cases Text.withoutStart? [q] cs with
  | none => rfl
  | some inner => exact Text.withoutEnd?_asciiLower hquote inner

/-- The characters of plain numbers. -/
def isNumberChar (c : Char) : Bool := Text.isAsciiDigit c || c = '.' || c = '-'

theorem asciiLower_of_isNumberChar {cs : List Char} (h : cs.all isNumberChar = true) : asciiLower cs = cs := by
  refine Text.asciiLower_eq_self (p := isNumberChar) (fun c hc => ?_) (List.all_eq_true.mp h)
  simp only [isNumberChar, Bool.or_eq_true, decide_eq_true_eq] at hc
  rcases hc with (hc | rfl) | rfl
  · exact Text.toLower_of_isDigit (by simp [Text.isDigit, hc])
  · rfl
  · rfl

theorem isPlainNumber_lowered (cs : List Char) : isPlainNumber (asciiLower cs) = isPlainNumber cs := by
  have hplain (ds : List Char) : isPlainNumber ds = ((Number.readDecimal? ds).isSome && ds.all isNumberChar) :=
    rfl
  cases hall : cs.all isNumberChar with
  | true => rw [asciiLower_of_isNumberChar hall]
  | false =>
    have hclass : Text.Caseless isNumberChar := Text.caseless_of_ascii (by decide)
    rw [hplain, hplain, Text.all_asciiLower hclass, hall, Bool.and_false, Bool.and_false]

theorem ofText_lowered (raw : List Char) : ofText (asciiLower raw) = (ofText raw).lowered := by
  have hquotes (cs : List Char) : (unquoted? '\'' (asciiLower cs)).or (unquoted? '"' (asciiLower cs)) =
      ((unquoted? '\'' cs).or (unquoted? '"' cs)).map asciiLower := by
    rw [unquoted?_lowered rfl, unquoted?_lowered rfl, Option.map_or]
  simp only [ofText, Text.trim_asciiLower, hquotes, isPlainNumber_lowered, Text.lower_asciiLower]
  cases (unquoted? '\'' (Text.trim raw)).or (unquoted? '"' (Text.trim raw)) with
  | some inner => simp [lowered]
  | none =>
    cases hnumber : isPlainNumber (Text.trim raw) with
    | true =>
      have hall : (Text.trim raw).all isNumberChar = true := (Bool.and_eq_true_iff.mp hnumber).2
      simp [lowered, asciiLower_of_isNumberChar hall]
    | false =>
      simp only [Option.map_none, Bool.false_eq_true, if_false]
      split
      · rfl
      · split
        · rfl
        · simp [lowered]

end Literal

end Parlance
