import Parlance.Interpretation.Table
import Parlance.Proofs.Guarded.Basic
import Parlance.Proofs.Pattern.Place
import Parlance.Proofs.Text.Ending

/-! The table of a request, with a guard at every cut. Plurals and singulars are cut by bytes at the end of a
word, which for every word is where a character ends. -/

namespace Parlance.Guarded

open Text (Span size isBoundary dropTo takeTo lower isPlain)
open Inflection (addForm endsIn endsInAny vowelBeforeLast dropLast)
open Interpretation (Mention TableMatch prepositionMentions wordMentions unknownMatch)

/-! ### Plural and singular -/

def shorten (n : Nat) (w : List Char) : Except Fault (List Char) :=
  if n ≤ size w then front (size w - n) w else .error (.offset n)

def pluralize (w : List Char) : Except Fault (List Char) :=
  let l := lower w
  if endsIn "y" l && !vowelBeforeLast l then (shorten 1 w).map (· ++ "ies".toList)
  else if endsInAny ["s", "x", "z", "ch", "sh"] l then .ok (w ++ "es".toList)
  else .ok (w ++ "s".toList)

def singularize (w : List Char) : Except Fault (List Char) :=
  let l := lower w
  if endsIn "ies" l && 3 < size w then (shorten 3 w).map (· ++ "y".toList)
  else if endsInAny ["ses", "xes", "zes", "ches", "shes"] l then shorten 2 w
  else if endsIn "s" l && !endsIn "ss" l && 1 < size w then shorten 1 w
  else .ok w

def candidates (w : List Char) : Except Fault (List (List Char)) := do
  let plural ← pluralize w
  let singular ← singularize w
  .ok ([plural, singular].foldl addForm [w])

variable {w t : List Char}

/-- Letters that the word ends in can be cut off, each as one byte. -/
theorem shorten_of_suffix (ht : ∀ d ∈ t, isPlain d = true) (h : t <:+ lower w) :
    shorten t.length w = .ok (dropLast t.length w) := by
  obtain ⟨v, z, rfl, hlength, hsize⟩ := Text.exists_ending ht h
  have hcut : size (v ++ z) - t.length = size v := by
    rw [Text.size_append, hsize, Nat.add_sub_cancel]
  have hle : t.length ≤ size (v ++ z) := by
    rw [Text.size_append, hsize]
    exact Nat.le_add_left _ _
  have htake : dropLast t.length (v ++ z) = v := by
    rw [dropLast, List.length_append, hlength, Nat.add_sub_cancel, List.take_left]
  rw [shorten, if_pos hle, front, hcut, if_pos (Text.isBoundary_size_append v z), Text.takeTo_size_append, htake]

theorem shorten_of_endsIn {suffix : String} (hs : ∀ d ∈ suffix.toList, isPlain d = true)
    (h : endsIn suffix (lower w) = true) : shorten suffix.toList.length w = .ok (dropLast suffix.toList.length w) :=
  shorten_of_suffix hs (List.isSuffixOf_iff_suffix.mp h)

theorem pluralize_eq (w : List Char) : pluralize w = .ok (Inflection.pluralize w) := by
  simp only [pluralize, Inflection.pluralize]
  split
  · next h =>
    have hy : endsIn "y" (lower w) = true := ((Bool.and_eq_true ..).mp h).1
    have hcut : shorten 1 w = .ok (dropLast 1 w) := shorten_of_endsIn (by decide) hy
    rw [hcut]
    rfl
  · split <;> rfl

theorem singularize_eq (w : List Char) : singularize w = .ok (Inflection.singularize w) := by
  simp only [singularize, Inflection.singularize]
  split
  · next h =>
    have hies : endsIn "ies" (lower w) = true := ((Bool.and_eq_true ..).mp h).1
    have hcut : shorten 3 w = .ok (dropLast 3 w) := shorten_of_endsIn (by decide) hies
    rw [hcut]
    rfl
  · split
    · next h =>
      have hes : ∀ suffix ∈ ["ses", "xes", "zes", "ches", "shes"], "es".toList <:+ suffix.toList := by decide
      obtain ⟨suffix, hmem, hs⟩ := List.any_eq_true.mp h
      have hsuffix := (hes suffix hmem).trans (List.isSuffixOf_iff_suffix.mp hs)
      exact shorten_of_suffix (t := "es".toList) (by decide) hsuffix
    · split
      · next h =>
        have hs : endsIn "s" (lower w) = true := by
          simp only [Bool.and_eq_true] at h
          exact h.1.1
        exact shorten_of_endsIn (by decide) hs
      · rfl

theorem candidates_eq (w : List Char) : candidates w = .ok (Inflection.candidates w) := by
  simp only [candidates, pluralize_eq, singularize_eq]
  rfl

/-! ### Tables -/

def lookupTable? (s : Schema) (w : List Char) : Except Fault (Option String) :=
  (candidates (lower w)).map fun forms => forms.findSome? fun form => (s.find? form).map (·.name)

def knownMatch? (s : Schema) : List Mention → Except Fault (Option TableMatch)
  | [] => .ok none
  | m :: ms => do
    match ← lookupTable? s m.word with
    | some name => .ok (some ⟨name, true, m.span⟩)
    | none => knownMatch? s ms

def verbMention (verbEnd : Nat) : Guarded (List Mention) :=
  if verbEnd = 0 then pure []
  else do
    let rest ← after verbEnd
    pure (((wordMentions rest).take 1).map fun m => ⟨m.word, m.span.shift verbEnd⟩)

def resolveTable? (verbEnd : Nat) (s : Schema) : Guarded (Option TableMatch) := do
  let cs ← read
  let behind ← verbMention verbEnd
  let mentions := prepositionMentions cs ++ behind
  match ← check (knownMatch? s mentions) with
  | some m => pure (some m)
  | none =>
    match ← check (knownMatch? s (wordMentions cs)) with
    | some m => pure (some m)
    | none => pure (mentions.head?.map unknownMatch)

variable {schema : Schema} {verbEnd : Nat} {d : Sheet}

theorem knownMatch?_eq (ms : List Mention) : knownMatch? schema ms = .ok (Interpretation.knownMatch? schema ms) := by
  induction ms with
  | nil => rfl
  | cons m ms ih =>
    have hlookup : lookupTable? schema m.word = .ok (Interpretation.lookupTable? schema m.word) := by
      rw [lookupTable?, candidates_eq]
      rfl
    rw [knownMatch?, hlookup, Interpretation.knownMatch?, List.findSome?_cons]
    cases Interpretation.lookupTable? schema m.word with
    | some name => rfl
    | none => exact ih

theorem reads_verbMention (h : isBoundary verbEnd d.text = true) :
    Reads (verbMention verbEnd) d kept (.ok (Interpretation.verbMention verbEnd d.text, ⟨d.text⟩)) := by
  rw [verbMention, Interpretation.verbMention]
  split
  · exact .pure
  · exact .after_bind h .pure

theorem reads_resolveTable? (h : isBoundary verbEnd d.text = true) : Reads (resolveTable? verbEnd schema) d kept
    (.ok (Interpretation.resolveTable? ⟨d.text⟩ verbEnd schema, ⟨d.text⟩)) := by
  refine .read_bind (.bind_ok (reads_verbMention h) fun d' _ htext => .check_bind (knownMatch?_eq _) ?_)
  rw [← htext, Interpretation.resolveTable?, Interpretation.tableMentions]
  cases Interpretation.knownMatch? schema (prepositionMentions d'.text ++ Interpretation.verbMention verbEnd d'.text) with
  | some m => exact .pure
  | none =>
    refine .check_bind (knownMatch?_eq _) ?_
    cases Interpretation.knownMatch? schema (wordMentions d'.text) with
    | some m => exact .pure
    | none => exact .pure

/-! ### Where a table is mentioned -/

variable {cs : List Char} {ms : List Mention} {x : Mention} {m : TableMatch}

theorem fits_of_mem_wordMentions (hx : x ∈ wordMentions cs) : x.span.Fits cs := by
  obtain ⟨hit, hhit, rfl⟩ := List.mem_map.mp hx
  exact Pattern.fits_of_mem_hits (List.mem_filter.mp hhit).1

theorem fits_of_mem_prepositionMentions (hx : x ∈ prepositionMentions cs) : x.span.Fits cs := by
  obtain ⟨hit, hhit, hx⟩ := List.mem_filterMap.mp hx
  have hfits := Pattern.fits_of_mem_hits hhit
  split at hx
  · split at hx
    · cases hx
    · cases hx
      exact hfits
  · cases hx

theorem fits_of_mem_tableMentions (h : isBoundary verbEnd cs = true)
    (hx : x ∈ Interpretation.tableMentions verbEnd cs) : x.span.Fits cs := by
  rcases List.mem_append.mp hx with hx | hx
  · exact fits_of_mem_prepositionMentions hx
  · rw [Interpretation.verbMention] at hx
    split at hx
    · cases hx
    · obtain ⟨y, hy, rfl⟩ := List.mem_map.mp hx
      exact (fits_of_mem_wordMentions (List.mem_of_mem_take hy)).shift h

theorem fits_of_knownMatch? (hms : ∀ x ∈ ms, x.span.Fits cs) (hm : Interpretation.knownMatch? schema ms = some m) :
    m.span.Fits cs := by
  obtain ⟨x, hx, hm⟩ := List.exists_of_findSome?_eq_some hm
  obtain ⟨name, -, rfl⟩ := Option.map_eq_some_iff.mp hm
  exact hms x hx

theorem fits_of_resolveTable? (h : isBoundary verbEnd cs = true)
    (hm : Interpretation.resolveTable? ⟨cs⟩ verbEnd schema = some m) : m.span.Fits cs := by
  simp only [Interpretation.resolveTable?] at hm
  split at hm
  · next hknown =>
    cases hm
    exact fits_of_knownMatch? (fun x hx => fits_of_mem_tableMentions h hx) hknown
  · split at hm
    · next hknown =>
      cases hm
      exact fits_of_knownMatch? (fun x hx => fits_of_mem_wordMentions hx) hknown
    · obtain ⟨x, hx, rfl⟩ := Option.map_eq_some_iff.mp hm
      exact fits_of_mem_tableMentions h (List.mem_of_mem_head? hx)

end Parlance.Guarded
