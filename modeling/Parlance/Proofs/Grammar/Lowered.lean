import Parlance.Grammar.Assignment
import Parlance.Grammar.Clause
import Parlance.Grammar.Filler
import Parlance.Grammar.Time
import Parlance.Grammar.Verb
import Parlance.Proofs.Pattern.Lowered

/-! The grammar does not look at the case of letters: every pattern of it is caseless, and so are its
lists of words. -/

namespace Parlance.Grammar

open Pattern
open Text (asciiLower toLower_eq_iff)

@[simp] theorem isOneOf_lowered (ws : List String) (w : List Char) :
    isOneOf ws (asciiLower w) = isOneOf ws w := by
  simp only [isOneOf, Text.sameWord_asciiLower_right]

@[simp] theorem isFiller_lowered (w : List Char) : isFiller (asciiLower w) = isFiller w :=
  isOneOf_lowered fillerWords w

/-! ### Verbs and windows -/

theorem caseless_opening {v : Verb} (hv : v ∈ verbs) : v.opening.Caseless := by
  revert v
  simp [verbs, opens, countOpening]

theorem detect?_lowered (cs : List Char) : detect? (asciiLower cs) = detect? cs := by
  have hmap (cs : List Char) : detect? cs = (verbs.map fun v =>
      (v.opening.find? cs).map fun h => (v.operation, h.span.stop)).findSome? id := by
    rw [List.findSome?_map]
    rfl
  rw [hmap, hmap, List.map_congr_left fun v hv => ?_]
  rw [find?_lowered (caseless_opening hv), Option.map_map]
  rfl

theorem TimePhrase.caseless (p : TimePhrase) : p.pattern.Caseless := by
  cases p <;> simp [pattern, timePhrase, timeLead, maybePlural]

/-! ### Conditions and assignments -/

@[simp] theorem caseless_columnName : columnName.Caseless := by simp [columnName]

theorem caseless_notQuote {q : Char} (hq : q.isAlpha = false) : Text.Caseless (notQuote q) := fun c => by
  simp only [notQuote, ne_eq, toLower_eq_iff hq]

theorem caseless_isBare : Text.Caseless isBare := fun c => by
  simp only [isBare, Text.caseless_isBlank c, ne_eq, toLower_eq_iff (c := ',') rfl]

@[simp] theorem caseless_valueToken : valueToken.Caseless := by
  have hquoted {q : Char} (hq : q.isAlpha = false) : (seq [char q, many (notQuote q), char q]).Caseless := by
    simp [caseless_char hq, caseless_notQuote hq]
  have hbare : (some1 isBare).Caseless := ⟨caseless_isBare, caseless_isBare⟩
  simp [valueToken, hquoted (q := '\'') rfl, hquoted (q := '"') rfl, hbare]

@[simp] theorem caseless_value : value.Caseless := caseless_valueToken

theorem caseless_symbol {s : String} (h : ∀ c ∈ s.toList, c.isAlpha = false) : (symbol s).Caseless := by
  refine caseless_seq.mpr fun p hp => ?_
  obtain ⟨c, hc, rfl⟩ := List.mem_map.mp hp
  exact caseless_char (h c hc)

@[simp] theorem caseless_spaced (ws : List String) : (spaced ws).Caseless := by simp [spaced]

@[simp] theorem caseless_nullForm (ws : List String) : (nullForm ws).Caseless := by simp [nullForm]

theorem caseless_of_mem_conditionForms {f : ConditionForm × Pattern} (hf : f ∈ conditionForms) :
    f.2.Caseless := by
  revert f
  have hsymbols : ∀ s ∈ ["!=", "<>", ">=", "<=", ">", "<", "==", "="], (symbol s).Caseless :=
    fun s hs => caseless_symbol (by revert s; decide)
  simp only [List.forall_mem_cons] at hsymbols
  simp [conditionForms, operatorForm, hsymbols]

theorem caseless_conditionCue : conditionCue.Caseless := by simp [conditionCue]
theorem caseless_connective : connective.Caseless := by simp [connective]
theorem caseless_assignment : assignment.Caseless := by
  have hsign : Text.Caseless isAssignSign := fun c => by
    simp only [isAssignSign, toLower_eq_iff (c := '=') rfl, toLower_eq_iff (c := ':') rfl]
  simp [assignment, hsign]

theorem caseless_assignmentSeparator : assignmentSeparator.Caseless := by
  simp [assignmentSeparator, caseless_char (c := ',') rfl]

theorem caseless_valuesCue : valuesCue.Caseless := by simp [valuesCue]
theorem caseless_setCue : setCue.Caseless := by simp [setCue]
theorem caseless_named : named.Caseless := by simp [named]

/-! ### Tables and clauses -/

theorem caseless_tablePreposition : tablePreposition.Caseless := by simp [tablePreposition]
theorem caseless_nameWord : nameWord.Caseless := by simp [nameWord]

theorem caseless_idShorthand : idShorthand.Caseless := by
  simp [idShorthand, caseless_char (c := '#') rfl, caseless_char (c := '.') rfl]

theorem caseless_groupBy : groupBy.Caseless := by simp [groupBy]
theorem caseless_orderBy : orderBy.Caseless := by simp [orderBy]
theorem caseless_limit : limit.Caseless := by simp [limit]
theorem caseless_latest : latest.Caseless := by simp [latest]

end Parlance.Grammar
