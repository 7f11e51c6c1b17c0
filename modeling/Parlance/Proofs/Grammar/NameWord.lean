import Parlance.Grammar.Clause
import Parlance.Proofs.Pattern.Place

/-! The words of a text that can be names. Scanning finds every one of them, and nothing else. -/

namespace Parlance.Grammar

open Text (size isWord isWordAt)
open Pattern

variable {u w x cs : List Char}

/-- The name stands between `u` and `x` and is a word as a whole. -/
structure WholeName (u w x : List Char) : Prop where
  isName : IsName w
  start : isWordAt u.getLast? = false
  stop : isWordAt x.head? = false

theorem prefers_nameWord (h : WholeName u w x) : Prefers nameWord u w x [] := by
  have hedge : Prefers edge u [] (w ++ x) [] := by
    refine .edge ?_
    rw [Cursor.atEdge_before h.isName.ne_nil h.isName.isWord, h.start]
    rfl
  have hend : ∀ c ∈ x.head?, isNameChar c = false := by
    intro c hc
    have hx := h.stop
    rw [Option.mem_def.mp hc, isWordAt, Option.any_some] at hx
    rw [Bool.eq_false_iff]
    intro hname
    rw [isWord_of_isNameChar hname] at hx
    cases hx
  have hbehind : Prefers (seq [name, edge]) u w x [] :=
    (Prefers.name h.isName hend).both_nil (.edge_behind h.isName.ne_nil h.isName.isWord h.stop)
  exact Prefers.seq_nil hedge hbehind

theorem wholeName_of_matches (h : Matches nameWord u w x) : WholeName u w x := by
  cases h with
  | both hedge h =>
    cases hedge with
    | edge hu =>
      cases h with
      | @both _ _ _ w _ _ hname h =>
        cases h with
        | edge hx =>
          have hw := spells_name hname.spells
          rw [List.append_nil, Cursor.atEdge_before hw.ne_nil hw.isWord] at hu
          rw [List.append_nil, Cursor.atEdge_behind hw.ne_nil hw.isWord] at hx
          exact ⟨by simpa using hw, by simpa using hu, by simpa using hx⟩

/-- The hits are the names that are words as a whole, each where it stands. -/
theorem mem_hits_nameWord_iff {h : Hit} :
    h ∈ nameWord.hits cs ↔ ∃ u w x, cs = u ++ (w ++ x) ∧ WholeName u w x ∧ h = .behind u w [] := by
  constructor
  · intro hh
    obtain ⟨u, v, rfl, hit⟩ := exists_hitAt?_of_mem_hitsFrom (u := []) hh
    have hhere : (if 0 ≤ size ([] ++ u) then nameWord.hitAt? (.between ([] ++ u) v) else none) = some h := by
      rwa [if_pos (Nat.zero_le _)]
    obtain ⟨w, x, hf⟩ := hitAt?_eq_some hhere
    have hwhole := wholeName_of_matches hf.matched
    rw [List.append_nil, List.nil_append] at hwhole
    rw [List.nil_append, hf.text_eq, List.nil_append, (prefers_nameWord hwhole).hitAt?, Option.some.injEq] at hit
    exact ⟨u, w, x, by rw [hf.text_eq]; rfl, hwhole, hit.symm⟩
  · rintro ⟨u, w, x, rfl, hwhole, rfl⟩
    refine mem_hitsFrom (u := []) (Nat.zero_le _) (prefers_nameWord hwhole).hitAt? fun a d w' x' hu hd hm heq => ?_
    -- What begins before the name is a word of its own, which does not run into it.
    rcases List.append_eq_append_iff.mp heq with ⟨y, hy, -⟩ | ⟨y, hy, -⟩
    · exact ⟨y, hy⟩
    · cases y with
      | nil => exact ⟨[], by simpa using hy.symm⟩
      | cons c y =>
        have hword := (wholeName_of_matches hm).isName.isWord (d.getLast hd)
          (by rw [hy]; exact List.mem_append_left _ (List.getLast_mem hd))
        have hstart := hwhole.start
        rw [hu, List.getLast?_append, List.getLast?_eq_some_getLast hd, Option.some_or, isWordAt, Option.any_some,
          hword] at hstart
        cases hstart

end Parlance.Grammar
