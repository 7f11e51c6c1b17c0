import Parlance.Proofs.Pattern.Language

/-! What is found in a text is a part of it: the text of a hit and the texts of its groups stand there
as they are. -/

namespace Parlance

namespace Cursor

theorem Over.infix_rest {c d : Cursor} {w : List Char} (h : c.Over w d) : w <:+: c.rest := by
  rw [h.1]
  exact (List.prefix_append w d.rest).isInfix

theorem Over.rest_infix {c d : Cursor} {w : List Char} (h : c.Over w d) : d.rest <:+: c.rest := by
  rw [h.1]
  exact (List.suffix_append w d.rest).isInfix

theorem Over.pos_le {c d : Cursor} {w : List Char} (h : c.Over w d) : c.pos ≤ d.pos := by
  rw [h.2.1]
  omega

end Cursor

namespace Pattern

/-- The hit and its groups are parts of the text. -/
structure Hit.Inside (h : Hit) (cs : List Char) : Prop where
  span_le : h.span.start ≤ h.span.stop
  text : h.text <:+: cs
  captures : ∀ e ∈ h.captures, e.2.text <:+: cs

theorem Hit.Inside.mono {h : Hit} {cs cs' : List Char} (hi : h.Inside cs) (hcs : cs <:+: cs') : h.Inside cs' :=
  ⟨hi.span_le, hi.text.trans hcs, fun e he => (hi.captures e he).trans hcs⟩

theorem Hit.Inside.group {h : Hit} {cs : List Char} (hi : h.Inside cs) (n : Nat) : (h.text? n).getD [] <:+: cs := by
  cases hw : h.text? n with
  | none => exact List.nil_infix
  | some w =>
    obtain ⟨k, hk, rfl⟩ := h.exists_capture hw
    exact hi.captures (n, k) hk

variable {p : Pattern} {low : Nat} {c : Cursor} {cs : List Char} {h : Hit}

theorem inside_of_hitAt? (hh : p.hitAt? c = some h) : h.Inside c.rest := by
  obtain ⟨d, hruns, hspan⟩ := runs_of_hitAt? hh
  refine ⟨?_, hruns.toOver.infix_rest, fun e he => (hruns.capture_infix e he).trans hruns.toOver.infix_rest⟩
  rw [hspan]
  exact hruns.toOver.pos_le

theorem inside_of_findAfter? (hh : p.findAfter? low cs = some h) : h.Inside cs := by
  obtain ⟨w, d, hover, -, hit⟩ := hitAt?_of_findFrom? rfl hh
  exact (inside_of_hitAt? hit).mono hover.rest_infix

theorem inside_of_find? (hh : p.find? cs = some h) : h.Inside cs := inside_of_findAfter? hh

theorem inside_of_mem_hits (hh : h ∈ p.hits cs) : h.Inside cs := by
  obtain ⟨w, d, hover, hit⟩ := hitAt?_of_mem_hitsFrom rfl hh
  exact (inside_of_hitAt? hit).mono hover.rest_infix

end Pattern

end Parlance
