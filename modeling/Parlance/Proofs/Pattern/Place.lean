import Parlance.Proofs.Pattern.Capture
import Parlance.Proofs.Pattern.Search
import Parlance.Proofs.Text.Boundary

/-! Where hits stand. Both ends of a hit are places between characters, and a pattern that matches
nothing but texts with something in them moves a search on. -/

namespace Parlance.Pattern

open Text (size isBoundary)

variable {p : Pattern} {low : Nat} {u v a w x cs : List Char} {h : Hit}

theorem FoundAt.fits (hf : FoundAt p low [] cs a w x h) : h.span.Fits cs := by
  rw [hf.text_eq, hf.span_eq]
  exact Text.fits_of_append a w x

theorem fits_of_findAfter? (hh : p.findAfter? low cs = some h) : h.span.Fits cs := by
  obtain ⟨a, w, x, hf⟩ := findFrom?_eq_some (u := []) hh
  exact hf.fits

theorem fits_of_find? (hh : p.find? cs = some h) : h.span.Fits cs := fits_of_findAfter? hh

theorem exists_hitAt?_of_mem_hitsFrom (hh : h ∈ p.hitsFrom low (.between u v) v) :
    ∃ a y, v = a ++ y ∧ p.hitAt? (.between (u ++ a) y) = some h := by
  obtain ⟨a, d, hover, hit⟩ := hitAt?_of_mem_hitsFrom rfl hh
  obtain ⟨y, rfl, rfl⟩ := hover.between
  exact ⟨a, y, rfl, hit⟩

theorem foundAt_of_mem_hitsFrom (hh : h ∈ p.hitsFrom low (.between u v) v) :
    ∃ l a w x, FoundAt p l u v a w x h := by
  obtain ⟨a, y, rfl, hit⟩ := exists_hitAt?_of_mem_hitsFrom hh
  have hhere : (if 0 ≤ size (u ++ a) then p.hitAt? (.between (u ++ a) y) else none) = some h := by
    rwa [if_pos (Nat.zero_le _)]
  obtain ⟨w, x, rfl, -, hm, hspan⟩ := hitAt?_eq_some hhere
  exact ⟨0, a, w, x, rfl, Nat.zero_le _, by simpa using hm, by simpa using hspan⟩

theorem fits_of_mem_hits (hh : h ∈ p.hits cs) : h.span.Fits cs := by
  obtain ⟨l, a, w, x, hf⟩ := foundAt_of_mem_hitsFrom (u := []) hh
  exact hf.fits

theorem lt_stop_of_findAfter? (hp : p.nullable = false) (hh : p.findAfter? low cs = some h) : low < h.span.stop := by
  obtain ⟨a, w, x, hf⟩ := findFrom?_eq_some (u := []) hh
  exact Nat.lt_of_le_of_lt hf.low_le (hf.low_lt_stop hp)

theorem stop_pos_of_find? (hp : p.nullable = false) (hh : p.find? cs = some h) : 0 < h.span.stop :=
  lt_stop_of_findAfter? hp hh

/-- Less of a text is left behind something that takes a part of it. -/
theorem length_behind_lt (hp : p.nullable = false) (hh : p.find? cs = some h) :
    (Text.dropTo h.span.stop cs).length < cs.length :=
  Text.length_dropTo_lt_of_pos (fits_of_find? hh).stop (stop_pos_of_find? hp hh)

/-! ### What stands there -/

/-- The text of the hit stands behind `a` and before `x`, and what its groups hold is a part of it. -/
structure Hit.Stands (h : Hit) (a x cs : List Char) : Prop where
  text_eq : cs = a ++ (h.text ++ x)
  span_eq : h.span = ⟨size a, size (a ++ h.text)⟩
  captures : ∀ e ∈ h.captures, e.2.text <:+: h.text

theorem Hit.Stands.group {n : Nat} (hs : h.Stands a x cs) (hw : h.text? n = some w) : w <:+: h.text := by
  obtain ⟨k, hk, rfl⟩ := h.exists_capture hw
  exact hs.captures (n, k) hk

theorem stands_of_hitAt? (hit : p.hitAt? (.between u v) = some h) : ∃ x, h.Stands u x (u ++ v) := by
  obtain ⟨d, hruns, hspan⟩ := runs_of_hitAt? hit
  obtain ⟨x, rfl, rfl⟩ := hruns.toOver.between
  exact ⟨x, rfl, hspan, hruns.capture_infix⟩

theorem exists_stands_of_find? (hh : p.find? cs = some h) : ∃ a x, h.Stands a x cs := by
  obtain ⟨a, y, rfl, -, hit⟩ := exists_hitAt?_of_findFrom? (u := []) hh
  exact ⟨a, stands_of_hitAt? hit⟩

theorem exists_stands_of_mem_hits (hh : h ∈ p.hits cs) : ∃ a x, h.Stands a x cs := by
  obtain ⟨a, y, rfl, hit⟩ := exists_hitAt?_of_mem_hitsFrom (u := []) hh
  exact ⟨a, stands_of_hitAt? hit⟩

end Parlance.Pattern
