import Parlance.Proofs.Sentence.Vocabulary

/-! A sentence is put together from segments, each of which is empty or begins with a space. Taking a
segment out of the text leaves as many spaces as it had bytes. -/

namespace Parlance.Sentence

open Pattern Text
open Interpretation

/-- The text is empty or begins with a space. -/
def Spaced (cs : List Char) : Prop := ∀ c ∈ cs.head?, c = ' '

namespace Spaced

variable {u v : List Char}

theorem nil : Spaced [] := fun _ h => nomatch h

theorem cons (cs : List Char) : Spaced (' ' :: cs) := by
  intro c hc
  cases hc
  rfl

theorem append (hu : Spaced u) (hv : Spaced v) : Spaced (u ++ v) := by
  cases u with
  | nil => exact hv
  | cons c u => exact hu

theorem forall_head {p : Char → Bool} (h : Spaced u) (hp : p ' ' = false) : ∀ c ∈ u.head?, p c = false := by
  intro c hc
  rw [h c hc, hp]

theorem isWordAt (h : Spaced u) : isWordAt u.head? = false := by
  cases u with
  | nil => rfl
  | cons c u =>
    cases h c rfl
    exact (by decide : isWord ' ' = false)

end Spaced

/-- What taking a segment leaves of it. -/
def hidden (cs : List Char) : List Char := List.replicate (size cs) ' '

@[simp] theorem size_hidden (cs : List Char) : size (hidden cs) = size cs := size_spaces _

@[simp] theorem hidden_nil : hidden [] = [] := rfl

theorem hidden_ne_nil {cs : List Char} (h : cs ≠ []) : hidden cs ≠ [] := by
  obtain ⟨c, cs, rfl⟩ := List.exists_cons_of_ne_nil h
  have hc := c.utf8Size_pos
  refine List.ne_nil_of_length_pos ?_
  simp only [hidden, List.length_replicate, size]
  omega

theorem hidden_append (u v : List Char) : hidden (u ++ v) = hidden u ++ hidden v := by
  rw [hidden, hidden, hidden, size_append, List.replicate_append_replicate]

theorem hidden_space_cons (cs : List Char) : hidden (' ' :: cs) = ' ' :: hidden cs := by
  rw [hidden, size, show (' ' : Char).utf8Size = 1 by decide, Nat.add_comm]
  rfl

theorem eq_space_of_mem_hidden {c : Char} {cs : List Char} (h : c ∈ hidden cs) : c = ' ' :=
  List.eq_of_mem_replicate h

theorem spaced_hidden (cs : List Char) : Spaced (hidden cs) :=
  fun _ hc => eq_space_of_mem_hidden (List.mem_of_mem_head? hc)

@[simp] theorem lacks_hidden_append {ws : List String} {u v : List Char} :
    Lacks ws (hidden u ++ v) ↔ Lacks ws v :=
  Lacks.spaces_append _

theorem lacks_append_spaced {ws : List String} {u v : List Char} (hu : Lacks ws u) (hv : Lacks ws v)
    (h : Spaced v) : Lacks ws (u ++ v) := by
  cases v with
  | nil => simpa using hu
  | cons c v =>
    cases h c rfl
    exact Lacks.append_space.mpr ⟨hu, Lacks.space_cons.mp hv⟩

@[simp] theorem lacks_hidden {ws : List String} (u : List Char) : Lacks ws (hidden u) := by
  have h : Lacks ws (hidden u ++ []) := lacks_hidden_append.mpr .nil
  rwa [List.append_nil] at h

theorem take_behind (u w x : List Char) :
    Workspace.take ⟨u ++ (w ++ x)⟩ ⟨size u, size (u ++ w)⟩ = ⟨u ++ (hidden w ++ x)⟩ := by
  have hdrop : dropTo (size (u ++ w)) (u ++ (w ++ x)) = x := by
    rw [← List.append_assoc, dropTo_size_append]
  have hsize : size (u ++ w) - size u = size w := by rw [size_append, Nat.add_sub_cancel_left]
  simp only [Workspace.take, blankOut, takeTo_size_append, hdrop, hsize, hidden, List.append_assoc]

/-- Taking what stands behind a space takes the whole segment. -/
theorem take_segment (u w x : List Char) :
    Workspace.take ⟨u ++ ' ' :: (w ++ x)⟩ ⟨size (u ++ [' ']), size (u ++ [' '] ++ w)⟩
      = ⟨u ++ (hidden (' ' :: w) ++ x)⟩ := by
  have h := take_behind (u ++ [' ']) w x
  rw [List.append_assoc, List.singleton_append] at h
  rw [h, hidden_space_cons, List.append_assoc, List.singleton_append, List.cons_append]

/-! ### Names in front of a segment -/

namespace FreeName

variable {n : String} {u x : List Char} {ws : List String} (h : FreeName n)
include h

theorem prefers_name (hx : Spaced x) : Prefers name u n.toList x [] :=
  .name h.isName (hx.forall_head (by decide))

theorem fails_lead (hws : Leads.firstWords ws ⊆ reserved) (hl : Lettered (Leads.firstWords ws)) (hx : Spaced x)
    {w y : List Char} (hy : w ++ y = n.toList ++ x) : ¬Matches (both (phrases ws) gap) u w y := by
  have hheaded : Headed (Leads.firstWords ws) (seq [phrases ws, gap]) := headed_gap (.phrases ws)
  exact hheaded.not_matches hl hy h.isWord hx.isWordAt fun _ hk => h.not_spelled (hws hk)

theorem prefers_lead (hws : Leads.firstWords ws ⊆ reserved) (hl : Lettered (Leads.firstWords ws)) (hx : Spaced x) :
    Prefers (lead ws) u [] (n.toList ++ x) [] :=
  .lead_absent (fails_of_matches fun _ _ hy => h.fails_lead hws hl hx hy.symm)

end FreeName

end Parlance.Sentence
