import Mathlib.Data.List.Nodup
import Parlance.Schema.Cache

/-! What the operations on a cache do to the slots of its keys and to the contents of the slots. A
slot belongs to one key at most, and one that a key has lost is never given to a key again. -/

namespace Parlance.Schema.Cache

variable {c : Cache} {k l : CacheKey} {slot i : Nat}

theorem lookup_eq_some_iff_mem {β : Type} {ps : List (CacheKey × β)} (h : (ps.map (·.1)).Nodup) {v : β} :
    ps.lookup k = some v ↔ (k, v) ∈ ps := by
  induction ps with
  | nil => simp
  | cons p ps ih =>
    obtain ⟨hp, hps⟩ := List.nodup_cons.mp h
    rw [List.lookup_cons, List.mem_cons, ← ih hps]
    by_cases hk : k = p.1
    · subst hk
      have hnone : ps.lookup p.1 ≠ some v := fun hs => hp (List.mem_map.mpr ⟨_, (ih hps).mp hs, rfl⟩)
      simp [hnone, Prod.ext_iff, eq_comm]
    · have hne : (k == p.1) = false := by simpa using hk
      simp [hne, Prod.ext_iff, hk]

theorem slot?_eq_some_iff : c.slot? k = some slot ↔ (k, slot) ∈ c.places :=
  lookup_eq_some_iff_mem c.keys_nodup

theorem slot_lt (h : c.slot? k = some slot) : slot < c.slots.length :=
  c.place_lt _ (slot?_eq_some_iff.mp h)

theorem eq_of_slot? (hk : c.slot? k = some slot) (hl : c.slot? l = some slot) : k = l := by
  have h := List.inj_on_of_nodup_map c.places_nodup (slot?_eq_some_iff.mp hk) (slot?_eq_some_iff.mp hl) rfl
  exact congrArg Prod.fst h

theorem contents?_eq_none_of_le (h : c.slots.length ≤ i) : c.contents? i = none := by
  simp [contents?, List.getElem?_eq_none h]

/-! ### Each operation -/

@[simp] theorem slot?_new (enabled : Bool) (ttl : Option Nat) (k : CacheKey) :
    (new enabled ttl).slot? k = none := rfl

@[simp] theorem contents?_new (enabled : Bool) (ttl : Option Nat) (i : Nat) :
    (new enabled ttl).contents? i = none := rfl

@[simp] theorem slot?_invalidate (c : Cache) (k l : CacheKey) :
    (c.invalidate k).slot? l = if l = k then none else c.slot? l := by
  apply Option.ext
  intro slot
  rw [slot?_eq_some_iff]
  by_cases h : l = k
  · simp [invalidate, h]
  · simp [invalidate, h, slot?_eq_some_iff]

@[simp] theorem contents?_invalidate (c : Cache) (k : CacheKey) (i : Nat) :
    (c.invalidate k).contents? i = c.contents? i := rfl

@[simp] theorem slot?_clear (c : Cache) (k : CacheKey) : c.clear.slot? k = none := rfl

@[simp] theorem contents?_clear (c : Cache) (i : Nat) : c.clear.contents? i = c.contents? i := rfl

@[simp] theorem assign_fst (c : Cache) (k : CacheKey) : (c.assign k).1 = c.slots.length := rfl

@[simp] theorem slot?_assign (c : Cache) (k l : CacheKey) :
    (c.assign k).2.slot? l = if l = k then some c.slots.length else c.slot? l := by
  by_cases h : l = k
  · subst h
    simp [slot?, assign]
  · have hne : (l == k) = false := by simpa using h
    have hrest := slot?_invalidate c k l
    simp only [slot?, assign, List.lookup_cons, hne, h, if_false] at hrest ⊢
    exact hrest

@[simp] theorem length_assign (c : Cache) (k : CacheKey) :
    (c.assign k).2.slots.length = c.slots.length + 1 := by
  simp [assign]

/-- A slot begins empty, as if it had not been made. -/
@[simp] theorem contents?_assign (c : Cache) (k : CacheKey) (i : Nat) :
    (c.assign k).2.contents? i = c.contents? i := by
  rcases Nat.lt_trichotomy i c.slots.length with h | rfl | h
  · simp [contents?, assign, List.getElem?_append_left h]
  · simp [contents?, assign]
  · rw [contents?_eq_none_of_le (by rw [length_assign]; omega), contents?_eq_none_of_le (by omega)]

@[simp] theorem slot?_fill (c : Cache) (i : Nat) (e : CacheEntry) (k : CacheKey) :
    (c.fill i e).slot? k = c.slot? k := rfl

@[simp] theorem length_fill (c : Cache) (i : Nat) (e : CacheEntry) :
    (c.fill i e).slots.length = c.slots.length := by
  simp [fill]

theorem contents?_fill (h : slot < c.slots.length) (e : CacheEntry) (i : Nat) :
    (c.fill slot e).contents? i = if i = slot then some e else c.contents? i := by
  by_cases hi : i = slot
  · subst hi
    simp [contents?, fill, h]
  · simp [contents?, fill, List.getElem?_set_ne (Ne.symm hi), hi]

/-! ### Slots for a key -/

theorem slotFor_of_some (h : c.slot? k = some slot) : c.slotFor k = (slot, c) := by
  simp [slotFor, h]

theorem slotFor_of_none (h : c.slot? k = none) : c.slotFor k = c.assign k := by
  simp [slotFor, h]

/-- Whoever renews a slot that its key has no more shares the slot that the key has now. -/
theorem renew_of_ne {old : Nat} (h : c.slot? k = some slot) (hne : slot ≠ old) : c.renew k old = (slot, c) := by
  simp [renew, h, hne]

theorem renew_of_some (h : c.slot? k = some slot) : c.renew k slot = c.assign k := by
  simp [renew, h]

theorem renew_of_none {old : Nat} (h : c.slot? k = none) : c.renew k old = c.assign k := by
  simp [renew, h]

/-- A slot for a key: the one that it has, or a new one. -/
def Offers (c : Cache) (k : CacheKey) (given : Nat × Cache) : Prop :=
  c.slot? k = some given.1 ∧ given.2 = c ∨ given = c.assign k

theorem offers_slotFor (c : Cache) (k : CacheKey) : c.Offers k (c.slotFor k) := by
  cases h : c.slot? k with
  | none => exact .inr (slotFor_of_none h)
  | some slot =>
    rw [slotFor_of_some h]
    exact .inl ⟨h, rfl⟩

theorem offers_renew (c : Cache) (k : CacheKey) (old : Nat) : c.Offers k (c.renew k old) := by
  cases h : c.slot? k with
  | none => exact .inr (renew_of_none h)
  | some slot =>
    by_cases hold : slot = old
    · subst hold
      exact .inr (renew_of_some h)
    · rw [renew_of_ne h hold]
      exact .inl ⟨h, rfl⟩

namespace Offers

variable {given : Nat × Cache}

theorem slot?_eq (h : c.Offers k given) : given.2.slot? k = some given.1 := by
  rcases h with ⟨hk, hc⟩ | rfl
  · rw [hc, hk]
  · simp

theorem length_le (h : c.Offers k given) : c.slots.length ≤ given.2.slots.length := by
  rcases h with ⟨-, hc⟩ | rfl
  · exact Nat.le_of_eq (by rw [hc])
  · simp

theorem contents?_eq (h : c.Offers k given) (i : Nat) : given.2.contents? i = c.contents? i := by
  rcases h with ⟨-, hc⟩ | rfl
  · rw [hc]
  · simp

/-- A slot that a key has now it had before, or it is new. -/
theorem of_slot? (h : c.Offers k given) (hl : given.2.slot? l = some slot) :
    c.slot? l = some slot ∨ l = k ∧ slot = c.slots.length := by
  rcases h with ⟨-, hc⟩ | rfl
  · exact .inl (hc ▸ hl)
  · rw [slot?_assign] at hl
    by_cases hlk : l = k
    · rw [if_pos hlk] at hl
      exact .inr ⟨hlk, (Option.some.inj hl).symm⟩
    · rw [if_neg hlk] at hl
      exact .inl hl

theorem slot?_of_ne (h : c.Offers k given) (hl : l ≠ k) : given.2.slot? l = c.slot? l := by
  rcases h with ⟨-, hc⟩ | rfl
  · rw [hc]
  · rw [slot?_assign, if_neg hl]

end Offers

/-! ### Uses of a live slot -/

variable {σ : Type} {now done : Nat} {load : σ → Except Error Schema × σ} {s : σ}

theorem getOrLoadUntil_of_some (hc : c.enabled = true) {e : CacheEntry}
    (he : (c.liveSlot now k).2.contents? (c.liveSlot now k).1 = some e) :
    c.getOrLoadUntil now done k load s = (.ok e.schema, (c.liveSlot now k).2, s) := by
  simp [getOrLoadUntil, hc, he]

theorem getOrLoadUntil_of_none (hc : c.enabled = true)
    (he : (c.liveSlot now k).2.contents? (c.liveSlot now k).1 = none) :
    c.getOrLoadUntil now done k load s =
      ((load s).1, (c.liveSlot now k).2.settle (c.liveSlot now k).1 done (load s).1, (load s).2) := by
  simp [getOrLoadUntil, hc, he]

end Parlance.Schema.Cache
