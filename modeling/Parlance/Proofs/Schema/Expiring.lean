import Mathlib.Data.Finmap
import Parlance.Proofs.Schema.Slots

/-! The cache seen from outside: a map from keys to schemas with the times of their loads. A young
entry answers; everything else is loaded once, and kept if the load succeeds. Whether a key without
an entry has no slot or an empty one, and whether an old entry still has its slot, cannot be seen. -/

namespace Parlance.Schema

variable {σ : Type}

/-- One use of a cache. A load that begins at `now` is over at `done`. -/
inductive CacheCall (σ : Type)
  | get (now done : Nat) (k : CacheKey) (load : σ → Except Error Schema × σ)
  | invalidate (k : CacheKey)
  | clear

/-- What a call shows: its answer, the loader's state behind it and the size of the cache. -/
structure CacheView (σ : Type) where
  answer : Option (Except Error Schema)
  loader : σ
  size : Nat
  isEmpty : Bool

namespace Cache

def serve (c : Cache) (s : σ) : CacheCall σ → Option (Except Error Schema) × Cache × σ
  | .get now done k load =>
    let r := c.getOrLoadUntil now done k load s
    (some r.1, r.2.1, r.2.2)
  | .invalidate k => (none, c.invalidate k, s)
  | .clear => (none, c.clear, s)

def views (c : Cache) (s : σ) : List (CacheCall σ) → List (CacheView σ)
  | [] => []
  | call :: calls =>
    let r := c.serve s call
    ⟨r.1, r.2.2, r.2.1.size, r.2.1.isEmpty⟩ :: r.2.1.views r.2.2 calls

end Cache

abbrev ExpiringMap := Finmap fun _ : CacheKey => CacheEntry

theorem CacheEntry.isYoung_eq (ttl : Option Nat) (now : Nat) (e : CacheEntry) :
    e.isYoung ttl now = ttl.all (now - e.loadedAt < ·) := by
  cases ttl <;> rfl

namespace ExpiringMap

variable {ttl : Option Nat} {now done : Nat} {k l : CacheKey}

/-- The entry of a key, as long as less time has passed since its load than entries live. -/
def young? (ttl : Option Nat) (now : Nat) (m : ExpiringMap) (k : CacheKey) : Option CacheEntry :=
  (m.lookup k).filter fun e => ttl.all (now - e.loadedAt < ·)

def store (m : ExpiringMap) (k : CacheKey) (done : Nat) : Except Error Schema → ExpiringMap
  | .ok schema => m.insert k ⟨schema, done⟩
  | .error _ => m.erase k

def serve (ttl : Option Nat) (m : ExpiringMap) (s : σ) :
    CacheCall σ → Option (Except Error Schema) × ExpiringMap × σ
  | .get now done k load =>
    match m.young? ttl now k with
    | some e => (some (.ok e.schema), m, s)
    | none => (some (load s).1, m.store k done (load s).1, (load s).2)
  | .invalidate k => (none, m.erase k, s)
  | .clear => (none, ∅, s)

def views (ttl : Option Nat) (m : ExpiringMap) (s : σ) : List (CacheCall σ) → List (CacheView σ)
  | [] => []
  | call :: calls =>
    let r := serve ttl m s call
    ⟨r.1, r.2.2, r.2.1.keys.card, r.2.1.keys.card == 0⟩ :: views ttl r.2.1 r.2.2 calls

end ExpiringMap

/-- Loads for every request and keeps nothing. -/
def uncachedViews (s : σ) : List (CacheCall σ) → List (CacheView σ)
  | [] => []
  | .get _ _ _ load :: calls => ⟨some (load s).1, (load s).2, 0, true⟩ :: uncachedViews (load s).2 calls
  | .invalidate _ :: calls | .clear :: calls => ⟨none, s, 0, true⟩ :: uncachedViews s calls

namespace Cache

variable {c : Cache} {m : ExpiringMap} {k l : CacheKey} {slot now done : Nat}

/-- The entry that a key has, young or not. -/
def held? (c : Cache) (k : CacheKey) : Option CacheEntry := (c.slot? k).bind c.contents?

def Shows (c : Cache) (m : ExpiringMap) : Prop := ∀ k, m.lookup k = c.held? k

theorem Shows.new (enabled : Bool) (ttl : Option Nat) : (new enabled ttl).Shows ∅ := fun _ => rfl

theorem Shows.invalidate (h : c.Shows m) (k : CacheKey) : (c.invalidate k).Shows (m.erase k) := by
  intro l
  by_cases hl : l = k
  · subst hl
    simp [held?]
  · rw [Finmap.lookup_erase_ne hl, h l, held?, held?, slot?_invalidate, if_neg hl]
    rfl

theorem Shows.clear : c.clear.Shows ∅ := fun _ => rfl

theorem held?_assign_of_ne (hl : l ≠ k) : (c.assign k).2.held? l = c.held? l := by
  simp [held?, hl]

/-- Filling the slot of a key changes the entry of that key only. -/
theorem held?_fill_of_ne (hk : c.slot? k = some slot) (e : CacheEntry) (hl : l ≠ k) :
    (c.fill slot e).held? l = c.held? l := by
  rw [held?, held?, slot?_fill]
  cases hs : c.slot? l with
  | none => rfl
  | some i =>
    have hne : i ≠ slot := by
      rintro rfl
      exact hl (eq_of_slot? hs hk)
    rw [Option.bind_some, Option.bind_some, contents?_fill (slot_lt hk), if_neg hne]

theorem mem_keys_iff (h : c.Shows m) : k ∈ m.keys ↔ ∃ slot, (k, slot) ∈ c.places ∧ c.isFilled slot = true := by
  rw [Finmap.mem_keys, ← Finmap.lookup_isSome, h k]
  simp only [held?, isFilled, ← slot?_eq_some_iff]
  cases c.slot? k <;> simp

theorem Shows.size_eq (h : c.Shows m) : c.size = m.keys.card := by
  have hnodup : ((c.places.filter (c.isFilled ·.2)).map (·.1)).Nodup :=
    c.keys_nodup.sublist (List.filter_sublist.map _)
  rw [size, List.countP_eq_length_filter, ← List.length_map (·.1), ← List.toFinset_card_of_nodup hnodup]
  congr 1
  ext k
  simp [mem_keys_iff h]

/-! ### Each call -/

/-- The slot that answers is the one that the key has, unless its contents are too old, or a new one. -/
theorem liveSlot_cases (c : Cache) (now : Nat) (k : CacheKey) :
    (∃ slot, c.slot? k = some slot ∧ c.isExpired now slot = false ∧ c.liveSlot now k = (slot, c)) ∨
      (c.held? k).filter (·.isYoung c.ttl now) = none ∧ c.liveSlot now k = c.assign k := by
  cases hk : c.slot? k with
  | none =>
    right
    have hnew : (c.assign k).2.isExpired now (c.assign k).1 = false := by
      simp [isExpired, contents?_eq_none_of_le]
    exact ⟨by simp [held?, hk], by simp only [liveSlot, slotFor_of_none hk, hnew, Bool.false_eq_true, if_false]⟩
  | some slot =>
    by_cases hold : c.isExpired now slot = true
    · right
      refine ⟨?_, by simp [liveSlot, slotFor_of_some hk, hold, renew_of_some hk]⟩
      simp only [isExpired, Option.any_eq_true] at hold
      obtain ⟨e, he, hage⟩ := hold
      simpa [held?, hk, he] using hage
    · have hlive : c.isExpired now slot = false := by simpa using hold
      exact .inl ⟨slot, rfl, hlive, by simp [liveSlot, slotFor_of_some hk, hlive]⟩

theorem young_of_not_expired (hk : c.slot? k = some slot) (h : c.isExpired now slot = false) :
    (c.held? k).filter (·.isYoung c.ttl now) = c.contents? slot := by
  simp only [held?, hk, Option.bind_some]
  cases he : c.contents? slot with
  | none => rfl
  | some e => simpa [isExpired, he] using h

/-- A cache that is in use stands for a map. -/
structure Refines (c : Cache) (ttl : Option Nat) (m : ExpiringMap) : Prop where
  enabled : c.enabled = true
  ttl_eq : c.ttl = ttl
  shows : c.Shows m

variable {ttl : Option Nat}

/-- A load into the slot of a key, when the map is right about all others. -/
theorem shows_settle (hm : ∀ l, l ≠ k → m.lookup l = c.held? l) (hk : c.slot? k = some slot)
    (hempty : c.contents? slot = none) (done : Nat) (r : Except Error Schema) :
    (c.settle slot done r).Shows (m.store k done r) := by
  intro l
  cases r with
  | ok schema =>
    by_cases hl : l = k
    · subst hl
      simp [ExpiringMap.store, settle, held?, hk, contents?_fill (slot_lt hk)]
    · rw [ExpiringMap.store, Finmap.lookup_insert_of_ne _ hl, hm l hl, settle, held?_fill_of_ne hk _ hl]
  | error e =>
    by_cases hl : l = k
    · subst hl
      simp [ExpiringMap.store, settle, held?, hk, hempty]
    · rw [ExpiringMap.store, Finmap.lookup_erase_ne hl, hm l hl, settle]

theorem Refines.settle (h : c.Refines ttl m) {m' : ExpiringMap} {done : Nat} {r : Except Error Schema}
    (hs : (c.settle slot done r).Shows m') : (c.settle slot done r).Refines ttl m' := by
  cases r <;> exact ⟨h.enabled, h.ttl_eq, hs⟩

/-- A call shows the same as on the map, and leaves the cache to stand for what the map has become. -/
theorem serve_refines (h : c.Refines ttl m) (s : σ) (call : CacheCall σ) :
    (c.serve s call).1 = (ExpiringMap.serve ttl m s call).1 ∧
      (c.serve s call).2.2 = (ExpiringMap.serve ttl m s call).2.2 ∧
      (c.serve s call).2.1.Refines ttl (ExpiringMap.serve ttl m s call).2.1 := by
  cases call with
  | invalidate k => exact ⟨rfl, rfl, h.enabled, h.ttl_eq, h.shows.invalidate k⟩
  | clear => exact ⟨rfl, rfl, h.enabled, h.ttl_eq, .clear⟩
  | get now done k load =>
    have hyoung : m.young? ttl now k = (c.held? k).filter (·.isYoung c.ttl now) := by
      simp only [ExpiringMap.young?, h.shows k, h.ttl_eq, CacheEntry.isYoung_eq]
    simp only [serve, ExpiringMap.serve, hyoung]
    rcases liveSlot_cases c now k with ⟨slot, hk, hlive, heq⟩ | ⟨hnone, heq⟩
    · rw [young_of_not_expired hk hlive]
      cases he : c.contents? slot with
      | some e =>
        rw [getOrLoadUntil_of_some h.enabled (by rw [heq]; exact he), heq]
        exact ⟨rfl, rfl, h⟩
      | none =>
        rw [getOrLoadUntil_of_none h.enabled (by rw [heq]; exact he), heq]
        exact ⟨rfl, rfl, h.settle (shows_settle (fun l _ => h.shows l) hk he done _)⟩
    · have hempty : (c.assign k).2.contents? (c.assign k).1 = none := by
        simp [contents?_eq_none_of_le]
      have hothers (l : CacheKey) (hl : l ≠ k) : m.lookup l = (c.assign k).2.held? l := by
        rw [held?_assign_of_ne hl, h.shows l]
      have hnew : (c.assign k).2.slot? k = some (c.assign k).1 := by simp
      rw [hnone, getOrLoadUntil_of_none h.enabled (by rw [heq]; exact hempty), heq]
      have hs := shows_settle hothers hnew hempty done (load s).1
      exact ⟨rfl, rfl, by cases hr : (load s).1 <;> exact ⟨h.enabled, h.ttl_eq, hr ▸ hs⟩⟩

theorem views_refines (h : c.Refines ttl m) (s : σ) (calls : List (CacheCall σ)) :
    c.views s calls = ExpiringMap.views ttl m s calls := by
  induction calls generalizing c m s with
  | nil => rfl
  | cons call calls ih =>
    obtain ⟨hanswer, hloader, hnext⟩ := serve_refines h s call
    simp only [views, ExpiringMap.views, hanswer, hloader, isEmpty, hnext.shows.size_eq, ih hnext]

theorem views_disabled (ttl : Option Nat) (s : σ) (calls : List (CacheCall σ)) :
    (Cache.new false ttl).views s calls = uncachedViews s calls := by
  induction calls generalizing s with
  | nil => rfl
  | cons call calls ih =>
    cases call with
    | get now done k load => exact congrArg _ (ih _)
    | invalidate k => exact congrArg _ (ih s)
    | clear => exact congrArg _ (ih s)

/-- A cache in use cannot be told from a map of keys whose entries expire, whatever the loads give and
however long they take; one that is not in use loads every time and stays empty. -/
theorem views_eq_map (ttl : Option Nat) (s : σ) (calls : List (CacheCall σ)) :
    (Cache.new true ttl).views s calls = ExpiringMap.views ttl ∅ s calls ∧
      (Cache.new false ttl).views s calls = uncachedViews s calls :=
  ⟨views_refines ⟨rfl, rfl, .new true ttl⟩ s calls, views_disabled ttl s calls⟩

/-- A load that is counted. -/
def counted (r : Except Error Schema) (loads : Nat) : Except Error Schema × Nat := (r, loads + 1)

/-- A load that is over at 2, a request while its schema is young and one when it is as old as schemas
get, whose load fails and so leaves nothing to the last one. -/
def expiring : List (CacheCall Nat) := [
  .get 0 2 .allTables (counted (.ok .empty)),
  .get 11 12 .allTables (counted (.error .json)),
  .get 12 13 .allTables (counted (.error .json)),
  .get 13 14 .allTables (counted (.ok (.ofTables [("users", [])])))]

theorem views_eq_map_expiring :
    (Cache.new true (some 10)).views 0 expiring = [
      ⟨some (.ok .empty), 1, 1, false⟩, ⟨some (.ok .empty), 1, 1, false⟩, ⟨some (.error .json), 2, 0, true⟩,
      ⟨some (.ok (.ofTables [("users", [])])), 3, 1, false⟩] := by
  rw [(views_eq_map (some 10) 0 expiring).1]
  rfl

end Cache
end Parlance.Schema
