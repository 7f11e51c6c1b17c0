import Parlance.Error
import Parlance.Schema

/-! A cache of catalog descriptions, keyed by the table that was asked for. Every key that was
asked for has a slot, empty until a load succeeds; a slot that was filled keeps its contents, and
once they are too old the key gets a new slot. A load that fails leaves the slot empty. -/

namespace Parlance.Schema

inductive CacheKey
  | allTables
  | table (lowerName : String)
  deriving DecidableEq, Repr

def CacheKey.ofRequest : Option String → CacheKey
  | some t => .table (String.ofList (Text.lower t.toList))
  | none => .allTables

structure CacheEntry where
  schema : Schema
  loadedAt : Nat
  deriving DecidableEq, Repr

/-- An entry may be used until its time to live has passed. Times are milliseconds on a clock that
does not run backwards. -/
def CacheEntry.isYoung (ttl : Option Nat) (now : Nat) (e : CacheEntry) : Bool :=
  match ttl with
  | some ttl => now - e.loadedAt < ttl
  | none => true

structure Cache where
  enabled : Bool
  ttl : Option Nat
  /-- The contents of every slot that was made, in the order of making. -/
  slots : List (Option CacheEntry)
  /-- The slot that each key has now. -/
  places : List (CacheKey × Nat)
  keys_nodup : (places.map (·.1)).Nodup
  places_nodup : (places.map (·.2)).Nodup
  place_lt : ∀ p ∈ places, p.2 < slots.length

namespace Cache

def new (enabled : Bool) (ttl : Option Nat) : Cache where
  enabled := enabled
  ttl := ttl
  slots := []
  places := []
  keys_nodup := .nil
  places_nodup := .nil
  place_lt _ h := nomatch h

def disabled : Cache := new false none

def slot? (c : Cache) (k : CacheKey) : Option Nat := c.places.lookup k

def contents? (c : Cache) (slot : Nat) : Option CacheEntry := c.slots[slot]?.join

def isFilled (c : Cache) (slot : Nat) : Bool := (c.contents? slot).isSome

/-- Keys whose slot is empty do not count. -/
def size (c : Cache) : Nat := c.places.countP (c.isFilled ·.2)

def isEmpty (c : Cache) : Bool := c.size == 0

def invalidate (c : Cache) (k : CacheKey) : Cache where
  enabled := c.enabled
  ttl := c.ttl
  slots := c.slots
  places := c.places.filter (·.1 ≠ k)
  keys_nodup := c.keys_nodup.sublist (List.filter_sublist.map _)
  places_nodup := c.places_nodup.sublist (List.filter_sublist.map _)
  place_lt p h := c.place_lt p (List.mem_filter.mp h).1

def clear (c : Cache) : Cache where
  enabled := c.enabled
  ttl := c.ttl
  slots := c.slots
  places := []
  keys_nodup := .nil
  places_nodup := .nil
  place_lt _ h := nomatch h

/-- Gives a key a new slot, whatever slot it had. -/
def assign (c : Cache) (k : CacheKey) : Nat × Cache :=
  (c.slots.length, {
    enabled := c.enabled
    ttl := c.ttl
    slots := c.slots ++ [none]
    places := (k, c.slots.length) :: (c.invalidate k).places
    keys_nodup := by
      refine List.nodup_cons.mpr ⟨?_, (c.invalidate k).keys_nodup⟩
      simp [invalidate]
    places_nodup := by
      refine List.nodup_cons.mpr ⟨fun h => ?_, (c.invalidate k).places_nodup⟩
      obtain ⟨p, hp, heq⟩ := List.mem_map.mp h
      exact Nat.lt_irrefl _ (heq ▸ (c.invalidate k).place_lt p hp)
    place_lt := by
      intro p hp
      rw [List.length_append]
      rcases List.mem_cons.mp hp with rfl | hp
      · exact Nat.lt_succ_self _
      · exact Nat.lt_succ_of_lt ((c.invalidate k).place_lt p hp) })

/-- The slot of a key; one that has none gets a new one. -/
def slotFor (c : Cache) (k : CacheKey) : Nat × Cache :=
  match c.slot? k with
  | some slot => (slot, c)
  | none => c.assign k

def isExpired (c : Cache) (now slot : Nat) : Bool :=
  (c.contents? slot).any (!·.isYoung c.ttl now)

/-- A new slot for a key in the place of an old one. Where somebody else has replaced that one
already, the key keeps the slot it has now. -/
def renew (c : Cache) (k : CacheKey) (old : Nat) : Nat × Cache :=
  match c.slot? k with
  | some slot => if slot = old then c.assign k else (slot, c)
  | none => c.assign k

def liveSlot (c : Cache) (now : Nat) (k : CacheKey) : Nat × Cache :=
  let (slot, c) := c.slotFor k
  if c.isExpired now slot then c.renew k slot else (slot, c)

def fill (c : Cache) (slot : Nat) (e : CacheEntry) : Cache where
  enabled := c.enabled
  ttl := c.ttl
  slots := c.slots.set slot (some e)
  places := c.places
  keys_nodup := c.keys_nodup
  places_nodup := c.places_nodup
  place_lt p h := by
    rw [List.length_set]
    exact c.place_lt p h

/-- Only a load that succeeds fills its slot. -/
def settle (c : Cache) (slot done : Nat) : Except Error Schema → Cache
  | .ok schema => c.fill slot ⟨schema, done⟩
  | .error _ => c

/-- The schema under a key, loaded if its slot is empty; a load that begins at `now` is over at
`done`. A disabled cache loads every time. The loader's state is given back after it. -/
def getOrLoadUntil {σ : Type} (c : Cache) (now done : Nat) (k : CacheKey)
    (load : σ → Except Error Schema × σ) (s : σ) : Except Error Schema × Cache × σ :=
  if !c.enabled then
    let (r, s) := load s
    (r, c, s)
  else
    let (slot, c) := c.liveSlot now k
    match c.contents? slot with
    | some e => (.ok e.schema, c, s)
    | none =>
      let (r, s) := load s
      (r, c.settle slot done r, s)

/-- Loads that take no time. -/
def getOrLoad {σ : Type} (c : Cache) (now : Nat) (k : CacheKey)
    (load : σ → Except Error Schema × σ) (s : σ) : Except Error Schema × Cache × σ :=
  c.getOrLoadUntil now now k load s

end Cache

end Parlance.Schema
