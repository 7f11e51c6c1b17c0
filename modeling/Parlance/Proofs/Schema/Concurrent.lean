import Mathlib.Logic.Function.Basic
import Parlance.Proofs.Schema.Slots

/-! Requests that share a cache. Each of them looks its key up, looks at the age of what it finds,
renews a slot that has expired and then waits for the contents of its slot or loads them, and any
other request, an invalidation or a clearing may come between two of these steps. One request at a
time loads into a slot, and only a load that succeeds fills it.

A slot is filled once and replaced once. Slots are made in the order of their numbers, so one that was
made behind an invalidation has a greater number than all that were there before it, and no load for it
has begun by then. -/

namespace Parlance.Schema

inductive Stage
  | called
  | found (slot : Nat)
  | outdated (slot : Nat)
  | bound (slot : Nat)
  | loading (slot : Nat)
  | answered (slot : Nat) (answer : Except Error Schema)
  | dropped

def Stage.slot? : Stage → Option Nat
  | called | dropped => none
  | found slot | outdated slot | bound slot | loading slot | answered slot _ => some slot

/-- The request goes on with the slot that it has, or not at all. -/
def Stage.isSettled : Stage → Bool
  | called | found _ | outdated _ => false
  | bound _ | loading _ | answered _ _ | dropped => true

structure Traffic where
  cache : Cache
  /-- Every request that was made, by its number, with the key that it asks for. -/
  requests : Nat → Option (CacheKey × Stage)
  /-- The request that loads into a slot. -/
  loader : Nat → Option Nat

namespace Traffic

def initial (ttl : Option Nat) : Traffic := ⟨.new true ttl, fun _ => none, fun _ => none⟩

def put (w : Traffic) (r : Nat) (k : CacheKey) (stage : Stage) : Traffic :=
  { w with requests := Function.update w.requests r (some (k, stage)) }

/-- The request goes on with a slot that the cache gives it. -/
def obtain (w : Traffic) (r : Nat) (k : CacheKey) (stage : Nat → Stage) (given : Nat × Cache) : Traffic :=
  { w with cache := given.2 }.put r k (stage given.1)

def setLoader (w : Traffic) (slot : Nat) (r : Option Nat) : Traffic :=
  { w with loader := Function.update w.loader slot r }

end Traffic

inductive Event
  | call (r : Nat) (k : CacheKey)
  | find (r slot : Nat)
  | keep (r slot : Nat)
  | expire (r slot : Nat)
  /-- The key loses its old slot to a new one. -/
  | replace (r : Nat) (k : CacheKey) (old slot : Nat)
  /-- The old slot is gone already; the request takes the slot that the key has now. -/
  | adopt (r : Nat) (k : CacheKey) (old slot : Nat)
  | beginLoad (r slot : Nat)
  | endLoad (r slot : Nat) (schema : Schema)
  | failLoad (r slot : Nat) (e : Error)
  | serve (r slot : Nat) (schema : Schema)
  | drop (r : Nat)
  | invalidate (k : CacheKey)
  | clear

namespace Event

/-- The request is answered with a schema from a slot, loaded by itself or by another. -/
def Answers (r slot : Nat) (schema : Schema) (e : Event) : Prop :=
  e = endLoad r slot schema ∨ e = serve r slot schema

def Fills (slot : Nat) (e : Event) : Prop := ∃ r schema, e = endLoad r slot schema

def Replaces (slot : Nat) (e : Event) : Prop := ∃ r k new, e = replace r k slot new

/-- The request has found a slot of the key expired and goes on with this one. -/
def Renews (r : Nat) (k : CacheKey) (old slot : Nat) (e : Event) : Prop :=
  e = replace r k old slot ∨ e = adopt r k old slot

def Forgets (k : CacheKey) (e : Event) : Prop := e = invalidate k ∨ e = clear

end Event

/-- What may happen next. The clock is read where the age of contents counts, and nothing is assumed of
its readings. -/
inductive Step : Traffic → Event → Traffic → Prop
  | call {w : Traffic} {r : Nat} {k : CacheKey} (new : w.requests r = none) :
      Step w (.call r k) (w.put r k .called)
  | find {w : Traffic} {r : Nat} {k : CacheKey} (at_ : w.requests r = some (k, .called)) :
      Step w (.find r (w.cache.slotFor k).1) (w.obtain r k .found (w.cache.slotFor k))
  | keep {w : Traffic} {r slot : Nat} {k : CacheKey} (at_ : w.requests r = some (k, .found slot))
      (now : Nat) (young : w.cache.isExpired now slot = false) :
      Step w (.keep r slot) (w.put r k (.bound slot))
  | expire {w : Traffic} {r slot : Nat} {k : CacheKey} (at_ : w.requests r = some (k, .found slot))
      (now : Nat) (old : w.cache.isExpired now slot = true) :
      Step w (.expire r slot) (w.put r k (.outdated slot))
  | replace {w : Traffic} {r old : Nat} {k : CacheKey} (at_ : w.requests r = some (k, .outdated old))
      (same : w.cache.slot? k = some old) :
      Step w (.replace r k old (w.cache.renew k old).1) (w.obtain r k .bound (w.cache.renew k old))
  | adopt {w : Traffic} {r old : Nat} {k : CacheKey} (at_ : w.requests r = some (k, .outdated old))
      (other : w.cache.slot? k ≠ some old) :
      Step w (.adopt r k old (w.cache.renew k old).1) (w.obtain r k .bound (w.cache.renew k old))
  | beginLoad {w : Traffic} {r slot : Nat} {k : CacheKey} (at_ : w.requests r = some (k, .bound slot))
      (empty : w.cache.contents? slot = none) (free : w.loader slot = none) :
      Step w (.beginLoad r slot) ((w.setLoader slot (some r)).put r k (.loading slot))
  | endLoad {w : Traffic} {r slot : Nat} {k : CacheKey} (at_ : w.requests r = some (k, .loading slot))
      (schema : Schema) (done : Nat) :
      Step w (.endLoad r slot schema)
        (({ w with cache := w.cache.fill slot ⟨schema, done⟩ }.setLoader slot none).put r k
          (.answered slot (.ok schema)))
  | failLoad {w : Traffic} {r slot : Nat} {k : CacheKey} (at_ : w.requests r = some (k, .loading slot))
      (e : Error) :
      Step w (.failLoad r slot e) ((w.setLoader slot none).put r k (.answered slot (.error e)))
  | serve {w : Traffic} {r slot : Nat} {k : CacheKey} (at_ : w.requests r = some (k, .bound slot))
      {e : CacheEntry} (filled : w.cache.contents? slot = some e) :
      Step w (.serve r slot e.schema) (w.put r k (.answered slot (.ok e.schema)))
  | dropWaiting {w : Traffic} {r : Nat} {k : CacheKey} {stage : Stage} (at_ : w.requests r = some (k, stage))
      (waiting : ∀ slot, stage ≠ .loading slot) : Step w (.drop r) (w.put r k .dropped)
  | dropLoading {w : Traffic} {r slot : Nat} {k : CacheKey} (at_ : w.requests r = some (k, .loading slot)) :
      Step w (.drop r) ((w.setLoader slot none).put r k .dropped)
  | invalidate {w : Traffic} (k : CacheKey) :
      Step w (.invalidate k) { w with cache := w.cache.invalidate k }
  | clear {w : Traffic} : Step w .clear { w with cache := w.cache.clear }

inductive Run : Traffic → List Event → Traffic → Prop
  | nil (w : Traffic) : Run w [] w
  | cons {w w' w'' : Traffic} {e : Event} {es : List Event} (first : Step w e w') (rest : Run w' es w'') :
      Run w (e :: es) w''

theorem Run.append_iff {w w' : Traffic} {es es' : List Event} :
    Run w (es ++ es') w' ↔ ∃ v, Run w es v ∧ Run v es' w' := by
  constructor
  · intro h
    induction es generalizing w with
    | nil => exact ⟨w, .nil w, h⟩
    | cons e es ih =>
      cases h with
      | cons first rest =>
        obtain ⟨v, hv, hv'⟩ := ih rest
        exact ⟨v, .cons first hv, hv'⟩
  · rintro ⟨v, hv, hv'⟩
    induction hv with
    | nil => exact hv'
    | cons first _ ih => exact .cons first (ih hv')

theorem Run.cons_iff {w w' : Traffic} {e : Event} {es : List Event} :
    Run w (e :: es) w' ↔ ∃ v, Step w e v ∧ Run v es w' := by
  constructor
  · rintro (_ | ⟨first, rest⟩)
    exact ⟨_, first, rest⟩
  · rintro ⟨v, first, rest⟩
    exact .cons first rest

theorem Run.exists_cons {w v : Traffic} {e : Event} {es : List Event} (first : Step w e v) :
    (∃ w', Run v es w') → ∃ w', Run w (e :: es) w' := by
  rintro ⟨w', rest⟩
  exact ⟨w', .cons first rest⟩

namespace Traffic

variable {w : Traffic} {r s slot : Nat} {k : CacheKey} {stage : Stage}

@[simp] theorem cache_put : (w.put r k stage).cache = w.cache := rfl
@[simp] theorem loader_put : (w.put r k stage).loader = w.loader := rfl
@[simp] theorem requests_put : (w.put r k stage).requests = Function.update w.requests r (some (k, stage)) := rfl
@[simp] theorem cache_setLoader {o : Option Nat} : (w.setLoader slot o).cache = w.cache := rfl
@[simp] theorem requests_setLoader {o : Option Nat} : (w.setLoader slot o).requests = w.requests := rfl
@[simp] theorem loader_setLoader {o : Option Nat} :
    (w.setLoader slot o).loader = Function.update w.loader slot o := rfl
@[simp] theorem cache_obtain {stage : Nat → Stage} {given : Nat × Cache} :
    (w.obtain r k stage given).cache = given.2 := rfl
@[simp] theorem loader_obtain {stage : Nat → Stage} {given : Nat × Cache} :
    (w.obtain r k stage given).loader = w.loader := rfl
@[simp] theorem requests_obtain {stage : Nat → Stage} {given : Nat × Cache} :
    (w.obtain r k stage given).requests = Function.update w.requests r (some (k, stage given.1)) := rfl

end Traffic

/-! ### Loads -/

/-- Requests hold slots that were made; who loads into a slot is its loader, and that slot is empty. -/
structure Traffic.Sound (w : Traffic) : Prop where
  slot_lt : ∀ r k stage slot, w.requests r = some (k, stage) → stage.slot? = some slot →
    slot < w.cache.slots.length
  loader_eq : ∀ r k slot, w.requests r = some (k, .loading slot) → w.loader slot = some r
  empty : ∀ r slot, w.loader slot = some r → w.cache.contents? slot = none

variable {w w' : Traffic} {e : Event} {es : List Event} {r s slot : Nat} {k l : CacheKey}

theorem Traffic.sound_initial (ttl : Option Nat) : (Traffic.initial ttl).Sound where
  slot_lt _ _ _ _ h := nomatch h
  loader_eq _ _ _ h := nomatch h
  empty _ _ h := nomatch h

theorem Step.length_le (h : Step w e w') : w.cache.slots.length ≤ w'.cache.slots.length := by
  cases h with
  | find => exact (Cache.offers_slotFor _ _).length_le
  | replace | adopt => exact (Cache.offers_renew _ _ _).length_le
  | endLoad => simp
  | _ => exact Nat.le_refl _

theorem Run.length_le (h : Run w es w') : w.cache.slots.length ≤ w'.cache.slots.length := by
  induction h with
  | nil => exact Nat.le_refl _
  | cons first _ ih => exact Nat.le_trans first.length_le ih

namespace Traffic.Sound

theorem put (h : w.Sound) {stage : Stage} (hlt : ∀ i, stage.slot? = some i → i < w.cache.slots.length)
    (hl : ∀ i, stage = .loading i → w.loader i = some r) : (w.put r k stage).Sound where
  slot_lt r' k' stage' i hr hi := by
    by_cases hne : r' = r
    · subst hne
      obtain ⟨rfl, rfl⟩ : k = k' ∧ stage = stage' := by simpa using hr
      exact hlt i hi
    · exact h.slot_lt r' k' stage' i (by simpa [hne] using hr) hi
  loader_eq r' k' i hr := by
    by_cases hne : r' = r
    · subst hne
      obtain ⟨-, hstage⟩ : k = k' ∧ stage = .loading i := by simpa using hr
      exact hl i hstage
    · exact h.loader_eq r' k' i (by simpa [hne] using hr)
  empty := h.empty

theorem withCache (h : w.Sound) {c : Cache} (hlength : w.cache.slots.length ≤ c.slots.length)
    (hc : ∀ i, c.contents? i = w.cache.contents? i) : ({ w with cache := c } : Traffic).Sound where
  slot_lt r' k' stage i hr hi := Nat.lt_of_lt_of_le (h.slot_lt r' k' stage i hr hi) hlength
  loader_eq := h.loader_eq
  empty r' i hr := (hc i).trans (h.empty r' i hr)

theorem occupy (h : w.Sound) (hempty : w.cache.contents? slot = none) (hfree : w.loader slot = none) :
    (w.setLoader slot (some r)).Sound where
  slot_lt := h.slot_lt
  loader_eq r' k' i hr := by
    have hloader := h.loader_eq r' k' i hr
    by_cases hi : i = slot
    · subst hi
      rw [hfree] at hloader
      cases hloader
    · simpa [hi] using hloader
  empty r' i hr := by
    by_cases hi : i = slot
    · exact hi ▸ hempty
    · exact h.empty r' i (by simpa [hi] using hr)

theorem release (h : w.Sound) (hfree : ∀ r' k', w.requests r' ≠ some (k', .loading slot)) :
    (w.setLoader slot none).Sound where
  slot_lt := h.slot_lt
  loader_eq r' k' i hr := by
    have hi : i ≠ slot := by
      rintro rfl
      exact hfree r' k' hr
    simpa [hi] using h.loader_eq r' k' i hr
  empty r' i hr := by
    by_cases hi : i = slot
    · simp [hi] at hr
    · exact h.empty r' i (by simpa [hi] using hr)

theorem fill (h : w.Sound) (hlt : slot < w.cache.slots.length) (hfree : w.loader slot = none)
    (x : CacheEntry) : ({ w with cache := w.cache.fill slot x } : Traffic).Sound where
  slot_lt r' k' stage i hr hi := by
    rw [Cache.length_fill]
    exact h.slot_lt r' k' stage i hr hi
  loader_eq := h.loader_eq
  empty r' i hr := by
    have hi : i ≠ slot := by
      rintro rfl
      rw [hfree] at hr
      cases hr
    rw [Cache.contents?_fill hlt, if_neg hi]
    exact h.empty r' i hr

/-- Of two requests that load into one slot each is its loader. -/
theorem loading_unique (h : w.Sound) (hr : w.requests r = some (k, .loading slot))
    (hs : w.requests s = some (l, .loading slot)) : r = s :=
  Option.some.inj ((h.loader_eq r k slot hr).symm.trans (h.loader_eq s l slot hs))

/-- A request that stops loading leaves nobody to load into its slot. -/
theorem stop (h : w.Sound) (hr : w.requests r = some (k, .loading slot)) {stage : Stage}
    (hstage : stage = .dropped ∨ ∃ answer, stage = .answered slot answer) :
    ((w.put r k stage).setLoader slot none).Sound := by
  have hlt := h.slot_lt r k _ slot hr rfl
  refine (h.put (fun i hi => ?_) fun i hi => ?_).release fun r' k' hr' => ?_
  · rcases hstage with rfl | ⟨answer, rfl⟩
    · cases hi
    · cases hi
      exact hlt
  · rcases hstage with rfl | ⟨answer, rfl⟩ <;> cases hi
  · by_cases hne : r' = r
    · subst hne
      rcases hstage with rfl | ⟨answer, rfl⟩ <;> simp at hr'
    · exact hne (h.loading_unique (by simpa [hne] using hr') hr)

theorem obtain (h : w.Sound) {stage : Nat → Stage} {given : Nat × Cache} (hgiven : w.cache.Offers k given)
    (hstage : stage = .found ∨ stage = .bound) : (w.obtain r k stage given).Sound := by
  have hlt := Cache.slot_lt hgiven.slot?_eq
  refine (h.withCache hgiven.length_le hgiven.contents?_eq).put (fun i hi => ?_) fun i hi => ?_
  · rcases hstage with rfl | rfl <;> cases hi <;> exact hlt
  · rcases hstage with rfl | rfl <;> cases hi

/-- A request goes on with the slot that it has. -/
theorem advance (h : w.Sound) {stage stage' : Stage} (hr : w.requests r = some (k, stage'))
    (hslot : ∀ i, stage.slot? = some i → stage'.slot? = some i) (hl : ∀ i, stage ≠ .loading i) :
    (w.put r k stage).Sound :=
  h.put (fun i hi => h.slot_lt r k stage' i hr (hslot i hi)) fun i hi => absurd hi (hl i)

theorem step (h : w.Sound) (hs : Step w e w') : w'.Sound := by
  cases hs with
  | call new => exact h.put (fun i hi => nomatch hi) fun i hi => nomatch hi
  | find at_ => exact h.obtain (Cache.offers_slotFor _ _) (.inl rfl)
  | replace at_ | adopt at_ => exact h.obtain (Cache.offers_renew _ _ _) (.inr rfl)
  | keep at_ | expire at_ | serve at_ => exact h.advance at_ (fun i hi => hi) (by simp)
  | dropWaiting at_ => exact h.advance at_ (fun i hi => nomatch hi) (by simp)
  | beginLoad at_ empty free =>
    refine (h.occupy empty free).put (fun i hi => h.slot_lt _ _ _ i at_ hi) fun i hi => ?_
    cases hi
    simp
  | endLoad at_ schema done =>
    exact (h.stop at_ (.inr ⟨_, rfl⟩)).fill (h.slot_lt _ _ _ _ at_ rfl) (by simp) _
  | failLoad at_ => exact h.stop at_ (.inr ⟨_, rfl⟩)
  | dropLoading at_ => exact h.stop at_ (.inl rfl)
  | invalidate k => exact h.withCache (Nat.le_refl _) fun _ => rfl
  | clear => exact h.withCache (Nat.le_refl _) fun _ => rfl

theorem run (h : w.Sound) (hrun : Run w es w') : w'.Sound := by
  induction hrun with
  | nil => exact h
  | cons first _ ih => exact ih (h.step first)

end Traffic.Sound

/-! ### Contents -/

/-- What a slot holds it keeps. -/
theorem Step.contents?_eq (hw : w.Sound) (h : Step w e w') {x : CacheEntry}
    (hx : w.cache.contents? slot = some x) : w'.cache.contents? slot = some x := by
  cases h with
  | find => exact ((Cache.offers_slotFor _ _).contents?_eq _).trans hx
  | replace | adopt => exact ((Cache.offers_renew _ _ _).contents?_eq _).trans hx
  | @endLoad r i k at_ schema done =>
    -- A slot that is loaded into is empty, so it is another one that holds something.
    have hempty := hw.empty r i (hw.loader_eq r k i at_)
    have hne : slot ≠ i := by
      rintro rfl
      rw [hempty] at hx
      cases hx
    exact (Cache.contents?_fill (hw.slot_lt r k _ i at_ rfl) _ _).trans (by rw [if_neg hne, hx])
  | _ => exact hx

theorem Run.contents?_eq (hw : w.Sound) (h : Run w es w') {x : CacheEntry}
    (hx : w.cache.contents? slot = some x) : w'.cache.contents? slot = some x := by
  induction h with
  | nil => exact hx
  | cons first _ ih => exact ih (hw.step first) (first.contents?_eq hw hx)

theorem Step.empty_of_fills (hw : w.Sound) (h : Step w e w') (he : e.Fills slot) :
    w.cache.contents? slot = none ∧ (w'.cache.contents? slot).isSome := by
  obtain ⟨r, schema, rfl⟩ := he
  cases h with
  | @endLoad _ _ k at_ schema done =>
    have hfilled := Cache.contents?_fill (hw.slot_lt r k _ slot at_ rfl) ⟨schema, done⟩ slot
    exact ⟨hw.empty r slot (hw.loader_eq r k slot at_), by simp [hfilled]⟩

theorem Run.not_fills (hw : w.Sound) (h : Run w es w') (hx : (w.cache.contents? slot).isSome) :
    ∀ e ∈ es, ¬ e.Fills slot := by
  induction h with
  | nil => exact fun e he => nomatch he
  | cons first _ ih =>
    obtain ⟨x, hx⟩ := Option.isSome_iff_exists.mp hx
    refine List.forall_mem_cons.mpr ⟨fun hfills => ?_, ih (hw.step first) ?_⟩
    · rw [(first.empty_of_fills hw hfills).1] at hx
      cases hx
    · simp [first.contents?_eq hw hx]

/-- Whoever is answered with a schema is answered with the contents of its slot. -/
theorem Step.contents_of_answers (hw : w.Sound) (h : Step w e w') {schema : Schema}
    (he : e.Answers r slot schema) : ∃ x, w'.cache.contents? slot = some x ∧ x.schema = schema := by
  rcases he with rfl | rfl
  · cases h with
    | @endLoad _ _ k at_ schema done =>
      exact ⟨_, (Cache.contents?_fill (hw.slot_lt r k _ slot at_ rfl) _ _).trans (if_pos rfl), rfl⟩
  · cases h with
    | serve at_ filled => exact ⟨_, filled, rfl⟩

theorem Run.contents_of_answers (hw : w.Sound) (h : Run w es w') {schema : Schema} (he : e ∈ es)
    (hanswers : e.Answers r slot schema) : ∃ x, w'.cache.contents? slot = some x ∧ x.schema = schema := by
  induction h with
  | nil => cases he
  | cons first rest ih =>
    rcases List.mem_cons.mp he with rfl | he
    · obtain ⟨x, hx, hschema⟩ := first.contents_of_answers hw hanswers
      exact ⟨x, rest.contents?_eq (hw.step first) hx, hschema⟩
    · exact ih (hw.step first) he

/-- Contents that were not there before were loaded. -/
theorem Step.contents_cases (h : Step w e w') {x : CacheEntry} (hw : w.Sound)
    (hx : w'.cache.contents? slot = some x) :
    w.cache.contents? slot = some x ∨ ∃ r, e = .endLoad r slot x.schema := by
  cases h with
  | find => exact .inl (((Cache.offers_slotFor _ _).contents?_eq _).symm.trans hx)
  | replace | adopt => exact .inl (((Cache.offers_renew _ _ _).contents?_eq _).symm.trans hx)
  | @endLoad r i k at_ schema done =>
    have hfill := Cache.contents?_fill (hw.slot_lt r k _ i at_ rfl) ⟨schema, done⟩ slot
    by_cases hi : slot = i
    · subst hi
      rw [if_pos rfl] at hfill
      cases hfill.symm.trans hx
      exact .inr ⟨r, rfl⟩
    · rw [if_neg hi] at hfill
      exact .inl (hfill.symm.trans hx)
  | _ => exact .inl hx

theorem Run.contents_cases (hw : w.Sound) (h : Run w es w') {x : CacheEntry}
    (hx : w'.cache.contents? slot = some x) :
    w.cache.contents? slot = some x ∨ ∃ r, .endLoad r slot x.schema ∈ es := by
  induction h with
  | nil => exact .inl hx
  | cons first _ ih =>
    rcases ih (hw.step first) hx with hx | ⟨r, hr⟩
    · rcases first.contents_cases hw hx with hx | ⟨r, rfl⟩
      · exact .inl hx
      · exact .inr ⟨r, List.mem_cons_self⟩
    · exact .inr ⟨r, .tail _ hr⟩

/-! ### Slots of keys -/

/-- A slot that a key has behind a step it had before, or it is greater than all that were made. -/
theorem Step.slot_cases (h : Step w e w') (hk : w'.cache.slot? k = some slot) :
    w.cache.slot? k = some slot ∨ w.cache.slots.length ≤ slot := by
  have hoffer {given : Nat × Cache} {l : CacheKey} (hgiven : w.cache.Offers l given)
      (hk : given.2.slot? k = some slot) : w.cache.slot? k = some slot ∨ w.cache.slots.length ≤ slot := by
    rcases hgiven.of_slot? hk with hk | ⟨-, rfl⟩
    · exact .inl hk
    · exact .inr (Nat.le_refl _)
  cases h with
  | find => exact hoffer (Cache.offers_slotFor _ _) hk
  | replace | adopt => exact hoffer (Cache.offers_renew _ _ _) hk
  | invalidate l =>
    rw [Cache.slot?_invalidate] at hk
    split at hk
    · cases hk
    · exact .inl hk
  | clear => cases hk
  | _ => exact .inl hk

/-- A slot that was made and has no key any more. -/
def Traffic.Lost (w : Traffic) (slot : Nat) : Prop :=
  slot < w.cache.slots.length ∧ ∀ k, w.cache.slot? k ≠ some slot

theorem Step.lost (h : Step w e w') (hlost : w.Lost slot) : w'.Lost slot := by
  refine ⟨Nat.lt_of_lt_of_le hlost.1 h.length_le, fun k hk => ?_⟩
  rcases h.slot_cases hk with hk | hle
  · exact hlost.2 k hk
  · exact Nat.not_lt_of_le hle hlost.1

theorem Step.lost_of_replaces (h : Step w e w') (he : e.Replaces slot) :
    (∃ k, w.cache.slot? k = some slot) ∧ w'.Lost slot := by
  obtain ⟨r, k, new, rfl⟩ := he
  cases h with
  | replace at_ same =>
    have hlt := Cache.slot_lt same
    refine ⟨⟨k, same⟩, ?_⟩
    rw [Cache.renew_of_some same]
    -- No other key had the old slot, and this key has a slot that was made just now.
    refine ⟨by simpa using Nat.lt_succ_of_lt hlt, fun l hl => ?_⟩
    rw [Traffic.cache_obtain, Cache.slot?_assign] at hl
    by_cases hlk : l = k
    · rw [if_pos hlk] at hl
      cases hl
      exact Nat.lt_irrefl _ hlt
    · rw [if_neg hlk] at hl
      exact hlk (Cache.eq_of_slot? hl same)

theorem Run.not_replaces (h : Run w es w') (hlost : w.Lost slot) : ∀ e ∈ es, ¬ e.Replaces slot := by
  induction h with
  | nil => exact fun e he => nomatch he
  | cons first _ ih =>
    refine List.forall_mem_cons.mpr ⟨fun hreplaces => ?_, ih (first.lost hlost)⟩
    obtain ⟨⟨k, hk⟩, -⟩ := first.lost_of_replaces hreplaces
    exact hlost.2 k hk

/-- The slot with which a renewal ends belongs to the key. -/
theorem Step.slot_of_renews {old : Nat} (h : Step w e w') (he : e.Renews r k old slot) :
    w'.cache.slot? k = some slot := by
  rcases he with rfl | rfl
  all_goals
    cases h
    exact (Cache.offers_renew _ _ _).slot?_eq

theorem Step.slot_ne_of_renews (hw : w.Sound) {old : Nat} (h : Step w e w') (he : e.Renews r k old slot) :
    slot ≠ old := by
  have hne {r : Nat} (hr : w.requests r = some (k, .outdated old)) (hnew : w.cache.renew k old = w.cache.assign k) :
      (w.cache.renew k old).1 ≠ old := by
    rw [hnew, Cache.assign_fst]
    exact Nat.ne_of_gt (hw.slot_lt r k _ old hr rfl)
  rcases he with rfl | rfl
  · cases h with
    | replace at_ same => exact hne at_ (Cache.renew_of_some same)
  · cases h with
    | adopt at_ other =>
      cases hk : w.cache.slot? k with
      | none => exact hne at_ (Cache.renew_of_none hk)
      | some i =>
        have hi : i ≠ old := fun hi => other (hi ▸ hk)
        rwa [Cache.renew_of_ne hk hi]

/-- A key keeps its slot until it is forgotten or the slot replaced. -/
theorem Step.keeps_slot (h : Step w e w') (hk : w.cache.slot? k = some slot) (hforgets : ¬ e.Forgets k)
    (hreplaces : ¬ e.Replaces slot) : w'.cache.slot? k = some slot := by
  cases h with
  | @find r l at_ =>
    by_cases hl : k = l
    · subst hl
      simpa [Cache.slotFor_of_some hk] using hk
    · exact ((Cache.offers_slotFor _ _).slot?_of_ne hl).trans hk
  | @replace r old l at_ same =>
    by_cases hl : k = l
    · subst hl
      cases same.symm.trans hk
      exact absurd ⟨r, k, _, rfl⟩ hreplaces
    · exact ((Cache.offers_renew _ _ _).slot?_of_ne hl).trans hk
  | @adopt r old l at_ other =>
    by_cases hl : k = l
    · subst hl
      have hne : slot ≠ old := fun h => other (h ▸ hk)
      simpa [Cache.renew_of_ne hk hne] using hk
    · exact ((Cache.offers_renew _ _ _).slot?_of_ne hl).trans hk
  | invalidate l =>
    have hl : k ≠ l := by
      rintro rfl
      exact hforgets (.inl rfl)
    simpa [hl] using hk
  | clear => exact absurd (.inr rfl) hforgets
  | _ => exact hk

theorem Run.keeps_slot (h : Run w es w') (hk : w.cache.slot? k = some slot) (hforgets : ∀ e ∈ es, ¬ e.Forgets k)
    (hreplaces : ∀ e ∈ es, ¬ e.Replaces slot) : w'.cache.slot? k = some slot := by
  induction h with
  | nil => exact hk
  | cons first _ ih =>
    obtain ⟨hforget, hforgets⟩ := List.forall_mem_cons.mp hforgets
    obtain ⟨hreplace, hreplaces⟩ := List.forall_mem_cons.mp hreplaces
    exact ih (first.keeps_slot hk hforget hreplace) hforgets hreplaces

/-- Requests that renew the same slot of a key share the slot with which the first of them goes on, as
long as the key has it. -/
theorem Step.shares {old slot' : Nat} (h : Step w e w') (hk : w.cache.slot? k = some slot) (hne : slot ≠ old)
    (he : e.Renews r k old slot') : slot' = slot := by
  rcases he with rfl | rfl
  · cases h with
    | replace at_ same => exact absurd (Option.some.inj (hk.symm.trans same)) hne
  · cases h with
    | adopt => rw [Cache.renew_of_ne hk hne]

/-! ### Forgotten keys -/

theorem Step.slot_of_forgets (h : Step w e w') (he : e.Forgets k) : w'.cache.slot? k = none := by
  rcases he with rfl | rfl
  · cases h
    simp
  · cases h
    rfl

/-- Where a load begins, its slot was made before. -/
theorem Run.lt_of_beginLoad (hw : w.Sound) (h : Run w es w') (he : .beginLoad r slot ∈ es) :
    slot < w'.cache.slots.length := by
  induction h with
  | nil => cases he
  | cons first rest ih =>
    rcases List.mem_cons.mp he with rfl | he
    · cases first with
      | beginLoad at_ => exact Nat.lt_of_lt_of_le (hw.slot_lt _ _ _ _ at_ rfl) rest.length_le
    · exact ih (hw.step first) he

/-- The key has no slot below `n`, and will not get one. -/
structure Traffic.Beyond (w : Traffic) (k : CacheKey) (n : Nat) : Prop where
  le_length : n ≤ w.cache.slots.length
  le_slot : ∀ slot, w.cache.slot? k = some slot → n ≤ slot

theorem Traffic.Beyond.step {n : Nat} (hb : w.Beyond k n) (h : Step w e w') : w'.Beyond k n where
  le_length := Nat.le_trans hb.le_length h.length_le
  le_slot slot hk := by
    rcases h.slot_cases hk with hk | hle
    · exact hb.le_slot slot hk
    · exact Nat.le_trans hb.le_length hle

/-- How a request for the key may move: it comes to hold the slot of the key, but once it is settled it
takes no other slot. -/
structure Advance (c : Cache) (k : CacheKey) (stage stage' : Stage) : Prop where
  slot_cases : ∀ i, stage'.slot? = some i → stage.slot? = some i ∨ c.slot? k = some i
  settled : stage.isSettled → stage'.isSettled ∧ ∀ i, stage'.slot? = some i → stage.slot? = some i

theorem Advance.refl (c : Cache) (k : CacheKey) (stage : Stage) : Advance c k stage stage where
  slot_cases _ hi := .inl hi
  settled hs := ⟨hs, fun _ hi => hi⟩

theorem Advance.exists_stage {stage stage₁ stage₂ : Stage} (hr : w.requests r = some (k, stage))
    (hs : w.requests s = some (l, stage₁)) (hw : w'.requests = Function.update w.requests s (some (l, stage₂)))
    (h : Advance w'.cache l stage₁ stage₂) :
    ∃ stage', w'.requests r = some (k, stage') ∧ Advance w'.cache k stage stage' := by
  rw [hw]
  by_cases hne : r = s
  · subst hne
    cases hr.symm.trans hs
    exact ⟨stage₂, by simp, h⟩
  · exact ⟨stage, by simpa [hne] using hr, .refl _ k stage⟩

/-- A request keeps its key. -/
theorem Step.exists_stage (h : Step w e w') {stage : Stage} (hr : w.requests r = some (k, stage)) :
    ∃ stage', w'.requests r = some (k, stage') ∧ Advance w'.cache k stage stage' := by
  have hoffer {l : CacheKey} {stage₁ : Stage} {stage₂ : Nat → Stage} {given : Nat × Cache}
      (hgiven : w.cache.Offers l given) (hslot : ∀ i, (stage₂ i).slot? = some i)
      (hstage : stage₁.isSettled = false) : Advance given.2 l stage₁ (stage₂ given.1) := by
    refine ⟨fun i hi => .inr ?_, fun hs => ?_⟩
    · rw [hslot] at hi
      exact hi ▸ hgiven.slot?_eq
    · rw [hstage] at hs
      cases hs
  cases h with
  | @call s l new =>
    have hne : r ≠ s := by
      rintro rfl
      rw [new] at hr
      cases hr
    exact ⟨stage, by simpa [hne] using hr, .refl _ k stage⟩
  | find at_ => exact Advance.exists_stage hr at_ rfl (hoffer (Cache.offers_slotFor _ _) (fun _ => rfl) rfl)
  | replace at_ | adopt at_ =>
    exact Advance.exists_stage hr at_ rfl (hoffer (Cache.offers_renew _ _ _) (fun _ => rfl) rfl)
  | keep at_ | beginLoad at_ | endLoad at_ | failLoad at_ | serve at_ =>
    exact Advance.exists_stage hr at_ rfl ⟨fun i hi => .inl hi, fun _ => ⟨rfl, fun i hi => hi⟩⟩
  | expire at_ => exact Advance.exists_stage hr at_ rfl ⟨fun i hi => .inl hi, fun hs => nomatch hs⟩
  | dropWaiting at_ _ | dropLoading at_ =>
    exact Advance.exists_stage hr at_ rfl ⟨fun _ hi => (nomatch hi), fun _ => ⟨rfl, fun _ hi => (nomatch hi)⟩⟩
  | invalidate _ | clear => exact ⟨stage, hr, .refl _ k stage⟩

/-- A request was made, for the key, and holds no slot below `n`. -/
def Traffic.Holds (w : Traffic) (r : Nat) (k : CacheKey) (n : Nat) : Prop :=
  ∃ stage, w.requests r = some (k, stage) ∧ ∀ i, stage.slot? = some i → n ≤ i

theorem Step.holds {n : Nat} (h : Step w e w') (hb : w.Beyond k n) (hr : w.Holds r k n) : w'.Holds r k n := by
  obtain ⟨stage, hstage, hle⟩ := hr
  obtain ⟨stage', hstage', hadvance⟩ := h.exists_stage hstage
  refine ⟨stage', hstage', fun i hi => ?_⟩
  rcases hadvance.slot_cases i hi with hi | hk
  · exact hle i hi
  · exact (hb.step h).le_slot i hk

theorem Step.held_of_answers (h : Step w e w') {schema : Schema} (he : e.Answers r slot schema) :
    ∃ l stage, w.requests r = some (l, stage) ∧ stage.slot? = some slot := by
  rcases he with rfl | rfl
  · cases h with
    | endLoad at_ => exact ⟨_, _, at_, rfl⟩
  · cases h with
    | serve at_ => exact ⟨_, _, at_, rfl⟩

/-- A request that is settled is answered from the slot that it has. -/
theorem Run.slot_of_answers (h : Run w es w') {stage : Stage} (hr : w.requests r = some (k, stage))
    (hsettled : stage.isSettled) {schema : Schema} (he : e ∈ es) (hanswers : e.Answers r slot schema) :
    stage.slot? = some slot := by
  induction h generalizing stage with
  | nil => cases he
  | cons first rest ih =>
    rcases List.mem_cons.mp he with rfl | he
    · obtain ⟨l, stage', hstage', hslot⟩ := first.held_of_answers hanswers
      cases hr.symm.trans hstage'
      exact hslot
    · obtain ⟨stage', hstage', hadvance⟩ := first.exists_stage hr
      obtain ⟨hsettled', hslots⟩ := hadvance.settled hsettled
      exact hslots slot (ih hstage' hsettled' he)

theorem Step.bound_of_renews {old : Nat} (h : Step w e w') (he : e.Renews r k old slot) :
    w'.requests r = some (k, .bound slot) := by
  rcases he with rfl | rfl
  all_goals
    cases h
    simp

theorem Run.le_of_answers {n : Nat} (h : Run w es w') (hb : w.Beyond k n) (hr : w.Holds r k n) {schema : Schema}
    (he : e ∈ es) (hanswers : e.Answers r slot schema) : n ≤ slot := by
  induction h with
  | nil => cases he
  | cons first rest ih =>
    rcases List.mem_cons.mp he with rfl | he
    · obtain ⟨stage, hstage, hle⟩ := hr
      obtain ⟨l, stage', hstage', hslot⟩ := first.held_of_answers hanswers
      cases hstage.symm.trans hstage'
      exact hle slot hslot
    · exact ih (hb.step first) (first.holds hb hr) he

/-- A request that was made is not made again. -/
theorem Run.requests_eq_none (h : Run w es w') (hcall : .call r k ∈ es) : w.requests r = none := by
  induction h with
  | nil => cases hcall
  | @cons w v _ e es first rest ih =>
    rcases List.mem_cons.mp hcall with rfl | hcall
    · cases first with
      | call new => exact new
    · have hnone := ih hcall
      cases hr : w.requests r with
      | none => rfl
      | some x =>
        obtain ⟨l, stage⟩ := x
        obtain ⟨stage', hstage', -⟩ := first.exists_stage hr
        rw [hnone] at hstage'
        cases hstage'

/-- Whoever asks behind an invalidation is answered from a slot that was made behind it. -/
theorem Run.le_of_call {n : Nat} (h : Run w es w') (hb : w.Beyond k n) (hcall : .call r k ∈ es)
    {schema : Schema} (he : e ∈ es) (hanswers : e.Answers r slot schema) : n ≤ slot := by
  induction h with
  | nil => cases he
  | @cons w v _ e₁ es first rest ih =>
    have hnone := (Run.cons first rest).requests_eq_none hcall
    rcases List.mem_cons.mp he with rfl | hlater
    · obtain ⟨l, stage, hstage, -⟩ := first.held_of_answers hanswers
      rw [hnone] at hstage
      cases hstage
    · rcases List.mem_cons.mp hcall with rfl | hcall
      · cases first with
        | call new =>
          have hheld : (w.put r k .called).Holds r k n := ⟨.called, by simp, fun i hi => nomatch hi⟩
          exact rest.le_of_answers (hb.step (.call new)) hheld hlater hanswers
      · exact ih (hb.step first) hcall hlater

/-! ### A request alone

Without another request between its steps, a request does to the cache what a single use of it does. -/

theorem exists_run_liveSlot (w : Traffic) (hnew : w.requests r = none) (now : Nat) (k : CacheKey) :
    ∃ es w', Run w es w' ∧ w'.cache = (w.cache.liveSlot now k).2 ∧
      w'.requests r = some (k, .bound (w.cache.liveSlot now k).1) ∧ w'.loader = w.loader := by
  have hcall : Step w _ (w.put r k .called) := .call hnew
  have hfind : Step (w.put r k .called) _ ((w.put r k .called).obtain r k .found (w.cache.slotFor k)) :=
    .find (by simp)
  generalize hv : (w.put r k .called).obtain r k .found (w.cache.slotFor k) = v at hfind
  have hfound : v.requests r = some (k, .found (w.cache.slotFor k).1) := by simp [← hv]
  have hcache : v.cache = (w.cache.slotFor k).2 := by simp [← hv]
  have hloader : v.loader = w.loader := by simp [← hv]
  by_cases hold : (w.cache.slotFor k).2.isExpired now (w.cache.slotFor k).1 = true
  · have hexpire := Step.expire hfound now (hcache ▸ hold)
    have hsame : v.cache.slot? k = some (w.cache.slotFor k).1 := by
      rw [hcache]
      exact (Cache.offers_slotFor w.cache k).slot?_eq
    have houtdated : (v.put r k (.outdated (w.cache.slotFor k).1)).requests r =
        some (k, .outdated (w.cache.slotFor k).1) := by
      simp
    have hreplace := Step.replace houtdated hsame
    refine ⟨_, _, .cons hcall (.cons hfind (.cons hexpire (.cons hreplace (.nil _)))), ?_⟩
    simp [Cache.liveSlot, hold, hcache, hloader]
  · have hyoung : (w.cache.slotFor k).2.isExpired now (w.cache.slotFor k).1 = false := by simpa using hold
    have hkeep := Step.keep hfound now (hcache ▸ hyoung)
    refine ⟨_, _, .cons hcall (.cons hfind (.cons hkeep (.nil _))), ?_⟩
    simp [Cache.liveSlot, hyoung, hcache, hloader]

theorem exists_run_getOrLoadUntil {σ : Type} (w : Traffic) (hnew : w.requests r = none)
    (hidle : ∀ slot, w.loader slot = none) (hc : w.cache.enabled = true) (now done : Nat) (k : CacheKey)
    (load : σ → Except Error Schema × σ) (s : σ) :
    let result := w.cache.getOrLoadUntil now done k load s
    ∃ es w' slot, Run w es w' ∧ w'.cache = result.2.1 ∧ w'.requests r = some (k, .answered slot result.1) := by
  obtain ⟨es, w', hrun, hcache, hbound, hloader⟩ := exists_run_liveSlot w hnew now k
  cases he : (w.cache.liveSlot now k).2.contents? (w.cache.liveSlot now k).1 with
  | some e =>
    have hserve := Step.serve hbound (hcache ▸ he)
    rw [Cache.getOrLoadUntil_of_some hc he]
    exact ⟨_, _, _, Run.append_iff.mpr ⟨w', hrun, .cons hserve (.nil _)⟩, hcache, by simp; rfl⟩
  | none =>
    have hfree : w'.loader (w.cache.liveSlot now k).1 = none := by rw [hloader, hidle]
    have hbegin := Step.beginLoad hbound (hcache ▸ he) hfree
    rw [Cache.getOrLoadUntil_of_none hc he]
    generalize hv : (w'.setLoader _ _).put r k _ = v at hbegin
    have hloading : v.requests r = some (k, .loading (w.cache.liveSlot now k).1) := by simp [← hv]
    cases hresult : (load s).1 with
    | ok schema =>
      have hend := Step.endLoad hloading schema done
      refine ⟨_, _, _, Run.append_iff.mpr ⟨w', hrun, .cons hbegin (.cons hend (.nil _))⟩, ?_, by simp; rfl⟩
      simp [Cache.settle, ← hv, hcache]
    | error e =>
      have hfail := Step.failLoad hloading e
      refine ⟨_, _, _, Run.append_iff.mpr ⟨w', hrun, .cons hbegin (.cons hfail (.nil _))⟩, ?_, by simp; rfl⟩
      simp [Cache.settle, ← hv, hcache]

/-! ### What holds of every run -/

theorem Run.fills_once (hw : w.Sound) (h : Run w es w') (slot : Nat) :
    es.Pairwise fun e e' => e.Fills slot → ¬ e'.Fills slot := by
  induction h with
  | nil => exact .nil
  | cons first rest ih =>
    have hsound := hw.step first
    refine .cons (fun e he hfills => ?_) (ih hsound)
    exact rest.not_fills hsound (first.empty_of_fills hw hfills).2 e he

theorem Run.replaces_once (h : Run w es w') (slot : Nat) :
    es.Pairwise fun e e' => e.Replaces slot → ¬ e'.Replaces slot := by
  induction h with
  | nil => exact .nil
  | cons first rest ih =>
    exact .cons (fun e he hreplaces => rest.not_replaces (first.lost_of_replaces hreplaces).2 e he) ih

structure Consistent (es : List Event) (w : Traffic) : Prop where
  filled_once : ∀ slot, es.Pairwise fun e e' => e.Fills slot → ¬ e'.Fills slot
  /-- Whoever is answered with a schema gets the one that was loaded into its slot. -/
  answered_from_load : ∀ r slot schema, ∀ e ∈ es, e.Answers r slot schema →
    (∃ s, .endLoad s slot schema ∈ es) ∧ ∀ s other, .endLoad s slot other ∈ es → other = schema
  loads_alone : ∀ slot r s k l, w.requests r = some (k, .loading slot) → w.requests s = some (l, .loading slot) →
    r = s
  replaced_once : ∀ slot, es.Pairwise fun e e' => e.Replaces slot → ¬ e'.Replaces slot
  /-- Requests that found the same slot expired go on with the same slot, unless the key is forgotten or that
  slot replaced between them. -/
  renewals_share : ∀ r s k old slot slot' before between behind e e',
    es = before ++ e :: (between ++ e' :: behind) → e.Renews r k old slot → e'.Renews s k old slot' →
    (∀ b ∈ between, ¬ b.Forgets k ∧ ¬ b.Replaces slot) → slot' = slot
  /-- A request that has renewed is answered from the slot with which it goes on. -/
  renewed_answers : ∀ r k old slot slot' schema before behind e, es = before ++ e :: behind →
    e.Renews r k old slot → ∀ e' ∈ behind, e'.Answers r slot' schema → slot' = slot
  /-- Who asks after a key was forgotten is not answered from a load that began before. -/
  forgotten : ∀ k r slot schema before behind f, es = before ++ f :: behind → f.Forgets k → .call r k ∈ behind →
    ∀ e ∈ behind, e.Answers r slot schema → ∀ s, .beginLoad s slot ∉ before

theorem run_consistent {ttl : Option Nat} (h : Run (.initial ttl) es w) : Consistent es w where
  filled_once := h.fills_once (Traffic.sound_initial ttl)
  answered_from_load r slot schema e he hanswers := by
    have hsound := Traffic.sound_initial ttl
    obtain ⟨x, hx, rfl⟩ := h.contents_of_answers hsound he hanswers
    refine ⟨?_, fun s other hother => ?_⟩
    · rcases h.contents_cases hsound hx with hnew | hload
      · cases hnew
      · exact hload
    · obtain ⟨y, hy, rfl⟩ := h.contents_of_answers hsound hother (.inl rfl)
      cases hx.symm.trans hy
      rfl
  loads_alone slot r s k l := ((Traffic.sound_initial ttl).run h).loading_unique
  replaced_once := h.replaces_once
  renewals_share r s k old slot slot' before between behind e e' hes he he' hbetween := by
    rw [hes, Run.append_iff] at h
    obtain ⟨v, hv, h⟩ := h
    obtain ⟨v₁, hv₁, h⟩ := Run.cons_iff.mp h
    obtain ⟨v₂, hv₂, h⟩ := Run.append_iff.mp h
    obtain ⟨v₃, hv₃, -⟩ := Run.cons_iff.mp h
    have hne := hv₁.slot_ne_of_renews ((Traffic.sound_initial ttl).run hv) he
    have hkept := hv₂.keeps_slot (hv₁.slot_of_renews he) (fun b hb => (hbetween b hb).1) fun b hb => (hbetween b hb).2
    exact hv₃.shares hkept hne he'
  renewed_answers r k old slot slot' schema before behind e hes he e' he' hanswers := by
    rw [hes, Run.append_iff] at h
    obtain ⟨v, -, h⟩ := h
    obtain ⟨v₁, hv₁, h⟩ := Run.cons_iff.mp h
    have hslot := h.slot_of_answers (hv₁.bound_of_renews he) rfl he' hanswers
    exact (Option.some.inj hslot).symm
  forgotten k r slot schema before behind f hes hf hcall e he hanswers s hs := by
    rw [hes, Run.append_iff] at h
    obtain ⟨v, hv, h⟩ := h
    obtain ⟨v₁, hv₁, h⟩ := Run.cons_iff.mp h
    -- Slots of loads that began before have numbers below those that are made from here on.
    have hlt := hv.lt_of_beginLoad (Traffic.sound_initial ttl) hs
    have hbeyond : v₁.Beyond k v.cache.slots.length :=
      ⟨hv₁.length_le, fun i hi => by rw [hv₁.slot_of_forgets hf] at hi; cases hi⟩
    exact Nat.not_lt_of_le (h.le_of_call hbeyond hcall he hanswers) hlt

/-- Two requests share a load; two more find it too old and share a reload; while that one runs the key is
forgotten, and whoever asks then loads anew. -/
def reloads : List Event := [
  .call 0 .allTables, .find 0 0, .call 1 .allTables, .keep 0 0, .find 1 0, .beginLoad 0 0, .keep 1 0,
  .endLoad 0 0 .empty, .serve 1 0 .empty,
  .call 2 .allTables, .find 2 0, .call 3 .allTables, .find 3 0, .expire 3 0, .expire 2 0,
  .replace 2 .allTables 0 1, .beginLoad 2 1, .adopt 3 .allTables 0 1,
  .invalidate .allTables, .call 4 .allTables, .find 4 2, .keep 4 2, .beginLoad 4 2,
  .endLoad 2 1 .empty, .serve 3 1 .empty, .endLoad 4 2 (.ofTables [("users", [])])]

theorem run_consistent_reloads : ∃ w, Run (.initial (some 10)) reloads w ∧ Consistent reloads w := by
  have h : ∃ w, Run (.initial (some 10)) reloads w := by
    refine Run.exists_cons (.call rfl) ?_
    refine Run.exists_cons (.find (k := .allTables) rfl) ?_
    refine Run.exists_cons (.call rfl) ?_
    refine Run.exists_cons (.keep (k := .allTables) rfl 0 rfl) ?_
    refine Run.exists_cons (.find (k := .allTables) rfl) ?_
    refine Run.exists_cons (.beginLoad (k := .allTables) rfl rfl rfl) ?_
    refine Run.exists_cons (.keep (k := .allTables) rfl 0 rfl) ?_
    refine Run.exists_cons (.endLoad (k := .allTables) rfl _ 5) ?_
    refine Run.exists_cons (.serve (k := .allTables) (e := ⟨.empty, 5⟩) rfl rfl) ?_
    refine Run.exists_cons (.call rfl) ?_
    refine Run.exists_cons (.find (k := .allTables) rfl) ?_
    refine Run.exists_cons (.call rfl) ?_
    refine Run.exists_cons (.find (k := .allTables) rfl) ?_
    refine Run.exists_cons (.expire (k := .allTables) rfl 15 rfl) ?_
    refine Run.exists_cons (.expire (k := .allTables) rfl 15 rfl) ?_
    refine Run.exists_cons (.replace (k := .allTables) rfl rfl) ?_
    refine Run.exists_cons (.beginLoad (k := .allTables) rfl rfl rfl) ?_
    refine Run.exists_cons (.adopt (k := .allTables) rfl (by decide)) ?_
    refine Run.exists_cons (.invalidate _) ?_
    refine Run.exists_cons (.call rfl) ?_
    refine Run.exists_cons (.find (k := .allTables) rfl) ?_
    refine Run.exists_cons (.keep (k := .allTables) rfl 15 rfl) ?_
    refine Run.exists_cons (.beginLoad (k := .allTables) rfl rfl rfl) ?_
    refine Run.exists_cons (.endLoad (k := .allTables) rfl _ 18) ?_
    refine Run.exists_cons (.serve (k := .allTables) (e := ⟨.empty, 18⟩) rfl rfl) ?_
    exact ⟨_, .cons (.endLoad (k := .allTables) rfl _ 20) (.nil _)⟩
  obtain ⟨w, hw⟩ := h
  exact ⟨w, hw, run_consistent hw⟩

end Parlance.Schema
