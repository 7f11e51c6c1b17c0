import Mathlib
import Parlance.Engine.Scripted
import Parlance.Executor
import Parlance.Proofs.Schema.Expiring
import Parlance.Proofs.Text.Lowered
import Parlance.Sqlite.Engine

/-! Answers from the cache about a catalog that stands still. Requests share an entry if their names
are the same in lower case, by all of Unicode. Engines compare names otherwise: by every character, or
up to the case of ASCII letters. So a request can be answered with what was found under the spelling
of an earlier one, and it is only names whose spellings the engine takes for the same that the cache
serves as the engine would. -/

namespace Parlance

open Schema (Cache CacheKey ExpiringMap)

variable {σ : Type} {e : Engine σ} {describe : Option String → Schema} {stays : σ → Prop}

/-- In the states that stay the engine describes one catalog, whenever it answers at all. -/
structure Engine.Steady (e : Engine σ) (describe : Option String → Schema) (stays : σ → Prop) : Prop where
  answer : ∀ table s schema, stays s → (e.introspect table s).1 = .ok schema → schema = describe table
  stays_on : ∀ table s, stays s → stays (e.introspect table s).2

/-- In the states that stay the engine does not fail. -/
def Engine.Responsive (e : Engine σ) (stays : σ → Prop) : Prop :=
  ∀ table s, stays s → ∃ schema, (e.introspect table s).1 = .ok schema

/-- A table that is asked for, or all of them, and when. -/
structure Inquiry where
  now : Nat
  table : Option String

namespace Inquiry

def key (q : Inquiry) : CacheKey := .ofRequest q.table

def answer (e : Engine σ) (q : Inquiry) (s : Session σ) : Except Error Schema × Session σ :=
  Executor.schema e q.now q.table s

end Inquiry

/-- The session behind inquiries that were made one after another. -/
def Session.behind (e : Engine σ) (s : Session σ) (qs : List Inquiry) : Session σ :=
  qs.foldl (fun s q => (q.answer e s).2) s

/-- Whatever was asked before, an answer is what the engine says to the same inquiry. -/
def Session.Transparent (e : Engine σ) (describe : Option String → Schema) (s : Session σ) : Prop :=
  ∀ (before : List Inquiry) (q : Inquiry) (schema : Schema),
    (q.answer e (s.behind e before)).1 = .ok schema → schema = describe q.table

/-! ### Engines -/

namespace Scripted

def described (schema : Schema) : Option String → Schema
  | some t => schema.only t
  | none => schema

def Keeps (schema : Schema) (state : State) : Prop := state.schema = schema ∧ state.failures = []

variable {d : Dialect} {schema : Schema}

theorem introspect_eq {state : State} (h : Keeps schema state) (table : Option String) :
    (engine d).introspect table state = (.ok (described schema table), state.record (.introspect table)) := by
  obtain ⟨rfl, hf⟩ := h
  have hf' : (state.record (.introspect table)).failures = [] := hf
  cases table <;> simp [engine, introspect, hf', described] <;> rfl

theorem steady : (engine d).Steady (described schema) (Keeps schema) where
  answer table s answer h ha := by
    rw [introspect_eq h] at ha
    cases ha
    rfl
  stays_on table s h := by
    rw [introspect_eq h]
    exact h

theorem responsive : (engine d).Responsive (Keeps schema) :=
  fun table s h => ⟨_, by rw [introspect_eq h]⟩

end Scripted

namespace Sqlite

def described (db : Database) : Option String → Schema
  | some t => schemaOf (db.find? t).toList
  | none => schemaOf (db.tables.filter isShown)

def Keeps (db : Database) (state : State) : Prop := state.database = db ∧ state.closed = false

variable {settings : Settings} {db : Database}

theorem introspect_eq {state : State} (h : Keeps db state) (table : Option String) :
    (engine settings).introspect table state = (.ok (described db table), state) := by
  obtain ⟨rfl, hopen⟩ := h
  cases table <;> simp [engine, introspect, hopen, described]

theorem steady : (engine settings).Steady (described db) (Keeps db) where
  answer table s answer h ha := by
    rw [introspect_eq h] at ha
    cases ha
    rfl
  stays_on table s h := by
    rw [introspect_eq h]
    exact h

theorem responsive : (engine settings).Responsive (Keeps db) :=
  fun table s h => ⟨_, by rw [introspect_eq h]⟩

/-- The engine takes names for the same that share a key, if they are ASCII. -/
theorem described_eq_of_ascii {a b : String} (ha : ∀ c ∈ a.toList, c.toNat < 128) (hb : ∀ c ∈ b.toList, c.toNat < 128)
    (h : CacheKey.ofRequest (some a) = CacheKey.ofRequest (some b)) : described db (some a) = described db (some b) := by
  have hlower : Text.lower a.toList = Text.lower b.toList := by
    simpa [Schema.CacheKey.ofRequest, String.ofList_inj] using h
  rw [Text.lower_ascii ha, Text.lower_ascii hb] at hlower
  have hsame (t : StoredTable) : sameName t.name a = sameName t.name b := by
    rw [sameName, sameName, Text.sameWord, Text.sameWord, hlower]
  simp only [described, Database.find?, hsame]

end Sqlite

/-! ### What the cache holds -/

/-- Everything in the map was described for an inquiry with its key. -/
def Recalls (describe : Option String → Schema) (qs : List Inquiry) (m : ExpiringMap) : Prop :=
  ∀ k x, m.lookup k = some x → ∃ q ∈ qs, q.key = k ∧ x.schema = describe q.table

namespace Recalls

variable {qs : List Inquiry} {m : ExpiringMap} {q : Inquiry}

theorem empty : Recalls describe [] ∅ := fun _ _ h => nomatch h

theorem mono (h : Recalls describe qs m) (q : Inquiry) : Recalls describe (qs ++ [q]) m := by
  intro k x hx
  obtain ⟨p, hp, hkey, hschema⟩ := h k x hx
  exact ⟨p, List.mem_append_left _ hp, hkey, hschema⟩

theorem store (h : Recalls describe qs m) (q : Inquiry) {r : Except Error Schema}
    (hr : ∀ schema, r = .ok schema → schema = describe q.table) :
    Recalls describe (qs ++ [q]) (m.store q.key q.now r) := by
  intro k x hx
  by_cases hk : k = q.key
  · subst hk
    cases r with
    | ok schema =>
      rw [ExpiringMap.store, Finmap.lookup_insert] at hx
      cases hx
      exact ⟨q, by simp, rfl, hr schema rfl⟩
    | error e =>
      rw [ExpiringMap.store, Finmap.lookup_erase] at hx
      cases hx
  · refine h.mono q k x ?_
    cases r with
    | ok schema => rwa [ExpiringMap.store, Finmap.lookup_insert_of_ne _ hk] at hx
    | error e => rwa [ExpiringMap.store, Finmap.lookup_erase_ne hk] at hx

end Recalls

theorem Inquiry.answer_refines (e : Engine σ) {s : Session σ} {ttl : Option Nat} {m : ExpiringMap}
    (h : s.cache.Refines ttl m) (q : Inquiry) :
    let served := ExpiringMap.serve ttl m s.engine (.get q.now q.now q.key (e.introspect q.table))
    some (q.answer e s).1 = served.1 ∧ (q.answer e s).2.engine = served.2.2 ∧
      (q.answer e s).2.cache.Refines ttl served.2.1 :=
  Cache.serve_refines h s.engine (.get q.now q.now q.key (e.introspect q.table))

/-- A session whose cache stands for a map of what was described before. -/
structure Session.Informed (describe : Option String → Schema) (stays : σ → Prop) (ttl : Option Nat)
    (qs : List Inquiry) (s : Session σ) : Prop where
  stays : stays s.engine
  recalls : ∃ m, s.cache.Refines ttl m ∧ Recalls describe qs m

namespace Session.Informed

variable {ttl : Option Nat} {qs : List Inquiry} {s : Session σ}

theorem fresh (hs : stays s.engine) (hc : s.cache = .new true ttl) : s.Informed describe stays ttl [] :=
  ⟨hs, ∅, hc ▸ ⟨rfl, rfl, .new true ttl⟩, .empty⟩

/-- An inquiry is answered with what the engine said to one with its key, earlier or now. -/
theorem step (he : e.Steady describe stays) (h : s.Informed describe stays ttl qs) (q : Inquiry) :
    (q.answer e s).2.Informed describe stays ttl (qs ++ [q]) ∧
      ∀ schema, (q.answer e s).1 = .ok schema →
        ∃ p ∈ qs ++ [q], p.key = q.key ∧ schema = describe p.table := by
  obtain ⟨m, hm, hrecalls⟩ := h.recalls
  have hloaded (schema : Schema) (hs : (e.introspect q.table s.engine).1 = .ok schema) :
      schema = describe q.table :=
    he.answer _ _ _ h.stays hs
  obtain ⟨hanswer, hengine, hnext⟩ := Inquiry.answer_refines e hm q
  rw [ExpiringMap.serve] at hanswer hengine hnext
  cases hyoung : m.young? ttl q.now q.key with
  | some x =>
    rw [hyoung] at hanswer hengine hnext
    refine ⟨⟨hengine ▸ h.stays, m, hnext, hrecalls.mono q⟩, fun schema hschema => ?_⟩
    rw [hschema] at hanswer
    cases hanswer
    exact hrecalls.mono q _ x (Option.filter_eq_some_iff.mp hyoung).1
  | none =>
    rw [hyoung] at hanswer hengine hnext
    have hstays := he.stays_on q.table s.engine h.stays
    refine ⟨⟨hengine ▸ hstays, _, hnext, hrecalls.store q hloaded⟩, fun schema hschema => ?_⟩
    rw [hschema] at hanswer
    exact ⟨q, by simp, rfl, hloaded schema (Option.some.inj hanswer).symm⟩

theorem behind (he : e.Steady describe stays) (h : s.Informed describe stays ttl qs) (ps : List Inquiry) :
    (s.behind e ps).Informed describe stays ttl (qs ++ ps) := by
  induction ps generalizing s qs with
  | nil => rwa [List.append_nil]
  | cons p ps ih =>
    have hnext := ih (h.step he p).1
    rwa [List.append_assoc] at hnext

end Session.Informed

/-! ### When the cache cannot be noticed -/

variable {ttl : Option Nat} {s : Session σ}

/-- Of two inquiries that share a key, the second is answered like the first if it follows at once. -/
theorem Session.Transparent.describe_eq (h : s.Transparent e describe) (he : e.Steady describe stays)
    (hs : stays s.engine) (hc : s.cache = .new true ttl) (hanswers : e.Responsive stays) (httl : ttl ≠ some 0)
    {a b : Option String} (hkey : CacheKey.ofRequest a = CacheKey.ofRequest b) : describe a = describe b := by
  obtain ⟨schema, hschema⟩ := hanswers a s.engine hs
  have hfirst := he.answer _ _ _ hs hschema
  have hm : s.cache.Refines ttl ∅ := hc ▸ ⟨rfl, rfl, .new true ttl⟩
  have hmap : (ExpiringMap.serve ttl ∅ s.engine (.get 0 0 (.ofRequest a) (e.introspect a))).2.1 =
      Finmap.insert (CacheKey.ofRequest b) ⟨schema, 0⟩ ∅ := by
    simp [ExpiringMap.serve, ExpiringMap.young?, ExpiringMap.store, hschema, hkey]
  have hnext : (s.behind e [⟨0, a⟩]).cache.Refines ttl (Finmap.insert (CacheKey.ofRequest b) ⟨schema, 0⟩ ∅) :=
    hmap ▸ (Inquiry.answer_refines e hm ⟨0, a⟩).2.2
  have hyoung : (ttl.all fun t => decide (0 < t)) = true := by
    cases ttl with
    | none => rfl
    | some n =>
      have hn : 0 < n := Nat.pos_of_ne_zero fun hn => httl (hn ▸ rfl)
      simpa using hn
  have hsecond : (Inquiry.answer e ⟨0, b⟩ (s.behind e [⟨0, a⟩])).1 = .ok schema := by
    refine Option.some.inj ((Inquiry.answer_refines e hnext ⟨0, b⟩).1.trans ?_)
    simp [Inquiry.key, ExpiringMap.serve, ExpiringMap.young?, Option.filter, hyoung]
  exact hfirst.symm.trans (h [⟨0, a⟩] ⟨0, b⟩ schema hsecond)

theorem Session.recalled (he : e.Steady describe stays) (hs : stays s.engine) (hc : s.cache = .new true ttl)
    (before : List Inquiry) (q : Inquiry) (schema : Schema) (h : (q.answer e (s.behind e before)).1 = .ok schema) :
    ∃ p ∈ before ++ [q], p.key = q.key ∧ schema = describe p.table := by
  have hfresh : s.Informed describe stays ttl [] := .fresh hs hc
  have hbefore := hfresh.behind he before
  exact (hbefore.step he q).2 schema h

/-- Behind any inquiries, an answer is what the engine says to one of those with the same key. So the
cache cannot be noticed if, and with an engine that answers only if, inquiries that share a key are all
the same to the engine. -/
theorem Session.answer_recalled (he : e.Steady describe stays) (hs : stays s.engine) (hc : s.cache = .new true ttl) :
    (∀ (before : List Inquiry) (q : Inquiry) (schema : Schema),
      (q.answer e (s.behind e before)).1 = .ok schema →
        ∃ p ∈ before ++ [q], p.key = q.key ∧ schema = describe p.table) ∧
    (e.Responsive stays → ttl ≠ some 0 → (s.Transparent e describe ↔
      ∀ a b, CacheKey.ofRequest a = CacheKey.ofRequest b → describe a = describe b)) := by
  refine ⟨Session.recalled he hs hc, fun hanswers httl => ⟨fun h a b hkey => ?_, ?_⟩⟩
  · exact h.describe_eq he hs hc hanswers httl hkey
  · intro h before q schema hq
    obtain ⟨p, -, hkey, rfl⟩ := Session.recalled he hs hc before q schema hq
    exact h _ _ hkey

/-- A letter that the engine does not know, in both cases. -/
theorem Session.answer_recalled_accents :
    let db : Sqlite.Database := ⟨[⟨"É", [], none, [], [], false, 0, []⟩], 0, 0⟩
    let s : Session Sqlite.State := ⟨.new db, .new true none⟩
    let engine := Sqlite.engine ⟨0, 0⟩
    (∀ (before : List Inquiry) (q : Inquiry) (schema : Schema),
      (q.answer engine (s.behind engine before)).1 = .ok schema →
        ∃ p ∈ before ++ [q], p.key = q.key ∧ schema = Sqlite.described db p.table) ∧
      ¬ s.Transparent engine (Sqlite.described db) := by
  intro db s engine
  have hsteady : engine.Steady (Sqlite.described db) (Sqlite.Keeps db) := Sqlite.steady
  have h := Session.answer_recalled (s := s) hsteady ⟨rfl, rfl⟩ rfl
  refine ⟨h.1, fun ht => ?_⟩
  have hsame := (h.2 Sqlite.responsive (by simp)).mp ht (some "É") (some "é") (by cbv)
  have hne : Sqlite.described db (some "É") ≠ Sqlite.described db (some "é") := by decide +kernel
  exact hne hsame

/-- A table that was asked for in another case of letters is not found afterwards, by the engine that
takes every spelling for a name of its own and by the one that does not know the letter. -/
theorem Session.spelling_not_found :
    (let users : Schema := .ofTables [("Users", [.ofType "id" "integer"])]
     let s : Session Scripted.State := ⟨.new users, .new true none⟩
     let engine := Scripted.engine .postgres
     (Inquiry.answer engine ⟨0, some "Users"⟩ (s.behind engine [⟨0, some "users"⟩])).1 = .ok .empty ∧
      (engine.introspect (some "Users") s.engine).1 = .ok users) ∧
    (let table : Sqlite.StoredTable := ⟨"É", [], none, [], [], false, 0, []⟩
     let s : Session Sqlite.State := ⟨.new ⟨[table], 0, 0⟩, .new true none⟩
     let engine := Sqlite.engine ⟨0, 0⟩
     (Inquiry.answer engine ⟨0, some "É"⟩ (s.behind engine [⟨0, some "é"⟩])).1 = .ok .empty ∧
      (engine.introspect (some "É") s.engine).1 = .ok (.ofTables [("É", [])])) := by
  refine ⟨⟨?_, ?_⟩, ?_, ?_⟩ <;> cbv

/-- Where a name was never asked for in another spelling, it is answered for itself. -/
theorem Session.answer_of_one_spelling (he : e.Steady describe stays) (hs : stays s.engine)
    (hc : s.cache = .new true ttl) {before : List Inquiry} {q : Inquiry}
    (h : ∀ p ∈ before, p.key = q.key → p.table = q.table) {schema : Schema}
    (ha : (q.answer e (s.behind e before)).1 = .ok schema) : schema = describe q.table := by
  obtain ⟨p, hp, hkey, rfl⟩ := Session.recalled he hs hc before q schema ha
  rcases List.mem_append.mp hp with hp | hp
  · rw [h p hp hkey]
  · rw [List.mem_singleton.mp hp]

namespace Sqlite

variable {settings : Settings} {db : Database}

/-- On ASCII names the cache cannot be noticed. -/
theorem answer_of_ascii {state : State} (hs : Keeps db state) (ttl : Option Nat) {before : List Inquiry} {q : Inquiry}
    (hascii : ∀ p ∈ before ++ [q], ∀ name, p.table = some name → ∀ c ∈ name.toList, c.toNat < 128) {schema : Schema}
    (h : (q.answer (engine settings) (Session.behind (engine settings) ⟨state, .new true ttl⟩ before)).1 = .ok schema) :
    schema = described db q.table := by
  obtain ⟨p, hp, hkey, rfl⟩ := Session.recalled (s := ⟨state, .new true ttl⟩) steady hs rfl before q schema h
  have hq := hascii q (by simp)
  have hp := hascii p hp
  rw [Inquiry.key, Inquiry.key] at hkey
  cases hpt : p.table with
  | none =>
    cases hqt : q.table with
    | none => rfl
    | some b => rw [hpt, hqt] at hkey; cases hkey
  | some a =>
    cases hqt : q.table with
    | none => rw [hpt, hqt] at hkey; cases hkey
    | some b => exact described_eq_of_ascii (hp a hpt) (hq b hqt) (by rwa [hpt, hqt] at hkey)

end Sqlite
end Parlance
