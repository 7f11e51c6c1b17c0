import Parlance.Engine
import Parlance.Schema.Cache

/-! An engine together with the cache of its catalog. -/

namespace Parlance

open Schema (Cache CacheKey)

structure Session (σ : Type) where
  engine : σ
  cache : Cache

namespace Executor

def execute {σ : Type} (e : Engine σ) (sql : String) (params : List Param) (s : Session σ) :
    Except Error ExecutionResult × Session σ :=
  let (r, state) := e.execute sql params s.engine
  (r, { s with engine := state })

/-- The clock is read once: a load takes no time. -/
def schema {σ : Type} (e : Engine σ) (now : Nat) (table : Option String) (s : Session σ) :
    Except Error Schema × Session σ :=
  let (r, cache, state) := s.cache.getOrLoad now (CacheKey.ofRequest table) (e.introspect table) s.engine
  (r, ⟨state, cache⟩)

/-- Forgets one table and the description of all, or everything. -/
def refresh {σ : Type} (table : Option String) (s : Session σ) : Session σ :=
  match table with
  | some _ => { s with cache := (s.cache.invalidate (CacheKey.ofRequest table)).invalidate .allTables }
  | none => { s with cache := s.cache.clear }

def healthy {σ : Type} (e : Engine σ) (s : Session σ) : Bool × Session σ :=
  let (b, state) := e.healthy s.engine
  (b, { s with engine := state })

/-- Closing twice does no harm. -/
def shutdown {σ : Type} (e : Engine σ) (s : Session σ) : Session σ :=
  ⟨e.close s.engine, s.cache.clear⟩

end Executor

end Parlance
