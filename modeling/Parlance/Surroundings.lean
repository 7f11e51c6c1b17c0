import Parlance.Config.Environment
import Parlance.Config.Json
import Parlance.Pipeline
import Parlance.Server.Mysql
import Parlance.Server.Postgres
import Parlance.Server.Url
import Parlance.Server.Engine
import Parlance.Sqlite.Journal

/-! What a run of the program finds around it, asked for through a monad, and how the backend
that is configured is connected to. -/

namespace Parlance

structure Surroundings (m : Type → Type) where
  environment : m Environment
  file : String → m FileContents
  /-- The database of a file, which is made if there is none; nothing if it cannot be opened. -/
  database : String → m (Option Sqlite.Database)
  /-- Adds an entry to the file of a database. -/
  keep : String → Sqlite.Entry → m Unit
  /-- A connection to the server at an address, or why there is none. -/
  server : Server.Protocol → String → m (Except String Server.Link)
  /-- Seconds since the beginning of 1970. -/
  now : m Int

inductive Connection
  | server (p : Server.Protocol) (l : Server.Link)
  | database (db : Sqlite.Database)

def Config.cache (c : Config) : Schema.Cache := .new c.cacheSchema (c.cacheTtlSecs.map (1000 * ·))

/-- Hands over the pipeline that a configuration asks for and the first state of its session. -/
def Connection.use {α : Type} (k : Connection) (c : Config) (now : Int)
    (f : {σ : Type} → Pipeline σ → Session σ → α) : α :=
  match k with
  | server p l => f (.ofConfig c (Server.engine p c.timeoutMs)) ⟨l, c.cache⟩
  | database db => f (.ofConfig c (Sqlite.engine ⟨c.timeoutMs, now⟩)) ⟨.new db, c.cache⟩

def inMemory : String := ":memory:"

namespace Backend

def cannotOpen (path reason : String) : Error :=
  .connection ("Failed to open SQLite database '" ++ path ++ "': " ++ reason)

/-- Where a path holds a character that no path may hold. -/
def badPlace? (path : String) : Option Nat :=
  if path.toList.contains '\x00' then some (Text.size (path.toList.takeWhile (· ≠ '\x00'))) else none

variable {m : Type → Type} [Monad m]

def connectServer (w : Surroundings m) (p : Server.Protocol) (url : String) : ExceptT Error m Connection :=
  match Server.urlFault? url with
  | some reason => throw (p.badUrl reason)
  | none => do
    match ← w.server p url with
    | .ok l => return .server p l
    | .error reason => throw (.connection ("Failed to connect to " ++ p.product ++ ": " ++ reason))

def connectFile (w : Surroundings m) (path : String) : ExceptT Error m Connection :=
  if path = inMemory then return .database .empty
  else match badPlace? path with
  | some n => throw (cannotOpen path ("nul byte found in provided data at position: " ++ toString n))
  | none => do
    match ← w.database path with
    | some db => return .database db
    | none => throw (cannotOpen path ("unable to open database file: " ++ path))

def connect (w : Surroundings m) : Backend → ExceptT Error m Connection
  | postgres url _ => connectServer w Server.postgres url
  | mysql url _ => connectServer w Server.mysql url
  | sqlite path => connectFile w path

end Backend

/-- A connection to the backend of a configuration that an engine can start with. -/
def Config.connect {m : Type → Type} [Monad m] (w : Surroundings m) (c : Config) :
    ExceptT Error m Connection := do
  MonadExcept.ofExcept c.check
  c.backend.connect w

end Parlance
