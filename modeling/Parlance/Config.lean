import Parlance.Error
import Parlance.Validation

/-! What the program is told about its surroundings: the backend to connect to, the safety
rules for statements, limits, and how the catalog is cached. The safety rules can be had
without a backend, so that statements are checked offline by the same rules. -/

namespace Parlance

inductive Backend
  | postgres (url : String) (maxConnections : Nat)
  | mysql (url : String) (maxConnections : Nat)
  | sqlite (path : String)
  deriving DecidableEq, Repr

def Backend.kind : Backend → String
  | postgres .. => "postgres"
  | mysql .. => "mysql"
  | sqlite _ => "sqlite"

structure SafetySettings where
  allowDestructive : Bool
  maxComplexity : Nat
  allowedTables : List String
  deriving DecidableEq, Repr

structure Config where
  backend : Backend
  allowDestructive : Bool
  maxComplexity : Nat
  timeoutMs : Nat
  cacheSchema : Bool
  /-- Entries of the cache never expire if there is none. -/
  cacheTtlSecs : Option Nat
  allowedTables : List String
  timestampColumns : List (String × String)
  logQueries : Bool
  logLevel : String
  deriving DecidableEq, Repr

def defaultMaxConnections : Nat := 10
def defaultMaxComplexity : Nat := 100
def defaultTimeoutMs : Nat := 30000
def defaultLogLevel : String := "info"

def SafetySettings.default : SafetySettings := ⟨false, defaultMaxComplexity, []⟩

def SafetySettings.validator (s : SafetySettings) : Validator :=
  .new s.allowDestructive s.maxComplexity s.allowedTables

namespace Config

def ofBackend (b : Backend) : Config :=
  ⟨b, false, defaultMaxComplexity, defaultTimeoutMs, true, none, [], [], true, defaultLogLevel⟩

def safety (c : Config) : SafetySettings := ⟨c.allowDestructive, c.maxComplexity, c.allowedTables⟩

def validator (c : Config) : Validator := c.safety.validator

def isBlankText (s : String) : Bool := (Text.trim s.toList).isEmpty

def checkServer (kind url : String) (maxConnections : Nat) : Except Error Unit :=
  if isBlankText url then .error (.configuration (kind ++ " backend requires a connection URL"))
  else if maxConnections = 0 then .error (.configuration "max_connections must be at least 1")
  else .ok ()

def checkBackend (b : Backend) : Except Error Unit :=
  match b with
  | .postgres url n | .mysql url n => checkServer b.kind url n
  | .sqlite path =>
    if isBlankText path then .error (.configuration "sqlite backend requires a path") else .ok ()

/-- Refuses what no engine can start with. -/
def check (c : Config) : Except Error Unit := do
  checkBackend c.backend
  if c.timeoutMs = 0 then .error (.configuration "query_timeout_ms must be greater than 0") else .ok ()

end Config

end Parlance
