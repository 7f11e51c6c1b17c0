import Parlance.Config
import Parlance.Number.Integer

/-! Settings from environment variables. A variable that is set has to be well formed; one
that is not set leaves the default. The first fault found is reported. -/

namespace Parlance

abbrev Environment := String → Option String

namespace Environment

def keys : List String := ["QUERYGATE_BACKEND", "DATABASE_URL", "SQLITE_PATH", "DB_MAX_CONNECTIONS",
  "ALLOW_DESTRUCTIVE_QUERIES", "MAX_QUERY_COMPLEXITY", "ALLOWED_TABLES", "QUERY_TIMEOUT_MS",
  "ENABLE_SCHEMA_CACHE", "SCHEMA_CACHE_TTL_SECS", "LOG_QUERIES", "LOG_LEVEL"]

def invalid (key raw : String) : Error :=
  .configuration ("Invalid value for " ++ key ++ ": '" ++ raw ++ "'")

def parse (read : List Char → Option Nat) (key raw : String) : Except Error Nat :=
  match read (Text.trim raw.toList) with
  | some n => .ok n
  | none => .error (invalid key raw)

def number (env : Environment) (read : List Char → Option Nat) (key : String) (default : Nat) :
    Except Error Nat :=
  match env key with
  | some raw => parse read key raw
  | none => .ok default

/-- The truth value of a word, with blanks around it or not, in any case. -/
def truth? (raw : String) : Option Bool :=
  let w := String.ofList (Text.lower (Text.trim raw.toList))
  if w ∈ ["1", "true", "yes", "on"] then some true
  else if w ∈ ["0", "false", "no", "off"] then some false
  else none

def bool (env : Environment) (key : String) (default : Bool) : Except Error Bool :=
  match env key with
  | none => .ok default
  | some raw =>
    match truth? raw with
    | some b => .ok b
    | none => .error (.configuration ("Invalid boolean for " ++ key ++ ": '" ++ raw ++ "'"))

def require (env : Environment) (key : String) : Except Error String :=
  match (env key).filter (!Config.isBlankText ·) with
  | some v => .ok v
  | none => .error (.configuration (key ++ " not set"))

def tableList (raw : String) : List String :=
  ((Text.pieces (· = ',') raw.toList).map fun t => String.ofList (Text.trim t)).filter (· ≠ "")

end Environment

open Environment

def SafetySettings.ofEnvironment (env : Environment) : Except Error SafetySettings := do
  let destructive ← env.bool "ALLOW_DESTRUCTIVE_QUERIES" false
  let complexity ← env.number Number.readWord32? "MAX_QUERY_COMPLEXITY" defaultMaxComplexity
  .ok ⟨destructive, complexity, ((env "ALLOWED_TABLES").map tableList).getD []⟩

namespace Config

def backendOf (env : Environment) (maxConnections : Nat) : Except Error Backend :=
  let kind := String.ofList (Text.lower (Text.trim ((env "QUERYGATE_BACKEND").getD "postgres").toList))
  if kind = "postgres" || kind = "postgresql" then do
    .ok (.postgres (← env.require "DATABASE_URL") maxConnections)
  else if kind = "mysql" then do
    .ok (.mysql (← env.require "DATABASE_URL") maxConnections)
  else if kind = "sqlite" then
    match (env "SQLITE_PATH").or (env "DATABASE_URL") with
    | some path => .ok (.sqlite path)
    | none => .error (.configuration "SQLITE_PATH not set for sqlite backend")
  else
    .error (.configuration
      ("Unknown backend '" ++ kind ++ "' (expected postgres, mysql or sqlite)"))

def ofEnvironment (env : Environment) : Except Error Config := do
  let maxConnections ← env.number Number.readWord32? "DB_MAX_CONNECTIONS" defaultMaxConnections
  let backend ← backendOf env maxConnections
  let safety ← SafetySettings.ofEnvironment env
  let timeout ← env.number Number.readWord64? "QUERY_TIMEOUT_MS" defaultTimeoutMs
  let cache ← env.bool "ENABLE_SCHEMA_CACHE" true
  let ttl ← match env "SCHEMA_CACHE_TTL_SECS" with
    | some raw => do .ok (some (← parse Number.readWord64? "SCHEMA_CACHE_TTL_SECS" raw))
    | none => .ok none
  let log ← env.bool "LOG_QUERIES" true
  let config : Config := {
    backend := backend
    allowDestructive := safety.allowDestructive
    maxComplexity := safety.maxComplexity
    timeoutMs := timeout
    cacheSchema := cache
    cacheTtlSecs := ttl
    allowedTables := safety.allowedTables
    timestampColumns := []
    logQueries := log
    logLevel := (env "LOG_LEVEL").getD defaultLogLevel }
  config.check
  .ok config

end Config

end Parlance
