import Parlance.Config
import Parlance.Json.Decode
import Parlance.Json.Reader
import Parlance.Text.Utf8

/-! Settings from a JSON file. The backend is an object with its kind under `type`, or a list
that begins with the kind; every other key may be left out. -/

namespace Parlance

open Json (record? listFields? default? optional? text? bool? word32? word64? listOf? mapOf? field)

def serverShape : Json.Shape := [("url", .required), ("max_connections", .defaulted)]

def serverOfJson? (make : String → Nat → Backend) (j : Json) : Option Backend := do
  match ← record? serverShape j with
  | [some url, connections] => some (make (← text? url) (← default? defaultMaxConnections word32? connections))
  | _ => none

def fileOfJson? (j : Json) : Option Backend := do
  match ← record? [("path", .required)] j with
  | [some path] => (text? path).map .sqlite
  | _ => none

def splitKind? : Json → Option (String × Json)
  | .object fields =>
    match fields.filter (·.1 = "type") with
    | [(_, .text kind)] => some (kind, .object (fields.filter (·.1 ≠ "type")))
    | _ => none
  | .list (.text kind :: items) => some (kind, .list items)
  | _ => none

def Backend.ofJson? (j : Json) : Option Backend := do
  if !j.isFit then none
  else
    match ← splitKind? j with
    | ("postgres", j) => serverOfJson? .postgres j
    | ("mysql", j) => serverOfJson? .mysql j
    | ("sqlite", j) => fileOfJson? j
    | _ => none

def Backend.toJson (b : Backend) : Json :=
  match b with
  | .postgres url n | .mysql url n =>
    .object [field "type" (.text b.kind), field "url" (.text url), field "max_connections" (.nat n)]
  | .sqlite path => .object [field "type" (.text b.kind), field "path" (.text path)]

def SafetySettings.toJson (s : SafetySettings) : Json := .object [
  field "allow_destructive_queries" (.bool s.allowDestructive),
  field "max_query_complexity" (.nat s.maxComplexity),
  field "allowed_tables" (.texts s.allowedTables)]

def SafetySettings.ofJson? (j : Json) : Option SafetySettings := do
  match ← record? [("allow_destructive_queries", .defaulted), ("max_query_complexity", .defaulted),
      ("allowed_tables", .defaulted)] j with
  | [destructive, complexity, tables] => some {
      allowDestructive := ← default? false bool? destructive
      maxComplexity := ← default? defaultMaxComplexity word32? complexity
      allowedTables := ← default? [] (listOf? text?) tables }
  | _ => none

namespace Config

def toJson (c : Config) : Json := .object [
  field "backend" c.backend.toJson,
  field "allow_destructive_queries" (.bool c.allowDestructive),
  field "max_query_complexity" (.nat c.maxComplexity),
  field "query_timeout_ms" (.nat c.timeoutMs),
  field "enable_schema_cache" (.bool c.cacheSchema),
  field "schema_cache_ttl_secs" (Json.ofOption .nat c.cacheTtlSecs),
  field "allowed_tables" (.texts c.allowedTables),
  field "timestamp_columns" (.object (c.timestampColumns.map fun p => (p.1, .text p.2))),
  field "log_queries" (.bool c.logQueries),
  field "log_level" (.text c.logLevel)]

def shape : Json.Shape := [("backend", .required), ("allow_destructive_queries", .defaulted),
  ("max_query_complexity", .defaulted), ("query_timeout_ms", .defaulted),
  ("enable_schema_cache", .defaulted), ("schema_cache_ttl_secs", .defaulted),
  ("allowed_tables", .defaulted), ("timestamp_columns", .defaulted), ("log_queries", .defaulted),
  ("log_level", .defaulted)]

def ofJson? (j : Json) : Option Config := do
  match ← record? shape j with
  | [some backend, destructive, complexity, timeout, cache, ttl, tables, timestamps, log, level] => some {
      backend := ← Backend.ofJson? backend
      allowDestructive := ← default? false bool? destructive
      maxComplexity := ← default? defaultMaxComplexity word32? complexity
      timeoutMs := ← default? defaultTimeoutMs word64? timeout
      cacheSchema := ← default? true bool? cache
      cacheTtlSecs := ← optional? word64? ttl
      allowedTables := ← default? [] (listOf? text?) tables
      timestampColumns := ← default? [] (mapOf? text?) timestamps
      logQueries := ← default? true bool? log
      logLevel := ← default? defaultLogLevel text? level }
  | _ => none

end Config

abbrev FileContents := Option (List UInt8)

namespace FileContents

def text (f : FileContents) : Except Error String :=
  match f with
  | none => .error (.io "No such file or directory (os error 2)")
  | some bytes =>
    match Text.Utf8.decode bytes with
    | .ok cs => .ok (String.ofList cs)
    | .error _ => .error (.io "stream did not contain valid UTF-8")

def json (f : FileContents) : Except Error Json := do
  match Json.readRecord? (← f.text) with
  | some j => .ok j
  | none => .error .json

end FileContents

def SafetySettings.ofFile (f : FileContents) : Except Error SafetySettings := do
  match SafetySettings.ofJson? (← f.json) with
  | some s => .ok s
  | none => .error .json

def Config.ofFile (f : FileContents) : Except Error Config := do
  match Config.ofJson? (← f.json) with
  | some c => do c.check; .ok c
  | none => .error .json

end Parlance
