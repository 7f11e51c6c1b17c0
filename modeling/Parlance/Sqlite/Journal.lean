import Parlance.Json.Printer
import Parlance.Json.Reader
import Parlance.Sqlite.Engine

/-! The file of a database. It holds the statements that made the database what it is, one a
line and in their order, with all that they depend on; a database is opened by running them
again. -/

namespace Parlance.Sqlite

open Json (field record? text? listOf? word64?)

structure Entry where
  settings : Settings
  sql : String
  params : List Param

/-- A new connection has no statement behind it. -/
def Database.reopened (db : Database) : Database := { db with changes := 0, lastRowid := 0 }

def Database.after (db : Database) (e : Entry) : Database :=
  (Database.run e.sql.toList (e.settings.runtime db e.params)).2.reopened

def replay (entries : List Entry) : Database := entries.foldl Database.after .empty

/-- A file with one more entry opens as the database that the entry's statement has left behind. -/
theorem replay_append (entries : List Entry) (s : Settings) (sql : String) (params : List Param) :
    replay (entries ++ [⟨s, sql, params⟩]) =
      (execute s sql params (.new (replay entries))).2.database.reopened := by
  rw [replay, List.foldl_append]
  rfl

/-! ### Entries as JSON -/

/-- A double is kept bit for bit. -/
def keptParam : Param → Json
  | .float x => .tagged "bits" (.nat x.toBits.toNat)
  | p => p.toJson

def keptParam? : Json → Option Param
  | .object [("bits", .int n)] => some (.float (Float.ofBits n.toNat.toUInt64))
  | j => Param.ofJson? j

def Entry.toJson (e : Entry) : Json := .object [
  field "sql" (.text e.sql),
  field "params" (.ofList keptParam e.params),
  field "timeout_ms" (.nat e.settings.timeoutMs),
  field "now" (.int e.settings.now)]

def int? : Json → Option Int
  | .int n => some n
  | _ => none

def Entry.ofJson? (j : Json) : Option Entry := do
  match ← record? [("sql", .required), ("params", .required), ("timeout_ms", .required),
      ("now", .required)] j with
  | [some sql, some params, some timeout, some now] =>
    some ⟨⟨← word64? timeout, ← int? now⟩, ← text? sql, ← listOf? keptParam? params⟩
  | _ => none

def Entry.line (e : Entry) : String := e.toJson.write ++ "\n"

/-- The entries of a file, unless a line is none. -/
def entriesOf? (contents : String) : Option (List Entry) :=
  ((Text.pieces (· = '\n') contents.toList).filter (· ≠ [])).mapM fun l =>
    (Json.readRecord? (String.ofList l)).bind Entry.ofJson?

end Parlance.Sqlite
