import Parlance.Json.Decode
import Parlance.Pipeline

/-! Requests and answers as JSON. -/

namespace Parlance

open Json (record? default? optional? text? bool? word32? listOf? field)

structure AskRequest where
  query : String
  confirm : Bool

structure RawRequest where
  sql : String
  params : List Param
  confirm : Bool

structure SchemaRequest where
  table : Option String

structure ValidateRequest where
  sql : String

def AskRequest.ofJson? (j : Json) : Option AskRequest := do
  match ← record? [("query", .required), ("confirm_destructive", .defaulted)] j with
  | [some query, confirm] => some ⟨← text? query, ← default? false bool? confirm⟩
  | _ => none

def AskRequest.toJson (r : AskRequest) : Json :=
  .object [field "query" (.text r.query), field "confirm_destructive" (.bool r.confirm)]

def RawRequest.ofJson? (j : Json) : Option RawRequest := do
  match ← record? [("sql", .required), ("params", .defaulted), ("confirm_destructive", .defaulted)] j with
  | [some sql, params, confirm] =>
    some ⟨← text? sql, ← default? [] (listOf? Param.ofJson?) params, ← default? false bool? confirm⟩
  | _ => none

def SchemaRequest.ofJson? (j : Json) : Option SchemaRequest := do
  match ← record? [("table_name", .defaulted)] j with
  | [table] => some ⟨← optional? text? table⟩
  | _ => none

def SchemaRequest.toJson (r : SchemaRequest) : Json :=
  .object [field "table_name" (Json.ofOption .text r.table)]

def ValidateRequest.ofJson? (j : Json) : Option ValidateRequest := do
  match ← record? [("sql", .required)] j with
  | [some sql] => some ⟨← text? sql⟩
  | _ => none

def ValidateRequest.toJson (r : ValidateRequest) : Json := .object [field "sql" (.text r.sql)]

namespace Verdict

def shape : Json.Shape := [("accepted", .required), ("errors", .required), ("warnings", .required),
  ("is_destructive", .required), ("complexity_score", .required), ("operation", .required),
  ("requires_confirmation", .required)]

def ofJson? (j : Json) : Option Verdict := do
  match ← record? shape j with
  | [some accepted, some errors, some warnings, some destructive, some score, some operation,
      some confirmation] => some {
      accepted := ← bool? accepted
      errors := ← listOf? text? errors
      warnings := ← listOf? text? warnings
      isDestructive := ← bool? destructive
      complexity := ← word32? score
      operation := ← text? operation
      requiresConfirmation := ← bool? confirmation }
  | _ => none

/-- What a caller is told; whether confirmation is asked for stands in the errors. -/
def summary (v : Verdict) : List (String × Json) := [
  field "accepted" (.bool v.accepted),
  field "is_destructive" (.bool v.isDestructive),
  field "complexity_score" (.nat v.complexity),
  field "errors" (.texts v.errors),
  field "warnings" (.texts v.warnings),
  field "operation" (.text v.operation)]

def toJson (v : Verdict) : Json :=
  .object (v.summary ++ [field "requires_confirmation" (.bool v.requiresConfirmation)])

end Verdict

def ColumnMeta.toJson (c : ColumnMeta) : Json :=
  .object [field "name" (.text c.name), field "engine_type" (.text c.engineType)]

def ExecutionResult.fields (r : ExecutionResult) : List (String × Json) := [
  field "rows" (.ofList .object r.rows),
  field "row_count" (.nat r.rowCount),
  field "columns" (.ofList ColumnMeta.toJson r.columns)] ++
  (r.lastInsertId.map fun n => field "last_insert_id" (.int n)).toList

def ExecutionResult.toJson (r : ExecutionResult) : Json := .object r.fields

def Response.toJson (r : Response) : Json := .object ([
  field "sql" (.text r.sql),
  field "operation_kind" (Json.ofOption (fun o : Operation => .text o.text) r.operation),
  field "warnings" (.texts r.warnings)] ++ r.result.fields)

end Parlance
