import Parlance.Json.Decode
import Parlance.Schema

/-! Schemas as JSON: an object from table names to lists of columns. -/

namespace Parlance

open Json (record? text? bool? listOf? optional? mapOf? field)

def Column.toJson (c : Column) : Json := .object ([
  field "name" (.text c.name),
  field "declared_type" (.text c.declaredType),
  field "nullable" (.bool c.nullable),
  field "is_primary_key" (.bool c.isPrimaryKey)] ++
  (c.defaultValue.map fun d => field "default_value" (.text d)).toList)

def Column.ofJson? (j : Json) : Option Column := do
  match ← record? [("name", .required), ("declared_type", .required), ("nullable", .required),
      ("is_primary_key", .required), ("default_value", .defaulted)] j with
  | [some name, some type, some nullable, some key, default] => some {
      name := ← text? name
      declaredType := ← text? type
      nullable := ← bool? nullable
      isPrimaryKey := ← bool? key
      defaultValue := ← optional? text? default }
  | _ => none

def Schema.toJson (s : Schema) : Json :=
  .object (s.tables.map fun t => (t.name, .ofList Column.toJson t.columns))

def Schema.ofJson? (j : Json) : Option Schema := (mapOf? (listOf? Column.ofJson?) j).map ofTables

end Parlance
