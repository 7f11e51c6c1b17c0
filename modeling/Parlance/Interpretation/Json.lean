import Parlance.Intent.Json
import Parlance.Interpretation

/-! Interpretations as JSON. -/

namespace Parlance

open Json (field)

def Interpretation.toJson (t : Interpretation) : Json := .object [
  field "generated_sql" (.text t.sql),
  field "operation_kind" (.text t.operation.text),
  field "source_text" (.text t.source),
  field "table" (.text t.table),
  field "table_in_schema" (.bool t.known),
  field "intent" t.intent.toJson,
  field "warnings" (.texts t.warnings)]

end Parlance
