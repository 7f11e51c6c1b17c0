/-! Why a request fails. Every cause belongs to one stage of the work, and those that arise
once there is SQL carry it. -/

namespace Parlance

inductive Error
  | configuration (reason : String)
  | unrecognizedIntent (text : String)
  | unresolvedTable (text : String)
  | unresolvedColumn (table column : String)
  | validationRejected (sql : String) (errors : List String)
  | connection (reason : String)
  | execution (sql reason : String)
  | timeout (sql : String) (milliseconds : Nat)
  | io (reason : String)
  /-- Where the text is wrong, and in what, is not told. -/
  | json
  deriving DecidableEq, Repr

inductive Stage
  | configuration
  | interpretation
  | validation
  | connection
  | execution
  deriving DecidableEq, Repr

def Stage.text : Stage → String
  | configuration => "configuration"
  | interpretation => "translation"
  | validation => "validation"
  | connection => "connection"
  | execution => "execution"

namespace Error

def stage : Error → Stage
  | configuration _ | io _ | json => .configuration
  | unrecognizedIntent _ | unresolvedTable _ | unresolvedColumn .. => .interpretation
  | validationRejected .. => .validation
  | connection _ => .connection
  | execution .. | timeout .. => .execution

def sql? : Error → Option String
  | validationRejected sql _ | execution sql _ | timeout sql _ => some sql
  | _ => none

def message : Error → String
  | configuration reason => "Configuration error: " ++ reason
  | unrecognizedIntent text => "Could not translate '" ++ text ++ "': no supported intent matches"
  | unresolvedTable text => "Could not translate '" ++ text ++ "': no table reference found"
  | unresolvedColumn table column =>
    "Could not translate: column '" ++ column ++ "' does not exist in table '" ++ table ++ "'"
  | validationRejected sql errors => "Validation rejected SQL `" ++ sql ++ "`: " ++ "; ".intercalate errors
  | connection reason => "Connection error: " ++ reason
  | execution sql reason => "Execution failed for `" ++ sql ++ "`: " ++ reason
  | timeout sql milliseconds => "Query timed out after " ++ toString milliseconds ++ "ms: `" ++ sql ++ "`"
  | io reason => "IO error: " ++ reason
  | json => "JSON error"

end Error

end Parlance
