import Parlance.Dialect
import Parlance.Engine.Param
import Parlance.Engine.Result
import Parlance.Schema

/-! Engines that execute statements and describe their catalog. An engine is a machine over
states of its own: every call gives an answer and the state after it. -/

namespace Parlance

inductive PlaceholderStyle
  | dollarNumbered
  | questionMark
  | questionNumbered
  deriving DecidableEq, Repr

def PlaceholderStyle.text : PlaceholderStyle → String
  | dollarNumbered => "DollarNumbered"
  | questionMark => "QuestionMark"
  | questionNumbered => "QuestionNumbered"

structure Capabilities where
  dialect : Dialect
  placeholders : PlaceholderStyle
  /-- Reads and writes take different calls. -/
  dispatches : Bool
  reportsPrimaryKeys : Bool
  pooled : Bool
  deriving DecidableEq, Repr

def Capabilities.of : Dialect → Capabilities
  | .postgres => ⟨.postgres, .dollarNumbered, false, false, true⟩
  | .mysql => ⟨.mysql, .questionMark, false, false, true⟩
  | .sqlite => ⟨.sqlite, .questionNumbered, true, true, false⟩

def Capabilities.toJson (c : Capabilities) : Json := .object [
  ("dialect", .text c.dialect.text),
  ("placeholder_style", .text c.placeholders.text),
  ("needs_read_write_dispatch", .bool c.dispatches),
  ("reports_primary_keys", .bool c.reportsPrimaryKeys),
  ("pooled", .bool c.pooled)]

structure Engine (σ : Type) where
  name : String
  capabilities : Capabilities
  execute : String → List Param → σ → Except Error ExecutionResult × σ
  /-- One table, or every table; a table that does not exist gives an empty schema. -/
  introspect : Option String → σ → Except Error Schema × σ
  healthy : σ → Bool × σ
  close : σ → σ

/-- Work under a deadline. Work that is done in time, whatever its outcome, wins. -/
def withDeadline {α : Type} (sql : String) (milliseconds : Nat) :
    Option (Except Error α) → Except Error α
  | some outcome => outcome
  | none => .error (.timeout sql milliseconds)

end Parlance
