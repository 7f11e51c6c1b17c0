import Parlance.Config
import Parlance.Executor
import Parlance.Interpretation

/-! From a request to its answer: interpret, validate, execute. Every statement passes the
validator before it reaches the engine, whether it comes from a request or was given as SQL. -/

namespace Parlance

structure Pipeline (σ : Type) where
  engine : Engine σ
  interpreter : Interpreter
  validator : Validator

structure Response where
  sql : String
  operation : Option Operation
  warnings : List String
  result : ExecutionResult

namespace Pipeline

/-- The dialect is that of the engine. -/
def ofConfig {σ : Type} (c : Config) (e : Engine σ) : Pipeline σ :=
  ⟨e, (Interpreter.ofDialect e.capabilities.dialect).withTimestamps c.timestampColumns, c.validator⟩

variable {σ : Type}

def check (p : Pipeline σ) (sql : String) (confirm : Bool) : Except Error Verdict :=
  let v := p.validator.validate sql.toList confirm
  if v.accepted then .ok v else .error (.validationRejected sql v.errors)

def interpret (p : Pipeline σ) (now : Nat) (text : String) (s : Session σ) :
    Except Error Interpretation × Session σ :=
  match Executor.schema p.engine now none s with
  | (.ok schema, s) => (p.interpreter.interpret text schema, s)
  | (.error e, s) => (.error e, s)

def submit (p : Pipeline σ) (sql : String) (params : List Param) (confirm : Bool)
    (respond : Verdict → ExecutionResult → Response) (s : Session σ) :
    Except Error Response × Session σ :=
  match p.check sql confirm with
  | .error e => (.error e, s)
  | .ok v =>
    match Executor.execute p.engine sql params s with
    | (.ok r, s) => (.ok (respond v r), s)
    | (.error e, s) => (.error e, s)

def ask (p : Pipeline σ) (now : Nat) (text : String) (confirm : Bool) (s : Session σ) :
    Except Error Response × Session σ :=
  match p.interpret now text s with
  | (.error e, s) => (.error e, s)
  | (.ok t, s) =>
    p.submit t.sql [] confirm (fun v r => ⟨t.sql, some t.operation, t.warnings ++ v.warnings, r⟩) s

def raw (p : Pipeline σ) (sql : String) (params : List Param) (confirm : Bool) (s : Session σ) :
    Except Error Response × Session σ :=
  p.submit sql params confirm
    (fun v r => ⟨sql, Operation.ofStatement? sql.toList, v.warnings, r⟩) s

/-- The verdict without confirmation; nothing is executed. -/
def validate (p : Pipeline σ) (sql : String) : Verdict := p.validator.validate sql.toList false

end Pipeline

end Parlance
