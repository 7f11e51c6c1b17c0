import Parlance.CommandLine.Arguments
import Parlance.Pipeline.Json
import Parlance.Schema.Json
import Parlance.Surroundings
import Parlance.Interpretation.Json

/-! Commands carried out. A statement is validated offline, by the safety rules alone; every
other command is carried out over a connection that is opened for it and then closed. -/

namespace Parlance.CommandLine

/-- What a command prints, and the statement that it has executed. -/
structure Report where
  json : Json
  executed : Option (String × List Param)

namespace Command

variable {σ : Type}

def askReport (p : Pipeline σ) (text : String) (confirm : Bool) (s : Session σ) : Except Error Report :=
  (p.ask 0 text confirm s).1.map fun r => ⟨r.toJson, some (r.sql, [])⟩

/-- The interpretation beside the verdict on it; nothing is executed. -/
def dryReport (p : Pipeline σ) (text : String) (s : Session σ) : Except Error Report :=
  (p.interpret 0 text s).1.map fun t => ⟨.object [
    Json.field "translation" t.toJson,
    Json.field "validation" (.object (p.validate t.sql).summary)], none⟩

def sqlReport (p : Pipeline σ) (sql : String) (params : List Param) (confirm : Bool) (s : Session σ) :
    Except Error Report :=
  (p.raw sql params confirm s).1.map fun r => ⟨r.toJson, some (sql, params)⟩

def schemaReport (p : Pipeline σ) (table : Option String) (refresh : Bool) (s : Session σ) :
    Except Error Report :=
  let s := if refresh then Executor.refresh table s else s
  (Executor.schema p.engine 0 table s).1.map fun t => ⟨.object [Json.field "schema" t.toJson], none⟩

def healthReport (p : Pipeline σ) (s : Session σ) : Report :=
  ⟨.object [Json.field "engine" (.text p.engine.name),
    Json.field "healthy" (.bool (Executor.healthy p.engine s).1)], none⟩

def perform (p : Pipeline σ) (s : Session σ) : Command → Except Error Report
  | ask text confirm false => askReport p text confirm s
  | ask text _ true => dryReport p text s
  | .sql text params confirm => sqlReport p text (params.map .infer) confirm s
  | schema table refresh => schemaReport p table refresh s
  | validate text => .ok ⟨.object (p.validate text).summary, none⟩
  | health => .ok (healthReport p s)

end Command

variable {m : Type → Type} [Monad m]

/-- Settings from the file that is named, or else from the environment. -/
def settings {α : Type} (w : Surroundings m) (config : Option String) (ofFile : FileContents → Except Error α)
    (ofEnvironment : Environment → Except Error α) : ExceptT Error m α := do
  match config with
  | some path => MonadExcept.ofExcept (ofFile (← w.file path))
  | none => MonadExcept.ofExcept (ofEnvironment (← w.environment))

def validateOffline (w : Surroundings m) (config : Option String) (sql : String) : ExceptT Error m Json := do
  let s ← settings w config SafetySettings.ofFile SafetySettings.ofEnvironment
  return .object (s.validator.validate sql.toList false).summary

/-- Statements that only read are not kept. -/
def keepExecuted (w : Surroundings m) (c : Config) (now : Int) (executed : Option (String × List Param)) :
    m Unit :=
  match c.backend, executed with
  | .sqlite path, some (sql, params) =>
    if path = inMemory || Statement.isSelect sql.toList then pure ()
    else w.keep path ⟨⟨c.timeoutMs, now⟩, sql, params⟩
  | _, _ => pure ()

def carryOut (w : Surroundings m) (config : Option String) (command : Command) : ExceptT Error m Json := do
  let c ← settings w config Config.ofFile Config.ofEnvironment
  let k ← c.connect w
  let now ← w.now
  let r ← MonadExcept.ofExcept (k.use c now fun p s => command.perform p s)
  ExceptT.lift (keepExecuted w c now r.executed)
  return r.json

def Invocation.run (w : Surroundings m) (i : Invocation) : m (Except Error Json) :=
  match i.command with
  | .validate sql => (validateOffline w i.config sql).run
  | command => (carryOut w i.config command).run

inductive Ending
  | answer (j : Json)
  | failure (e : Error)
  | usage
  | misuse

def Ending.code : Ending → Nat
  | answer _ | usage => 0
  | failure _ => 1
  | misuse => 2

def Ending.ofResult : Except Error Json → Ending
  | .ok j => answer j
  | .error e => failure e

/-- What has to do with a file is told once more, without the words before it. -/
def report (e : Error) : String :=
  "Error: " ++ e.message ++
    match e with
    | .io reason => "\n\nCaused by:\n    " ++ reason
    | _ => ""

def run (w : Surroundings m) (args : List String) : m Ending :=
  match Invocation.ofArguments args with
  | .ok i => do return .ofResult (← i.run w)
  | .error .help => return .usage
  | .error .misuse => return .misuse

end Parlance.CommandLine
