import Parlance.Engine

/-! An engine that answers from a script: replies are queued and given out in order, and every
call is recorded. It serves to rehearse a pipeline without a database. -/

namespace Parlance

namespace Scripted

inductive Call
  | execute (sql : String) (params : List Param)
  | introspect (table : Option String)
  | healthCheck
  | close

structure State where
  schema : Schema
  replies : List (Except Error ExecutionResult)
  /-- Errors that answer the next descriptions of the catalog. -/
  failures : List Error
  healthy : Bool
  closed : Bool
  /-- Last first. -/
  calls : List Call

def State.new (schema : Schema) : State := ⟨schema, [], [], true, false, []⟩

def State.record (c : Call) (s : State) : State := { s with calls := c :: s.calls }

def State.queue (r : Except Error ExecutionResult) (s : State) : State :=
  { s with replies := s.replies ++ [r] }

def State.queueFailure (e : Error) (s : State) : State := { s with failures := s.failures ++ [e] }

/-- Without a reply a statement affects nothing. -/
def execute (sql : String) (params : List Param) (s : State) : Except Error ExecutionResult × State :=
  let s := s.record (.execute sql params)
  if s.closed then (.error (.connection "engine is closed"), s)
  else match s.replies with
  | r :: rs => (r, { s with replies := rs })
  | [] => (.ok (.affected 0 none), s)

/-- A table has to be named as the catalog spells it. -/
def introspect (table : Option String) (s : State) : Except Error Schema × State :=
  let s := s.record (.introspect table)
  match s.failures with
  | e :: es => (.error e, { s with failures := es })
  | [] =>
    match table with
    | some t => (.ok (s.schema.only t), s)
    | none => (.ok s.schema, s)

def engine (d : Dialect) : Engine State where
  name := d.text
  capabilities := .of d
  execute := execute
  introspect := introspect
  healthy s := (!s.closed && s.healthy, s.record .healthCheck)
  close s := { s with closed := true }.record .close

end Scripted

end Parlance
