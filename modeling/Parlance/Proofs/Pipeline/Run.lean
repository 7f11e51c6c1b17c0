import Parlance.Pipeline.Json

/-! Runs of a pipeline: requests of every kind, one behind the other, each at its own time. A
recorded engine keeps a log of the statements that it executes; what a request executes is what it
adds to that log, and recording changes nothing else. -/

namespace Parlance

inductive Request
  | ask (r : AskRequest)
  | raw (r : RawRequest)
  /-- A request for the SQL of a text; it ends before validation. -/
  | interpret (text : String)
  | validate (r : ValidateRequest)
  | schema (r : SchemaRequest)

namespace Request

def confirms : Request → Bool
  | ask r => r.confirm
  | raw r => r.confirm
  | interpret _ | validate _ | schema _ => false

/-- Requests that execute a statement if all goes well. -/
def executes : Request → Bool
  | ask _ | raw _ => true
  | interpret _ | validate _ | schema _ => false

end Request

inductive Answer
  | response (r : Except Error Response)
  | interpretation (r : Except Error Interpretation)
  | verdict (v : Verdict)
  | schema (r : Except Error Schema)

def Answer.failsWith (a : Answer) (e : Error) : Prop :=
  a = response (.error e) ∨ a = interpretation (.error e) ∨ a = schema (.error e)

structure Call where
  sql : String
  params : List Param

variable {σ : Type}

def Engine.recorded (e : Engine σ) : Engine (σ × List Call) where
  name := e.name
  capabilities := e.capabilities
  execute sql params x :=
    let r := e.execute sql params x.1
    (r.1, r.2, x.2 ++ [⟨sql, params⟩])
  introspect table x :=
    let r := e.introspect table x.1
    (r.1, r.2, x.2)
  healthy x :=
    let r := e.healthy x.1
    (r.1, r.2, x.2)
  close x := (e.close x.1, x.2)

def Session.recording (s : Session σ) (log : List Call) : Session (σ × List Call) :=
  ⟨(s.engine, log), s.cache⟩

/-- What stands beside the loader's state is kept. -/
theorem Schema.Cache.getOrLoad_beside {τ : Type} (c : Cache) (now : Nat) (k : CacheKey)
    (load : σ → Except Error Schema × σ) (s : σ) (x : τ) :
    c.getOrLoad now k (fun y : σ × τ => ((load y.1).1, (load y.1).2, y.2)) (s, x) =
      ((c.getOrLoad now k load s).1, (c.getOrLoad now k load s).2.1,
        ((c.getOrLoad now k load s).2.2, x)) := by
  simp only [getOrLoad, getOrLoadUntil]
  by_cases he : c.enabled = true
  · simp only [he]
    cases (c.liveSlot now k).2.contents? (c.liveSlot now k).1 with
    | some e => rfl
    | none => rfl
  · simp [he]

theorem Executor.schema_recorded (e : Engine σ) (now : Nat) (table : Option String) (s : Session σ)
    (log : List Call) : Executor.schema e.recorded now table (s.recording log) =
      ((Executor.schema e now table s).1, (Executor.schema e now table s).2.recording log) := by
  have h := s.cache.getOrLoad_beside now (.ofRequest table) (e.introspect table) s.engine log
  simp only [Executor.schema, Session.recording, Engine.recorded, h]

theorem Executor.execute_recorded (e : Engine σ) (sql : String) (params : List Param) (s : Session σ)
    (log : List Call) : Executor.execute e.recorded sql params (s.recording log) =
      ((Executor.execute e sql params s).1,
        (Executor.execute e sql params s).2.recording (log ++ [⟨sql, params⟩])) :=
  rfl

namespace Pipeline

def recorded (p : Pipeline σ) : Pipeline (σ × List Call) :=
  ⟨p.engine.recorded, p.interpreter, p.validator⟩

@[simp] theorem recorded_engine (p : Pipeline σ) : p.recorded.engine = p.engine.recorded := rfl
@[simp] theorem recorded_interpreter (p : Pipeline σ) : p.recorded.interpreter = p.interpreter := rfl
@[simp] theorem recorded_validator (p : Pipeline σ) : p.recorded.validator = p.validator := rfl

def serve (p : Pipeline σ) (now : Nat) (r : Request) (s : Session σ) : Answer × Session σ :=
  match r with
  | .ask r =>
    let out := p.ask now r.query r.confirm s
    (.response out.1, out.2)
  | .raw r =>
    let out := p.raw r.sql r.params r.confirm s
    (.response out.1, out.2)
  | .interpret text =>
    let out := p.interpret now text s
    (.interpretation out.1, out.2)
  | .validate r => (.verdict (p.validate r.sql), s)
  | .schema r =>
    let out := Executor.schema p.engine now r.table s
    (.schema out.1, out.2)

/-- The statements that a request executes. -/
def calls (p : Pipeline σ) (now : Nat) (r : Request) (s : Session σ) : List Call :=
  (p.recorded.serve now r (s.recording [])).2.engine.2

/-- The answers to a sequence of requests, and the session behind them. -/
def run (p : Pipeline σ) : List (Nat × Request) → Session σ → List Answer × Session σ
  | [], s => ([], s)
  | (now, r) :: rs, s =>
    let out := p.serve now r s
    let rest := p.run rs out.2
    (out.1 :: rest.1, rest.2)

/-! ### What a request executes -/

def submitted (p : Pipeline σ) (sql : String) (params : List Param) (confirm : Bool) : List Call :=
  if (p.validator.validate sql.toList confirm).accepted then [⟨sql, params⟩] else []

theorem submit_rejected {p : Pipeline σ} {sql : String} {confirm : Bool}
    (h : (p.validator.validate sql.toList confirm).accepted = false) (params : List Param)
    (respond : Verdict → ExecutionResult → Response) (s : Session σ) :
    p.submit sql params confirm respond s =
      (.error (.validationRejected sql (p.validator.validate sql.toList confirm).errors), s) := by
  simp [submit, check, h]

theorem submit_accepted {p : Pipeline σ} {sql : String} {confirm : Bool}
    (h : (p.validator.validate sql.toList confirm).accepted = true) (params : List Param)
    (respond : Verdict → ExecutionResult → Response) (s : Session σ) :
    p.submit sql params confirm respond s =
      ((Executor.execute p.engine sql params s).1.map
          (respond (p.validator.validate sql.toList confirm)),
        (Executor.execute p.engine sql params s).2) := by
  simp only [submit, check, h, if_true]
  cases Executor.execute p.engine sql params s with
  | mk r s' => cases r <;> rfl

theorem submit_recorded (p : Pipeline σ) (sql : String) (params : List Param) (confirm : Bool)
    (respond : Verdict → ExecutionResult → Response) (s : Session σ) (log : List Call) :
    p.recorded.submit sql params confirm respond (s.recording log) =
      ((p.submit sql params confirm respond s).1,
        (p.submit sql params confirm respond s).2.recording (log ++ p.submitted sql params confirm)) := by
  cases h : (p.validator.validate sql.toList confirm).accepted with
  | false =>
    rw [submit_rejected h, submit_rejected (p := p.recorded) h]
    simp [submitted, h]
  | true =>
    rw [submit_accepted h, submit_accepted (p := p.recorded) h, recorded_engine,
      Executor.execute_recorded]
    simp [submitted, h]

theorem interpret_recorded (p : Pipeline σ) (now : Nat) (text : String) (s : Session σ)
    (log : List Call) : p.recorded.interpret now text (s.recording log) =
      ((p.interpret now text s).1, (p.interpret now text s).2.recording log) := by
  simp only [interpret, recorded_engine, recorded_interpreter, Executor.schema_recorded]
  cases Executor.schema p.engine now none s with
  | mk r s' => cases r <;> simp only

def asked (p : Pipeline σ) (now : Nat) (r : AskRequest) (s : Session σ) : List Call :=
  match (p.interpret now r.query s).1 with
  | .ok i => p.submitted i.sql [] r.confirm
  | .error _ => []

theorem ask_recorded (p : Pipeline σ) (now : Nat) (r : AskRequest) (s : Session σ) (log : List Call) :
    p.recorded.ask now r.query r.confirm (s.recording log) =
      ((p.ask now r.query r.confirm s).1,
        (p.ask now r.query r.confirm s).2.recording (log ++ p.asked now r s)) := by
  simp only [ask, interpret_recorded, asked]
  cases p.interpret now r.query s with
  | mk i s' =>
    cases i with
    | error e => simp only [List.append_nil]
    | ok i => exact p.submit_recorded ..

def executed (p : Pipeline σ) (now : Nat) (r : Request) (s : Session σ) : List Call :=
  match r with
  | .ask r => p.asked now r s
  | .raw r => p.submitted r.sql r.params r.confirm
  | .interpret _ | .validate _ | .schema _ => []

/-- Recording changes neither the answer nor the session, and what is recorded does not depend on
the log so far. -/
theorem serve_recorded (p : Pipeline σ) (now : Nat) (r : Request) (s : Session σ) (log : List Call) :
    p.recorded.serve now r (s.recording log) =
      ((p.serve now r s).1, (p.serve now r s).2.recording (log ++ p.executed now r s)) := by
  cases r with
  | ask r => simp only [serve, ask_recorded, executed]
  | raw r => simp only [serve, raw, submit_recorded, executed]
  | interpret text => simp only [serve, interpret_recorded, executed, List.append_nil]
  | validate r => simp only [serve, validate, recorded_validator, executed, List.append_nil]
  | schema r =>
    simp only [serve, recorded_engine, Executor.schema_recorded, executed, List.append_nil]

theorem calls_eq (p : Pipeline σ) (now : Nat) (r : Request) (s : Session σ) :
    p.calls now r s = p.executed now r s := by
  rw [calls, serve_recorded, List.nil_append]
  rfl

end Pipeline

/-! ### Traces -/

/-- One request of a run: its answer, the statements it executed, and the sessions around it. -/
structure Exchange (σ : Type) where
  now : Nat
  request : Request
  answer : Answer
  calls : List Call
  before : Session σ
  after : Session σ

namespace Pipeline

def exchange (p : Pipeline σ) (now : Nat) (r : Request) (s : Session σ) : Exchange σ :=
  ⟨now, r, (p.serve now r s).1, p.calls now r s, s, (p.serve now r s).2⟩

def trace (p : Pipeline σ) : List (Nat × Request) → Session σ → List (Exchange σ)
  | [], _ => []
  | (now, r) :: rs, s => p.exchange now r s :: p.trace rs (p.serve now r s).2

/-- A trace tells all that a run answers and executes. -/
theorem run_recorded (p : Pipeline σ) (rs : List (Nat × Request)) (s : Session σ) (log : List Call) :
    p.recorded.run rs (s.recording log) = ((p.trace rs s).map (·.answer),
      (p.run rs s).2.recording (log ++ (p.trace rs s).flatMap (·.calls))) := by
  induction rs generalizing s log with
  | nil => simp [run, trace]
  | cons r rs ih =>
    obtain ⟨now, r⟩ := r
    simp only [run, trace, serve_recorded, ih, List.map_cons, List.flatMap_cons, exchange, calls_eq,
      List.append_assoc]

theorem run_answers (p : Pipeline σ) (rs : List (Nat × Request)) (s : Session σ) :
    (p.run rs s).1 = (p.trace rs s).map (·.answer) := by
  induction rs generalizing s with
  | nil => rfl
  | cons r rs ih => simp only [run, trace, ih, List.map_cons, exchange]

/-- Every exchange of a run is a request served in some session. -/
theorem mem_trace {p : Pipeline σ} {rs : List (Nat × Request)} {s : Session σ} {x : Exchange σ}
    (h : x ∈ p.trace rs s) : ∃ now r s', x = p.exchange now r s' := by
  induction rs generalizing s with
  | nil => cases h
  | cons r rs ih =>
    rcases List.mem_cons.mp h with rfl | h
    · exact ⟨r.1, r.2, s, rfl⟩
    · exact ih h

end Pipeline

end Parlance
