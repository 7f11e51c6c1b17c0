import Parlance.Proofs.Interpretation.Grounded
import Parlance.Proofs.Pipeline.Run
import Parlance.Proofs.Validation.Destructive

/-! The gate before the engine: whatever requests are made, in whatever order and however the
engine behaves, it executes nothing that the validator did not accept. -/

namespace Parlance

variable {σ : Type}

namespace Pipeline

/-- The request ends before there is a statement to execute: no schema, no interpretation, or no
acceptance. -/
inductive Refuses (p : Pipeline σ) (now : Nat) (s : Session σ) : Request → Error → Prop
  | uninterpreted {r : AskRequest} {e : Error} (h : (p.interpret now r.query s).1 = .error e) :
      Refuses p now s (.ask r) e
  | unaccepted {r : AskRequest} {i : Interpretation} {e : Error}
      (h : (p.interpret now r.query s).1 = .ok i) (he : p.check i.sql r.confirm = .error e) :
      Refuses p now s (.ask r) e
  | rejected {r : RawRequest} {e : Error} (he : p.check r.sql r.confirm = .error e) :
      Refuses p now s (.raw r) e

/-- What the gate guarantees of one exchange. -/
structure Gated (p : Pipeline σ) (x : Exchange σ) : Prop where
  accepted : ∀ c ∈ x.calls, (p.validator.validate c.sql.toList x.request.confirms).accepted = true
  atMostOne : x.calls.length ≤ if x.request.executes then 1 else 0
  refused : ∀ e, p.Refuses x.now x.before x.request e → x.calls = [] ∧ x.answer.failsWith e
  /-- A request that fails, at whatever stage, executed nothing, unless the engine itself answered
  its statement with that error. -/
  failed : ∀ e, x.answer.failsWith e →
    x.calls = [] ∨ ∃ c ∈ x.calls, ∃ state, (p.engine.execute c.sql c.params state).1 = .error e
  /-- Whatever introspection leaves alone stays as it is unless a statement is executed. -/
  unchanged : ∀ {δ : Type} (data : σ → δ),
    (∀ table state, data (p.engine.introspect table state).2 = data state) →
    x.calls = [] → data x.after.engine = data x.before.engine
  harmless : p.validator.allowDestructive = false → x.request.confirms = false →
    ∀ c ∈ x.calls, (p.validator.validate c.sql.toList false).isDestructive = false
  dryRun : ∀ text schema, x.request = .ask ⟨text, false⟩ →
    (Executor.schema p.engine x.now none x.before).1 = .ok schema →
    ∀ sql errors, (x.answer = .response (.error (.validationRejected sql errors)) ∧ x.calls = []) ↔
      ∃ i, p.interpreter.interpret text schema = .ok i ∧ i.sql = sql ∧
        (p.validate sql).accepted = false ∧ (p.validate sql).errors = errors

variable {p : Pipeline σ} {now : Nat} {s : Session σ}

theorem mem_submitted {sql : String} {params : List Param} {confirm : Bool} {c : Call}
    (h : c ∈ p.submitted sql params confirm) :
    c = ⟨sql, params⟩ ∧ (p.validator.validate sql.toList confirm).accepted = true := by
  simp only [submitted] at h
  split at h
  · next ha => exact ⟨List.mem_singleton.mp h, ha⟩
  · cases h

theorem length_submitted (sql : String) (params : List Param) (confirm : Bool) :
    (p.submitted sql params confirm).length ≤ 1 := by
  simp only [submitted]
  split <;> simp

/-- A request executes at most what it submits. -/
theorem mem_executed {r : Request} {c : Call} (h : c ∈ p.executed now r s) :
    (p.validator.validate c.sql.toList r.confirms).accepted = true := by
  cases r with
  | ask r =>
    simp only [executed, asked] at h
    split at h
    · obtain ⟨rfl, ha⟩ := mem_submitted h
      exact ha
    · cases h
  | raw r =>
    obtain ⟨rfl, ha⟩ := mem_submitted h
    exact ha
  | interpret text => cases h
  | validate r => cases h
  | schema r => cases h

theorem length_executed (r : Request) :
    (p.executed now r s).length ≤ if r.executes then 1 else 0 := by
  cases r with
  | ask r =>
    simp only [executed, asked]
    split
    · exact length_submitted ..
    · exact Nat.zero_le _
  | raw r => exact length_submitted ..
  | interpret text => exact Nat.le_refl _
  | validate r => exact Nat.le_refl _
  | schema r => exact Nat.le_refl _

theorem check_eq_error {sql : String} {confirm : Bool} {e : Error} (h : p.check sql confirm = .error e) :
    (p.validator.validate sql.toList confirm).accepted = false ∧
      e = .validationRejected sql (p.validator.validate sql.toList confirm).errors := by
  simp only [check] at h
  split at h
  · cases h
  · next ha =>
    cases h
    exact ⟨by simpa using ha, rfl⟩

theorem submitted_of_rejected {sql : String} {confirm : Bool} (params : List Param)
    (h : (p.validator.validate sql.toList confirm).accepted = false) :
    p.submitted sql params confirm = [] := by
  simp [submitted, h]

theorem submitted_of_accepted {sql : String} {confirm : Bool} (params : List Param)
    (h : (p.validator.validate sql.toList confirm).accepted = true) :
    p.submitted sql params confirm = [⟨sql, params⟩] := by
  simp [submitted, h]

theorem submit_failed {sql : String} {params : List Param} {confirm : Bool}
    {respond : Verdict → ExecutionResult → Response} {e : Error}
    (h : (p.submit sql params confirm respond s).1 = .error e) :
    p.submitted sql params confirm = [] ∨ ∃ c ∈ p.submitted sql params confirm,
      ∃ state, (p.engine.execute c.sql c.params state).1 = .error e := by
  cases ha : (p.validator.validate sql.toList confirm).accepted with
  | false => exact .inl (submitted_of_rejected params ha)
  | true =>
    right
    rw [submit_accepted ha] at h
    rw [submitted_of_accepted params ha]
    refine ⟨_, List.mem_singleton_self _, s.engine, ?_⟩
    simp only [Executor.execute] at h
    cases hr : (p.engine.execute sql params s.engine).1 with
    | ok r =>
      rw [hr] at h
      cases h
    | error e' =>
      rw [hr] at h
      cases h
      rfl

/-- Nothing submitted, nothing changed. -/
theorem submit_unchanged {sql : String} {params : List Param} {confirm : Bool}
    {respond : Verdict → ExecutionResult → Response} (h : p.submitted sql params confirm = []) :
    (p.submit sql params confirm respond s).2 = s := by
  cases ha : (p.validator.validate sql.toList confirm).accepted with
  | false => rw [submit_rejected ha]
  | true =>
    rw [submitted_of_accepted params ha] at h
    cases h

theorem ask_of_interpret_error {r : AskRequest} {e : Error}
    (h : (p.interpret now r.query s).1 = .error e) :
    p.ask now r.query r.confirm s = (.error e, (p.interpret now r.query s).2) ∧ p.asked now r s = [] := by
  simp only [ask, asked]
  cases hi : p.interpret now r.query s with
  | mk i s' =>
    rw [hi] at h
    cases h
    exact ⟨rfl, rfl⟩

theorem ask_of_interpret_ok {r : AskRequest} {i : Interpretation}
    (h : (p.interpret now r.query s).1 = .ok i) :
    p.ask now r.query r.confirm s = p.submit i.sql [] r.confirm
        (fun v x => ⟨i.sql, some i.operation, i.warnings ++ v.warnings, x⟩) (p.interpret now r.query s).2 ∧
      p.asked now r s = p.submitted i.sql [] r.confirm := by
  simp only [ask, asked]
  cases hi : p.interpret now r.query s with
  | mk i s' =>
    rw [hi] at h
    cases h
    exact ⟨rfl, rfl⟩

theorem exchange_refused {r : Request} {e : Error} (h : p.Refuses now s r e) :
    p.executed now r s = [] ∧ (p.serve now r s).1.failsWith e := by
  cases h with
  | @uninterpreted r e h =>
    obtain ⟨ha, hc⟩ := ask_of_interpret_error h
    exact ⟨hc, .inl (by simp only [serve, ha])⟩
  | @unaccepted r i e h he =>
    obtain ⟨ha, hc⟩ := ask_of_interpret_ok h
    obtain ⟨hv, rfl⟩ := check_eq_error he
    refine ⟨hc.trans (submitted_of_rejected [] hv), .inl ?_⟩
    simp only [serve, ha, submit_rejected hv]
  | @rejected r e he =>
    obtain ⟨hv, rfl⟩ := check_eq_error he
    refine ⟨submitted_of_rejected r.params hv, .inl ?_⟩
    simp only [serve, raw, submit_rejected hv]

theorem failsWith_response {r : Except Error Response} {e : Error}
    (h : (Answer.response r).failsWith e) : r = .error e := by
  rcases h with h | h | h
  · exact Answer.response.inj h
  · cases h
  · cases h

theorem exchange_failed {r : Request} {e : Error} (h : (p.serve now r s).1.failsWith e) :
    p.executed now r s = [] ∨ ∃ c ∈ p.executed now r s,
      ∃ state, (p.engine.execute c.sql c.params state).1 = .error e := by
  cases r with
  | ask r =>
    have he := failsWith_response h
    cases hi : (p.interpret now r.query s).1 with
    | error e' => exact .inl (ask_of_interpret_error hi).2
    | ok i =>
      obtain ⟨ha, hc⟩ := ask_of_interpret_ok hi
      rw [ha] at he
      simp only [executed, hc]
      exact submit_failed he
  | raw r => exact submit_failed (failsWith_response h)
  | interpret text => exact .inl rfl
  | validate r => exact .inl rfl
  | schema r => exact .inl rfl

theorem schema_unchanged {δ : Type} {data : σ → δ} {e : Engine σ}
    (h : ∀ table state, data (e.introspect table state).2 = data state) (table : Option String) :
    data (Executor.schema e now table s).2.engine = data s.engine := by
  simp only [Executor.schema, Schema.Cache.getOrLoad, Schema.Cache.getOrLoadUntil]
  split
  · exact h table _
  · split
    · rfl
    · exact h table s.engine

theorem interpret_session (text : String) :
    (p.interpret now text s).2 = (Executor.schema p.engine now none s).2 := by
  simp only [interpret]
  cases Executor.schema p.engine now none s with
  | mk r s' => cases r <;> rfl

theorem interpret_of_schema {schema : Schema}
    (h : (Executor.schema p.engine now none s).1 = .ok schema) (text : String) :
    (p.interpret now text s).1 = p.interpreter.interpret text schema := by
  simp only [interpret]
  cases hr : Executor.schema p.engine now none s with
  | mk r s' =>
    rw [hr] at h
    cases h
    simp only

theorem exchange_unchanged {δ : Type} {data : σ → δ} {r : Request}
    (h : ∀ table state, data (p.engine.introspect table state).2 = data state)
    (hc : p.executed now r s = []) : data (p.serve now r s).2.engine = data s.engine := by
  have hs (text : String) : data (p.interpret now text s).2.engine = data s.engine := by
    rw [interpret_session]
    exact schema_unchanged h none
  cases r with
  | ask r =>
    simp only [executed] at hc
    simp only [serve]
    cases hi : (p.interpret now r.query s).1 with
    | error e =>
      rw [(ask_of_interpret_error hi).1]
      exact hs r.query
    | ok i =>
      obtain ⟨ha, hcalls⟩ := ask_of_interpret_ok hi
      rw [ha, submit_unchanged (hcalls.symm.trans hc)]
      exact hs r.query
  | raw r =>
    simp only [serve, raw]
    rw [submit_unchanged hc]
  | interpret text => exact hs text
  | validate r => rfl
  | schema r => exact schema_unchanged h r.table

/-- An unconfirmed request is refused by the validator just when a dry run of it is. -/
theorem ask_rejected_iff {text : String} {schema : Schema}
    (h : (Executor.schema p.engine now none s).1 = .ok schema) (sql : String) (errors : List String) :
    ((p.ask now text false s).1 = .error (.validationRejected sql errors) ∧ p.asked now ⟨text, false⟩ s = []) ↔
      ∃ i, p.interpreter.interpret text schema = .ok i ∧ i.sql = sql ∧
        (p.validate sql).accepted = false ∧ (p.validate sql).errors = errors := by
  have hi := interpret_of_schema h text
  cases ht : p.interpreter.interpret text schema with
  | error e =>
    rw [ht] at hi
    rw [(ask_of_interpret_error (r := ⟨text, false⟩) hi).1]
    constructor
    · -- What the interpreter refuses, it refuses at its own stage.
      rintro ⟨he, -⟩
      cases he
      cases Interpreter.stage_of_interpret ht
    · rintro ⟨i, hok, -⟩
      cases hok
  | ok i =>
    rw [ht] at hi
    obtain ⟨ha, hc⟩ := ask_of_interpret_ok (r := ⟨text, false⟩) hi
    rw [ha, hc]
    constructor
    · rintro ⟨he, hnone⟩
      cases hv : (p.validator.validate i.sql.toList false).accepted with
      | true =>
        rw [submitted_of_accepted [] hv] at hnone
        cases hnone
      | false =>
        rw [submit_rejected hv] at he
        cases he
        exact ⟨i, rfl, rfl, hv, rfl⟩
    · rintro ⟨i', hok, rfl, hv, rfl⟩
      cases hok
      exact ⟨by rw [submit_rejected hv]; rfl, submitted_of_rejected [] hv⟩

theorem gated_exchange (p : Pipeline σ) (now : Nat) (r : Request) (s : Session σ) :
    p.Gated (p.exchange now r s) where
  accepted c hc := by
    rw [exchange, calls_eq] at hc
    exact mem_executed hc
  atMostOne := by
    rw [exchange, calls_eq]
    exact length_executed r
  refused e h := by
    rw [exchange, calls_eq]
    exact exchange_refused h
  failed e h := by
    rw [exchange, calls_eq]
    exact exchange_failed h
  unchanged data h hc := by
    rw [exchange, calls_eq] at hc
    exact exchange_unchanged h hc
  harmless hv hconfirm c hc := by
    rw [exchange, calls_eq] at hc
    have ha := mem_executed hc
    rw [show r.confirms = false from hconfirm] at ha
    cases hd : (p.validator.validate c.sql.toList false).isDestructive with
    | false => rfl
    | true =>
      rw [Validator.not_accepted_of_isDestructive hv hd] at ha
      cases ha
  dryRun text schema hr hs sql errors := by
    obtain rfl : r = .ask ⟨text, false⟩ := hr
    rw [← ask_rejected_iff hs sql errors, exchange, calls_eq]
    simp only [serve, executed, Answer.response.injEq]

/-- Over a run every statement that the engine executes belongs to one request, which passed the
gate with it. -/
theorem run_gated (p : Pipeline σ) (rs : List (Nat × Request)) (s : Session σ) :
    (p.recorded.run rs (s.recording [])).2 =
        (p.run rs s).2.recording ((p.trace rs s).flatMap (·.calls)) ∧
      (p.run rs s).1 = (p.trace rs s).map (·.answer) ∧
      ∀ x ∈ p.trace rs s, p.Gated x := by
  refine ⟨?_, run_answers p rs s, fun x hx => ?_⟩
  · rw [run_recorded, List.nil_append]
  · obtain ⟨now, r, s', rfl⟩ := mem_trace hx
    exact gated_exchange p now r s'

end Pipeline

end Parlance
