import Parlance.CommandLine.Run
import Parlance.Proofs.Interpretation.Stages

/-! Statements are judged by the same rules with and without a backend. Whatever configures an engine
also gives the safety settings by themselves, from a file as from the environment, and they are the
ones that the pipeline goes by. -/

namespace Parlance

open Json (objectField? default? bool? word32? listOf? text?)

/-! ### Files -/

/-- What the fields of an object say about safety, each for itself. -/
structure SafetyFields (fields : List (String × Json)) (s : SafetySettings) : Prop where
  destructive : (objectField? fields ("allow_destructive_queries", .defaulted)).bind
    (default? false bool?) = some s.allowDestructive
  complexity : (objectField? fields ("max_query_complexity", .defaulted)).bind
    (default? defaultMaxComplexity word32?) = some s.maxComplexity
  tables : (objectField? fields ("allowed_tables", .defaulted)).bind
    (default? [] (listOf? text?)) = some s.allowedTables

variable {fields : List (String × Json)}

/-- The other fields of a configuration have no part in it. -/
theorem safetyFields_of_config {c : Config} (h : Config.ofJson? (.object fields) = some c) :
    SafetyFields fields c.safety := by
  obtain ⟨vs, hvs, h⟩ := Option.bind_eq_some_iff.mp h
  simp only [Config.shape, Json.record?, List.mapM_cons, List.mapM_nil, Option.bind_eq_bind,
    Option.bind_eq_some_iff, Option.pure_def, Option.some.injEq] at hvs
  obtain ⟨backend, -, l, ⟨destructive, hd, l, ⟨complexity, hx, l, ⟨timeout, -, l, ⟨cache, -, l,
    ⟨ttl, -, l, ⟨tables, ht, l, ⟨timestamps, -, l, ⟨log, -, l, ⟨level, -, l, rfl, rfl⟩, rfl⟩, rfl⟩, rfl⟩, rfl⟩, rfl⟩,
    rfl⟩, rfl⟩, rfl⟩, rfl⟩ := hvs
  cases backend with
  | none => cases h
  | some backend =>
    simp only [Option.bind_eq_bind, Option.bind_eq_some_iff, Option.some.injEq] at h
    obtain ⟨-, -, d, hd', x, hx', -, -, -, -, -, -, t, ht', -, -, -, -, -, -, rfl⟩ := h
    exact ⟨by simp [hd, hd', Config.safety], by simp [hx, hx', Config.safety], by simp [ht, ht', Config.safety]⟩

theorem SafetyFields.ofJson? {s : SafetySettings} (h : SafetyFields fields s) :
    SafetySettings.ofJson? (.object fields) = some s := by
  obtain ⟨hd, hc, ht⟩ := h
  obtain ⟨d, hd, hd'⟩ := Option.bind_eq_some_iff.mp hd
  obtain ⟨x, hc, hc'⟩ := Option.bind_eq_some_iff.mp hc
  obtain ⟨t, ht, ht'⟩ := Option.bind_eq_some_iff.mp ht
  simp [SafetySettings.ofJson?, Json.record?, hd, hc, ht, hd', hc', ht']

theorem safety_of_file {f : FileContents} {c : Config} (hf : f.json = .ok (.object fields))
    (h : Config.ofFile f = .ok c) : SafetySettings.ofFile f = .ok c.safety := by
  rw [Config.ofFile, hf, ok_bind] at h
  cases hc : Config.ofJson? (.object fields) with
  | none =>
    rw [hc] at h
    cases h
  | some c' =>
    rw [hc] at h
    obtain ⟨u, -, h⟩ := bind_eq_ok h
    cases h
    rw [SafetySettings.ofFile, hf, ok_bind, (safetyFields_of_config hc).ofJson?]

/-! ### The environment -/

theorem safety_of_environment {env : Environment} {c : Config} (h : Config.ofEnvironment env = .ok c) :
    SafetySettings.ofEnvironment env = .ok c.safety := by
  obtain ⟨connections, -, h⟩ := bind_eq_ok h
  obtain ⟨backend, -, h⟩ := bind_eq_ok h
  obtain ⟨s, hs, h⟩ := bind_eq_ok h
  obtain ⟨timeout, -, h⟩ := bind_eq_ok h
  obtain ⟨cache, -, h⟩ := bind_eq_ok h
  -- What is read behind the safety settings has no part in them.
  dsimp only at h
  split at h
  · obtain ⟨n, -, h⟩ := bind_eq_ok h
    obtain ⟨ttl, -, h⟩ := bind_eq_ok h
    obtain ⟨log, -, h⟩ := bind_eq_ok h
    obtain ⟨u, -, h⟩ := bind_eq_ok h
    cases h
    exact hs
  · obtain ⟨ttl, -, h⟩ := bind_eq_ok h
    obtain ⟨log, -, h⟩ := bind_eq_ok h
    obtain ⟨u, -, h⟩ := bind_eq_ok h
    cases h
    exact hs

/-! ### Commands -/

open CommandLine

variable {m : Type → Type} [Monad m]

/-- Where the program finds its configuration, and what it says. -/
inductive Configured (w : Surroundings m) (c : Config) : Option String → Prop
  | file {path : String} {f : FileContents} {fields : List (String × Json)} (hf : w.file path = pure f)
      (hobject : f.json = .ok (.object fields)) (hc : Config.ofFile f = .ok c) : Configured w c (some path)
  | environment {env : Environment} (he : w.environment = pure env) (hc : Config.ofEnvironment env = .ok c) :
      Configured w c none

theorem ofExcept_ok {α : Type} (a : α) : (MonadExcept.ofExcept (.ok a) : ExceptT Error m α) = pure a := rfl

variable [LawfulMonad m] {w : Surroundings m} {c : Config} {config : Option String}

/-- A command that connects finds the configuration, and the offline check its safety settings. -/
theorem Configured.settings (h : Configured w c config) :
    CommandLine.settings w config Config.ofFile Config.ofEnvironment = pure c ∧
      CommandLine.settings w config SafetySettings.ofFile SafetySettings.ofEnvironment = pure c.safety := by
  cases h with
  | file hf hobject hc =>
    have hs := safety_of_file hobject hc
    constructor
    · simp [CommandLine.settings, hf, hc, ofExcept_ok]
    · simp [CommandLine.settings, hf, hs, ofExcept_ok]
  | environment he hc =>
    have hs := safety_of_environment hc
    constructor
    · simp [CommandLine.settings, he, hc, ofExcept_ok]
    · simp [CommandLine.settings, he, hs, ofExcept_ok]

theorem Configured.run_validate (h : Configured w c config) (sql : String) :
    Invocation.run w ⟨config, .validate sql⟩ =
      pure (.ok (.object (c.validator.validate sql.toList false).summary)) := by
  change (validateOffline w config sql).run = _
  simp only [validateOffline, h.settings.2, pure_bind]
  rfl

/-- A file or an environment that configures a pipeline gives the offline check its settings, and the
verdicts on every statement are the same, with and without confirmation. -/
theorem offline_verdict (m : Type → Type) [Monad m] [LawfulMonad m] :
    (∀ f fields c, FileContents.json f = .ok (.object fields) → Config.ofFile f = .ok c →
      SafetySettings.ofFile f = .ok c.safety) ∧
    (∀ env c, Config.ofEnvironment env = .ok c → SafetySettings.ofEnvironment env = .ok c.safety) ∧
    ∀ (w : Surroundings m) (c : Config) (config : Option String), Configured w c config →
      ∃ s, CommandLine.settings w config SafetySettings.ofFile SafetySettings.ofEnvironment = pure s ∧
        ∀ {σ : Type} (e : Engine σ) (sql : String),
          (∀ confirm, (Pipeline.ofConfig c e).validator.validate sql.toList confirm =
            s.validator.validate sql.toList confirm) ∧
          Invocation.run w ⟨config, .validate sql⟩ =
            pure (.ok (.object ((Pipeline.ofConfig c e).validate sql).summary)) := by
  refine ⟨fun f fields c => safety_of_file, fun env c => safety_of_environment, fun w c config h => ?_⟩
  exact ⟨c.safety, h.settings.2, fun e sql => ⟨fun confirm => rfl, h.run_validate sql⟩⟩

/-- A file in which other keys surround the safety settings, and an environment. -/
theorem offline_verdict_users : ∃ (f : FileContents) (fields : List (String × Json)) (env : Environment)
    (c d : Config) (w : Surroundings Id),
    f.json = .ok (.object fields) ∧ Config.ofFile f = .ok c ∧ c.allowedTables = ["Users"] ∧
      SafetySettings.ofFile f = .ok c.safety ∧
      Config.ofEnvironment env = .ok d ∧ d.maxComplexity = 7 ∧ SafetySettings.ofEnvironment env = .ok d.safety ∧
      Configured w c (some "settings.json") ∧
      ∀ sql, Invocation.run w ⟨some "settings.json", .validate sql⟩ =
        pure (.ok (.object ((Pipeline.ofConfig c (Sqlite.engine ⟨c.timeoutMs, 0⟩)).validate sql).summary)) := by
  let text := "\x7b\"x\":[[1]],\"backend\":[\"sqlite\",\"a\"],\"allowed_tables\":[\"Users\"]\x7d"
  let f : FileContents := some (text.toList.map (·.toNat.toUInt8))
  let env : Environment := ([("QUERYGATE_BACKEND", "SQLite"), ("SQLITE_PATH", "a"),
    ("MAX_QUERY_COMPLEXITY", " 7")].lookup ·)
  let w : Surroundings Id := {
    environment := env, file := fun _ => f, database := fun _ => none, keep := fun _ _ => ()
    server := fun _ _ => .error "", now := 0 }
  have hobject : f.json.toOption.any (fun j => (Json.mapOf? some j).isSome) = true := by decide +kernel
  have hfile : (Config.ofFile f).toOption.any (·.allowedTables = ["Users"]) = true := by decide +kernel
  have henv : (Config.ofEnvironment env).toOption.any (·.maxComplexity = 7) = true := by decide +kernel
  obtain ⟨j, hj, hobject⟩ := exists_ok_of_any hobject
  obtain ⟨c, hc, htables⟩ := exists_ok_of_any hfile
  obtain ⟨d, hd, hcomplexity⟩ := exists_ok_of_any henv
  cases j with
  | object fields =>
    have hw : Configured w c (some "settings.json") := .file rfl hj hc
    obtain ⟨hsafetyFile, hsafetyEnv, hcommand⟩ := offline_verdict Id
    obtain ⟨s, -, hverdicts⟩ := hcommand w c (some "settings.json") hw
    exact ⟨f, fields, env, c, d, w, hj, hc, of_decide_eq_true htables, hsafetyFile f fields c hj hc, hd,
      of_decide_eq_true hcomplexity, hsafetyEnv env d hd, hw,
      fun sql => (hverdicts (Sqlite.engine ⟨c.timeoutMs, 0⟩) sql).2⟩
  | _ => cases hobject

end Parlance
