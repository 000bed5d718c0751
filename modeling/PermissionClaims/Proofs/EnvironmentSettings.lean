import PermissionClaims.Failure
import PermissionClaims.Proofs.FlagWords
import PermissionClaims.Proofs.LevelNames

/-!
# Settings from the environment, all cases

What is read from an environment is told by rules on its three variables (`Environment.Loads`). A
flag at fault is reported as such, the one for JSON before the other, and a level at fault only
where both flags are well; the level is checked as a setting of its own (`Config.ofFields_flags`).
Every fault is a report on the configuration.
-/

namespace PermissionClaims

theorem Config.ofFields_flags (s : String) (json dot : Bool) :
    ofFields [("log_level", .plain s), ("log_json", .bool json), ("allow_trailing_dot", .bool dot)]
      = (ofFields [("log_level", .plain s)]).map fun c =>
        { c with logJson := json, allowTrailingDot := dot } := by
  have hr : read readLevel "log_level" .info
      [("log_level", .plain s), ("log_json", .bool json), ("allow_trailing_dot", .bool dot)]
      = (readLevel (.plain s)).mapError fun cause => ⟨"log_level", .plain s, cause⟩ := rfl
  rw [ofFields_level, ofFields, hr]
  cases readLevel (.plain s) <;> rfl

namespace Environment

/-- What a caller is told of a fault. -/
def Fault.report (f : Fault) : Report :=
  Report.make .configuration (some (.plain f.message)) none f.details

/-- The report on a flag names its variable. -/
def flagReport (name given : String) : Report where
  kind := .configuration
  message := .plain (name ++ " must be a boolean flag, got " ++ (Value.plain given).rendered)
  code := .plain "CONFIGURATION_ERROR"
  details := [("variable", .plain name)]
  given? := none

/-- The report on a level has the message on it as a setting within its own. -/
def levelReport (f : Config.Fault) : Report where
  kind := .configuration
  message := .plain ("Invalid claimcore configuration: " ++ f.message)
  code := .plain "CONFIGURATION_ERROR"
  details := []
  given? := none

/-- What a flag's variable says; one that is not there says no. -/
def SaysAt (env : Environment) (name : String) (b : Bool) : Prop :=
  Says b (env.get name "false")

/-- The level as a setting by itself, with its text as it is. -/
def levelConfig (env : Environment) : Except Config.Fault Config :=
  Config.ofFields [("log_level", .plain (env.get levelVariable "INFO"))]

/-- What reading an environment comes to, one rule for each way it can go. -/
inductive Loads (env : Environment) : Except Report Config → Prop
  | badJson : (∀ b, ¬ env.SaysAt jsonVariable b) →
    Loads env (.error (flagReport jsonVariable (env.get jsonVariable "false")))
  | badDot {json : Bool} : env.SaysAt jsonVariable json → (∀ b, ¬ env.SaysAt dotVariable b) →
    Loads env (.error (flagReport dotVariable (env.get dotVariable "false")))
  | badLevel {json dot : Bool} {f : Config.Fault} : env.SaysAt jsonVariable json →
    env.SaysAt dotVariable dot → env.levelConfig = .error f → Loads env (.error (levelReport f))
  | good {json dot : Bool} {c : Config} : env.SaysAt jsonVariable json →
    env.SaysAt dotVariable dot → env.levelConfig = .ok c →
    Loads env (.ok ⟨c.logLevel, json, dot⟩)

variable {env : Environment}

theorem report_make_configuration (message : String) (h : message ≠ "") (details : Fields) :
    Report.make .configuration (some (.plain message)) none details
      = ⟨.configuration, .plain message, .plain "CONFIGURATION_ERROR", details, none⟩ := by
  have ht : (Value.plain message).isTruthy = true := decide_eq_true h
  rw [Report.make, Report.orDefault, if_pos ht]
  rfl

theorem report_badFlag (name given : String) :
    (Fault.badFlag name given).report = flagReport name given := by
  refine report_make_configuration (Fault.badFlag name given).message (fun h => ?_) _
  have hwords := (String.append_eq_empty_iff.1 (String.append_eq_empty_iff.1 h).1).2
  exact absurd hwords (by decide)

theorem report_settings (f : Config.Fault) : (Fault.settings f).report = levelReport f := by
  refine report_make_configuration (Fault.settings f).message (fun h => ?_) _
  exact absurd (String.append_eq_empty_iff.1 h).1 (by decide)

theorem config_of_flags {json dot : Bool} (hj : env.SaysAt jsonVariable json)
    (hd : env.SaysAt dotVariable dot) :
    env.config = (env.levelConfig.mapError .settings).map fun c => ⟨c.logLevel, json, dot⟩ := by
  rw [config, flag_of_says hj, flag_of_says hd]
  show (Config.ofFields _).mapError Fault.settings = _
  rw [Config.ofFields_flags, ← levelConfig]
  cases env.levelConfig <;> rfl

theorem config_of_loads {result : Except Report Config} (h : env.Loads result) :
    env.config.mapError Fault.report = result := by
  cases h with
  | badJson hj =>
    rw [config, flag_of_not_says hj, ← report_badFlag]
    rfl
  | badDot hj hd =>
    rw [config, flag_of_says hj, flag_of_not_says hd, ← report_badFlag]
    rfl
  | badLevel hj hd hl =>
    rw [config_of_flags hj hd, hl, ← report_settings]
    rfl
  | good hj hd hl =>
    rw [config_of_flags hj hd, hl]
    rfl

theorem exists_loads (env : Environment) : ∃ result, env.Loads result := by
  by_cases hj : ∃ b, env.SaysAt jsonVariable b
  · obtain ⟨json, hj⟩ := hj
    by_cases hd : ∃ b, env.SaysAt dotVariable b
    · obtain ⟨dot, hd⟩ := hd
      rcases hl : env.levelConfig with f | c
      · exact ⟨_, .badLevel hj hd hl⟩
      · exact ⟨_, .good hj hd hl⟩
    · exact ⟨_, .badDot hj (not_exists.1 hd)⟩
  · exact ⟨_, .badJson (not_exists.1 hj)⟩

/-- Nothing but the three variables is looked at. -/
theorem config_congr {env' : Environment}
    (h : ∀ name ∈ [levelVariable, jsonVariable, dotVariable], env'.get? name = env.get? name) :
    env'.config = env.config := by
  simp only [List.forall_mem_cons] at h
  obtain ⟨hlevel, hjson, hdot, -⟩ := h
  have hget : env'.get levelVariable "INFO" = env.get levelVariable "INFO" := by
    rw [get, get, hlevel]
  have hflag {name : String} (hn : env'.get? name = env.get? name) :
      env'.flag name = env.flag name := by
    have hname : env'.get name "false" = env.get name "false" := by rw [get, get, hn]
    rw [flag, flag, hname]
  rw [config, config, hget, hflag hjson, hflag hdot]

/-- Reading the environment gives settings or a report on the configuration, by the rules and no
other way. A flag says yes or no if its text is a word for it once it is trimmed and written in
small letters. Other variables make no difference. -/
theorem config_by_rules (env : Environment) :
    (∀ result, env.config.mapError Fault.report = result ↔ env.Loads result)
      ∧ (∀ f : Fault, (Failure.environment f).report? = some f.report
        ∧ f.report.kind = .configuration)
      ∧ (∀ (name : String) (b : Bool), env.SaysAt name b
        ↔ String.ofList (Text.lower (Text.trim (env.get name "false").toList)) ∈ words b)
      ∧ ∀ env' : Environment,
        (∀ name ∈ [levelVariable, jsonVariable, dotVariable], env'.get? name = env.get? name) →
          env'.config = env.config := by
  refine ⟨fun result => ⟨?_, config_of_loads⟩, fun f => ⟨rfl, rfl⟩, fun name b => says_iff,
    fun env' h => config_congr h⟩
  rintro rfl
  obtain ⟨result, h⟩ := exists_loads env
  rw [config_of_loads h]
  exact h

-- of three variables at fault the one for JSON is told
theorem config_by_rules_yes :
    let env : Environment := [("HOME", "/"), (jsonVariable, " YES\n"), (levelVariable, "debug")]
    let other : Environment := [(levelVariable, "debug"), (jsonVariable, " YES\n")]
    let bad : Environment :=
      [(levelVariable, "LOUD"), (dotVariable, "2"), (jsonVariable, "maybe")]
    (∀ name ∈ [levelVariable, jsonVariable, dotVariable], other.get? name = env.get? name)
      ∧ other.config = env.config
      ∧ env.config.mapError Fault.report = .ok ⟨.debug, true, false⟩
      ∧ bad.config.mapError Fault.report = .error (flagReport jsonVariable "maybe") := by
  intro env other bad
  obtain ⟨hrules, -, hflags, hother⟩ := config_by_rules env
  obtain ⟨hrules', -, hflags', -⟩ := config_by_rules bad
  have hagree : ∀ name ∈ [levelVariable, jsonVariable, dotVariable],
      other.get? name = env.get? name := by decide
  have hjson : env.SaysAt jsonVariable true := (hflags _ _).2 (by decide)
  have hdot : env.SaysAt dotVariable false := (hflags _ _).2 (by decide)
  have hgiven : env.get levelVariable "INFO" = "debug" := rfl
  have hlevel : env.levelConfig = .ok { logLevel := .debug } := by
    rw [levelConfig, hgiven]
    rfl
  have hbad : ∀ b, ¬ bad.SaysAt jsonVariable b := fun b => mt (hflags' _ b).1 (by revert b; decide)
  exact ⟨hagree, hother other hagree, (hrules _).2 (.good hjson hdot hlevel),
    (hrules' _).2 (.badJson hbad)⟩

end Environment

end PermissionClaims
