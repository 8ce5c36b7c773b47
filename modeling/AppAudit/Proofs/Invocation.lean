/-
How far a run gets that is to audit.

A line that does not ask for help is read, the configuration is loaded and checked, flags and path are checked, and the
sources below the path are collected; all this, as data with the facts that make each step succeed, is an `Invocation`.
With one, a run goes through to its report (`Invocation.execute_eq`). Without one, it fails with exit code 1 before
anything has been written (`execute_of_isEmpty`).
-/
import Mathlib.Tactic
import AppAudit.Command.Run
import AppAudit.Proofs.LogLines

namespace AppAudit

/-! ## The commands that audit -/

/-- the commands that audit a path -/
def Command.Audits (c : Command) : Prop := c = .program ∨ c = .audit

theorem Command.Audits.read {c : Command} (h : c.Audits) (line : List (List Char)) :
    c.read line = CommandLine.read c.flags line := by
  rcases h with rfl | rfl
  · rfl
  · rfl

/-- any number of paths is read; whether it fits is found later -/
theorem Command.Audits.argumentFault? {c : Command} (h : c.Audits) (arguments : List (List Char)) :
    c.argumentFault? arguments = none := by
  rcases h with rfl | rfl
  · rfl
  · rfl

theorem Command.Audits.perform {c : Command} (h : c.Audits) (env : Environment) (config : Config) (line : CommandLine) :
    env.perform config line c = env.audit config c line.auditFlags line.arguments := by
  rcases h with rfl | rfl
  · rfl
  · rfl

/-- the logger of an audit has a name of one line -/
theorem newline_not_mem_core (level : String) (c : Option Config) :
    '\n' ∉ (Logger.make level c "core-audit").1.name.toList :=
  (by decide : '\n' ∉ "core-audit".toList)

/-! ## Runs that get as far as their report -/

/-- a run of a command that gets as far as its report: what the line says, the configuration, the path and the sources
below it, in the order of the steps that find them -/
structure Invocation (env : Environment) (c : Command) (line : List (List Char)) where
  parsed : CommandLine
  config : Config
  target : List Char
  sources : List (List Char)
  audits : c.Audits
  reads : CommandLine.read c.flags line = .ok parsed
  noHelp : parsed.isOn "help" = false
  loads : Config.load env.files (parsed.text "config") = .ok config
  valid : checkConfig (some config) = .ok ()
  accepts : parsed.auditFlags.target env.files env.home parsed.arguments = .ok target
  collects : env.files.collect target = .ok sources

namespace Invocation

variable {env : Environment} {c : Command} {line : List (List Char)}

/-- the result of auditing the sources -/
def result (p : Invocation env c line) : Result := env.files.auditFiles catalog p.sources

def format (p : Invocation env c line) : String := (settings (some p.config) p.parsed.auditFlags).1

def threads (p : Invocation env c line) : Int := (settings (some p.config) p.parsed.auditFlags).2

/-- the path that the report is to be written to; empty for standard output -/
def output (p : Invocation env c line) : String := p.parsed.auditFlags.output

def job (p : Invocation env c line) : ReportJob := ⟨p.format, p.result, p.target⟩

def delivery (p : Invocation env c line) : Delivery := p.job.deliver env p.output

def logger (p : Invocation env c line) : Logger := (Logger.make env.logLevel (some p.config) "core-audit").1

/-- what is logged while the sources are audited -/
def walkEntries (p : Invocation env c line) : List LogEntry :=
  env.files.auditEntries p.target (Pool.width p.threads) env.turns p.result

/-- what is logged from the first to the last step -/
def log (p : Invocation env c line) : String :=
  (Logger.make env.logLevel (some p.config) "core-audit").2 ++
    (env.writeLog (p.logger.named "walker") 0 p.walkEntries ++
      env.writeLog p.logger p.walkEntries.length
        (p.delivery.entries ++ (Environment.verdict p.result p.delivery.error).2))

/-- what the run leaves behind, up to its last words -/
def outcome (p : Invocation env c line) : RunOutcome :=
  { ending := (Environment.verdict p.result p.delivery.error).1
    stdout := p.delivery.stdout
    stderr := p.log
    files := p.delivery.files }

@[simp] theorem stdout_outcome (p : Invocation env c line) : p.outcome.stdout = p.delivery.stdout := rfl

@[simp] theorem stderr_outcome (p : Invocation env c line) : p.outcome.stderr = p.log := rfl

@[simp] theorem files_outcome (p : Invocation env c line) : p.outcome.files = p.delivery.files := rfl

theorem ruled_log (p : Invocation env c line) : Ruled p.log.toList := by
  have hwalker : '\n' ∉ (p.logger.named "walker").name.toList := (by decide : '\n' ∉ "core-audit.walker".toList)
  have hentries : ∀ e ∈ p.delivery.entries ++ (Environment.verdict p.result p.delivery.error).2, e.Tidy := by
    intro e he
    rcases List.mem_append.1 he with he | he
    · exact p.job.tidy_deliver env p.output e he
    · exact Environment.tidy_verdict _ _ e he
  unfold log
  rw [String.toList_append, String.toList_append]
  refine (Logger.ruled_make _ _ _).append (Ruled.append ?_ ?_)
  · exact env.ruled_writeLog hwalker 0 FileSystem.tidy_auditEntries
  · exact env.ruled_writeLog (newline_not_mem_core _ _) _ hentries

/-- a run that gets as far as its report ends as the report does -/
theorem execute_eq (p : Invocation env c line) : env.execute c line = p.outcome := by
  have hconfig : env.configuration (p.parsed.text "config") = .ok p.config := by
    unfold Environment.configuration
    simp only [p.loads, p.valid]
  have haudit : env.files.auditPath catalog p.target = .ok p.result := by
    unfold FileSystem.auditPath
    rw [p.collects]
    rfl
  unfold Environment.execute
  simp only [p.audits.read, p.reads, p.noHelp, p.audits.argumentFault?, hconfig, Bool.false_eq_true, if_false]
  rw [p.audits.perform]
  unfold Environment.audit Environment.auditTarget
  simp only [p.accepts, haudit]
  rfl

end Invocation

/-! ## Runs that get less far -/

/-- the run has failed before anything was written, and the user has yet to be told -/
structure RunOutcome.Refused (o : RunOutcome) (env : Environment) : Prop where
  told : ∃ cause, o.ending = .failed cause ∧ cause.reported = false
  exitCode : o.exitCode = 1
  stdout : o.stdout = []
  files : o.files = env.files
  stderr : EndsLine o.stderr

namespace Environment

variable {env : Environment}

theorem refused_of_failure {cause : Failure} {said : String} (hcode : cause.exitCode = 1)
    (htold : cause.reported = false) (hsaid : EndsLine said) :
    RunOutcome.Refused { ending := .failed cause, stderr := said, files := env.files } env :=
  ⟨⟨cause, rfl, htold⟩, hcode, rfl, rfl, hsaid⟩

theorem configuration_eq_ok {path : List Char} {config : Config} (h : env.configuration path = .ok config) :
    Config.load env.files path = .ok config ∧ checkConfig (some config) = .ok () := by
  unfold configuration at h
  split at h
  · cases h
  · rename_i loaded hload
    split at h
    · cases h
    · rename_i hcheck
      cases h
      exact ⟨hload, hcheck⟩

theorem refused_of_configuration {path : List Char} {cause : Failure} (h : env.configuration path = .error cause) :
    (env.fail cause).Refused env := by
  unfold configuration at h
  split at h
  · cases h
    exact refused_of_failure rfl rfl (Or.inl rfl)
  · split at h
    · cases h
      exact refused_of_failure rfl rfl (Or.inl rfl)
    · cases h

/-- flags or arguments that do not fit are refused, if need be with the usage in front of the reason -/
theorem refused_of_arguments {config : Config} {c : Command} {flags : AuditFlags} {arguments : List (List Char)}
    {e : ArgumentError} (h : flags.target env.files env.home arguments = .error e) :
    (env.audit config c flags arguments).Refused env := by
  have husage : EndsLine (if arguments.isEmpty then c.usage else "") := by
    split_ifs
    · exact endsLine_append_newline _
    · exact Or.inl rfl
  have hentry (text : String) : LogEntry.Tidy
      { level := .error, message := "invalid audit arguments", pairs := [("error", .text text)] } :=
    ⟨(by decide : '\n' ∉ "invalid audit arguments".toList), (by decide : ∀ key ∈ ["error"], '\n' ∉ key.toList)⟩
  unfold audit
  simp only [h]
  refine refused_of_failure rfl rfl ?_
  exact ((Logger.ruled_make _ _ _).endsLine.append husage).append
    (env.ruled_writeLog (newline_not_mem_core _ _) 0 (List.forall_mem_singleton.2 (hentry _))).endsLine

theorem refused_of_walk {config : Config} {c : Command} {flags : AuditFlags} {arguments : List (List Char)}
    {target : List Char} {e : WalkError} (h : flags.target env.files env.home arguments = .ok target)
    (hwalk : env.files.collect target = .error e) : (env.audit config c flags arguments).Refused env := by
  have haudit : env.files.auditPath catalog target = .error e := by
    unfold FileSystem.auditPath
    rw [hwalk]
    rfl
  have hentry : LogEntry.Tidy
      { level := .error, message := "audit failed", pairs := [pathPair "target" target, ("error", .text e.text)] } :=
    ⟨(by decide : '\n' ∉ "audit failed".toList), (by decide : ∀ key ∈ ["target", "error"], '\n' ∉ key.toList)⟩
  unfold audit auditTarget
  simp only [h, haudit]
  refine refused_of_failure rfl rfl ?_
  exact (Logger.ruled_make _ _ _).endsLine.append
    (env.ruled_writeLog (newline_not_mem_core _ _) 0 (List.forall_mem_singleton.2 hentry)).endsLine

/-- a run that does not get as far as its report fails with exit code 1 before anything has been written -/
theorem execute_of_isEmpty {c : Command} {line : List (List Char)} (hc : c.Audits)
    (hhelp : ∀ parsed, CommandLine.read c.flags line = .ok parsed → parsed.isOn "help" = false)
    (h : IsEmpty (Invocation env c line)) : (env.execute c line).Refused env := by
  unfold execute
  rw [hc.read]
  cases hread : CommandLine.read c.flags line with
  | error e => exact refused_of_failure rfl rfl (Or.inl rfl)
  | ok parsed =>
    simp only [hhelp parsed hread, hc.argumentFault?, Bool.false_eq_true, if_false]
    cases hconfig : env.configuration (parsed.text "config") with
    | error cause => exact refused_of_configuration hconfig
    | ok config =>
      dsimp only
      rw [hc.perform]
      cases htarget : parsed.auditFlags.target env.files env.home parsed.arguments with
      | error e => exact refused_of_arguments htarget
      | ok target =>
        cases hwalk : env.files.collect target with
        | error e => exact refused_of_walk htarget hwalk
        | ok sources =>
          obtain ⟨hload, hcheck⟩ := configuration_eq_ok hconfig
          exact (h.false ⟨parsed, config, target, sources, hc, hread, hhelp parsed hread, hload, hcheck, htarget,
            hwalk⟩).elim

end Environment

end AppAudit
