/-
The configuration of a run: how to log, and how to audit and report.

What is left empty takes a default. A configuration is valid if its level, number of threads and format are known ones;
levels do not distinguish case, formats do.
-/
import AppAudit.Report.Format
import AppAudit.Text.Raw
import AppAudit.Text.Upper

namespace AppAudit

structure LoggerConfig where
  level : RawText := {}
  disableTime : Option Bool := none
  jsonFormat : Option Bool := none
  includeLocation : Option Bool := none
deriving DecidableEq, Repr

structure AuditConfig where
  threads : Int := 0
  format : RawText := {}
deriving DecidableEq, Repr

structure Config where
  logger : LoggerConfig := {}
  audit : AuditConfig := {}
deriving DecidableEq, Repr

/-! ## Defaults -/

/-- the text, or another one if it is empty -/
def textOr (default text : String) : String := if text.isEmpty then default else text

/-- the number, or another one if it is zero -/
def numberOr (default n : Int) : Int := if n = 0 then default else n

namespace Config

def defaultThreads : Int := 1

def defaultFormat : String := "text"

def defaultLevel : String := "INFO"

/-- with defaults for what is empty -/
def withDefaults (c : Config) : Config :=
  { c with
    logger.level := c.logger.level.orElse (.ofString defaultLevel)
    audit.threads := numberOr defaultThreads c.audit.threads
    audit.format := c.audit.format.orElse (.ofString defaultFormat) }

/-- the configuration of a run without any -/
def standard : Config := withDefaults {}

end Config

/-! ## Validity -/

def levelNames : List String := ["TRACE", "DEBUG", "INFO", "WARN", "ERROR"]

def maxThreads : Int := 64

/-- why a part of a configuration, or a flag, is invalid -/
inductive SettingError where
  | noLogger
  | noAudit
  | level (given : RawText)
  | threads (given : Int)
  | format (given : RawText)
deriving DecidableEq, Repr

def SettingError.text : SettingError → String
  | noLogger => "logger configuration is nil"
  | noAudit => "audit configuration is nil"
  | level given => "level must be one of " ++ ", ".intercalate levelNames ++ ": " ++ given.quoted
  | threads given => "threads must be between 1 and " ++ toString maxThreads ++ ": " ++ toString given
  | format given =>
    "format must be one of " ++ ", ".intercalate (ReportFormat.all.map ReportFormat.name) ++ ": " ++ given.quoted

def checkThreads (n : Int) : Except SettingError Unit :=
  if n < 1 || maxThreads < n then .error (.threads n) else .ok ()

def checkFormat (name : RawText) : Except SettingError Unit :=
  if (ReportFormat.ofName? name.shown).isSome then .ok () else .error (.format name)

def checkLogger : Option LoggerConfig → Except SettingError Unit
  | none => .error .noLogger
  | some c => if levelNames.contains (upper c.level.shown) then .ok () else .error (.level c.level)

def checkAudit : Option AuditConfig → Except SettingError Unit
  | none => .error .noAudit
  | some c =>
    match checkThreads c.threads with
    | .ok () => checkFormat c.format
    | .error e => .error e

/-- why a configuration is invalid -/
inductive ConfigProblem where
  | missing
  | logger (cause : SettingError)
  | audit (cause : SettingError)
deriving DecidableEq, Repr

def ConfigProblem.text : ConfigProblem → String
  | missing => "YAML global config: configuration object is nil"
  | logger cause => "YAML global config: logger directive is invalid: " ++ cause.text
  | audit cause => "YAML global config: audit directive is invalid: " ++ cause.text

/-- whether a configuration is valid; what is wrong with the logger is said first -/
def checkConfig : Option Config → Except ConfigProblem Unit
  | none => .error .missing
  | some c =>
    match checkLogger c.logger with
    | .error e => .error (.logger e)
    | .ok () => (checkAudit c.audit).mapError .audit

/-! ## Settings and flags together -/

/-- what the flags of an audit say; empty and zero leave the choice to the configuration -/
structure AuditFlags where
  format : String := ""
  json : Bool := false
  output : String := ""
  threads : Int := 0
deriving DecidableEq, Repr

/-- format and number of threads of a run: flags come first, then the configuration, then defaults -/
def settings (c : Option Config) (flags : AuditFlags) : String × Int :=
  let audit := (c.map Config.audit).getD {}
  (if flags.json then ReportFormat.json.name else textOr (textOr Config.defaultFormat audit.format.shown) flags.format,
    numberOr (numberOr Config.defaultThreads audit.threads) flags.threads)

end AppAudit
