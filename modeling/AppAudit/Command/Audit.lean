/-
The command that audits: from flags and arguments to a report and an ending.

First the flags and the path are checked, then the sources are audited, then the report is written, to a file or to
standard output. Every step that fails ends the run; nothing is written before the audit is complete. An audit with issues
fails as well, but only after its report has been written. What happens on the way is logged to standard error; workers log
about their files when it is their turn.
-/
import AppAudit.Audit.Tree
import AppAudit.Command.Arguments
import AppAudit.Command.Help
import AppAudit.Command.Outcome
import AppAudit.Log
import AppAudit.Report.File
import AppAudit.Report.Provenance

namespace AppAudit

/-! ## The log of an audit -/

/-- a pair of an entry with a path -/
def pathPair (key : String) (path : List Char) : String × LogValue := (key, .text (String.ofList path))

def Visit.entry? : Visit → Option LogEntry
  | source _ => none
  | unreadable path error =>
    some
      { level := .debug, message := "skipping unreadable path"
        pairs := [pathPair "path" path, ("error", .text error.text)] }

/-- what is logged about a file -/
def FileSystem.Reading.entry (path : List Char) : Reading → LogEntry
  | unreadable error =>
    { level := .debug, message := "skipping unreadable file"
      pairs := [pathPair "path" path, ("error", .text error.text)] }
  | outOfScope => { level := .trace, message := "skipping non-mobile file", pairs := [pathPair "path" path] }
  | audited frameworks =>
    { level := .trace, message := "file audited"
      pairs := [pathPair "path" path, ("frameworks", .text frameworks.names)] }

/-- what is logged about an audit by so many workers that ended with a result -/
def FileSystem.auditEntries (fs : FileSystem) (target : List Char) (workers : Nat) (turns : Turns) (r : Result) :
    List LogEntry :=
  let visits := (fs.visits target).toOption.getD []
  let paths := visits.filterMap Visit.source?
  let collected : LogEntry :=
    { level := .debug, message := "files collected"
      pairs := [pathPair "target" target, ("count", .number paths.length), ("jobs", .number workers)] }
  let finished : LogEntry :=
    { level := .debug, message := "audit finished"
      pairs := [("files_checked", .number r.filesChecked), ("issues", .number r.issues.length),
        ("warnings", .number r.warnings.length)] }
  visits.filterMap Visit.entry? ++ collected :: turns.order workers (paths.map fun path => (fs.reading path).entry path)
    ++ [finished]

/-- what is logged about the origin of the sources when a report of a format is rendered -/
def Environment.originEntries (env : Environment) (fs : FileSystem) (format : String) (target : List Char) :
    List LogEntry :=
  if format ≠ ReportFormat.sarif.name then []
  else
    match fs.metadata target (env.git fs) env.cwd with
    | .ok _ => []
    | .error (.remote _) => []
    | .error e =>
      [{ level := .debug, message := "no repository provenance for target"
         pairs := [pathPair "target" target, ("reason", .text e.text)] }]

/-- what a logger writes for some entries, after so many others -/
def Environment.writeLog (env : Environment) (l : Logger) (before : Nat) (entries : List LogEntry) : String :=
  String.join ((entries.zipIdx before).map fun (e, i) => l.write e (env.clock i) (env.callers e.message))

/-! ## Writing the report -/

inductive DeliveryError where
  | report (cause : ReportError)
  | place (cause : OutputError)
  | folder (cause : FolderError)
  | save (cause : SaveError)
  /-- standard output did not take it -/
  | print (reason : String)
deriving DecidableEq, Repr

namespace DeliveryError

def text : DeliveryError → String
  | report cause => cause.text
  | place cause => cause.text
  | folder cause => cause.text
  | save cause => cause.text
  | print reason => reason

/-- the breakdown behind it, if that is the reason -/
def breakdown? : DeliveryError → Option Remote.Breakdown
  | report (.brokenDown cause) => some cause
  | save (.render (.brokenDown cause)) => some cause
  | _ => none

end DeliveryError

/-- what becomes of a report -/
structure Delivery where
  error : Option DeliveryError := none
  stdout : Bytes := []
  entries : List LogEntry := []
  files : FileSystem

/-- what reports state about the sources at a path, files being as they are then -/
def Environment.provenance (env : Environment) (fs : FileSystem) (target : List Char) :
    Except Remote.Breakdown (Option Sarif.Provenance) :=
  fs.provenance target (env.git fs) env.cwd

/-- a report that is to be written: its format, what it shows, and the path that was audited -/
structure ReportJob where
  format : String
  result : Result
  target : List Char

namespace ReportJob

/-- the report as seen from a file system -/
def render (job : ReportJob) (env : Environment) (fs : FileSystem) : Except ReportError Rendering :=
  renderReport job.format (some job.result)
    { toolVersion := env.build.version, guid := env.guid, provenance := env.provenance fs job.target }

/-- writes the report to standard output -/
def print (job : ReportJob) (env : Environment) : Delivery :=
  let entries := env.originEntries env.files job.format job.target
  match job.render env env.files with
  | .ok r =>
    let (taken, failure) := env.stdout.take r.content
    { error := failure.map fun reason => .print (r.context ++ reason), stdout := taken, entries, files := env.files }
  | .error e => { error := some (.report e), entries, files := env.files }

/-- writes the report to a file, once its folder is there -/
def saveAt (job : ReportJob) (env : Environment) (fs : FileSystem) (path : List Char) : Delivery :=
  let origin := match fs.openTruncated path with
    | .ok (opened, _) => env.originEntries opened job.format job.target
    | .error _ => []
  match fs.save path (job.render env) with
  | (fs, some e) => { error := some (.save e), entries := origin, files := fs }
  | (fs, none) =>
    let saved : LogEntry :=
      { level := .info, message := "report saved to file"
        pairs := [pathPair "path" path, ("format", .text job.format)] }
    { entries := origin ++ [saved], files := fs }

/-- writes the report below or at a path -/
def saveUnder (job : ReportJob) (env : Environment) (output : List Char) : Delivery :=
  match env.files.outputPlace env.home output (ReportFormat.fileName job.format).toList with
  | .error e => { error := some (.place e), files := env.files }
  | .ok place =>
    match env.files.createFolder place.folder with
    | .error e => { error := some (.folder e), files := env.files }
    | .ok fs => job.saveAt env fs place.file

/-- writes the report where it is asked for; an empty path stands for standard output -/
def deliver (job : ReportJob) (env : Environment) (output : String) : Delivery :=
  if output.isEmpty then job.print env else job.saveUnder env output.toList

end ReportJob

/-! ## The command -/

/-- a failure of the command itself -/
def commandFailure (text : String) : Failure := .command Failure.defaultCode (.plain text)

namespace Environment

/-- how a run ends once its report has been written, or not, and what is logged about that -/
def verdict (r : Result) : Option DeliveryError → Ending × List LogEntry
  | some e =>
    match e.breakdown? with
    | some cause => (.brokenDown cause, [])
    | none =>
      (.failed (commandFailure e.text),
        [{ level := .error, message := "failed to write report", pairs := [("error", .text e.text)] }])
  | none =>
    if r.compliant then (.done, [{ level := .debug, message := "audit command completed successfully" }])
    else
      (.failed (.nonCompliant r.issues.length),
        [{ level := .debug, message := "audit finished with blocking issues"
           pairs := [("issues", .number r.issues.length)] }])

/-- audits a path with settings that have been checked -/
def auditTarget (env : Environment) (logger : Logger) (format : String) (threads : Int) (output : String)
    (target : List Char) : RunOutcome :=
  match env.files.auditPath catalog target with
  | .error e =>
    let entry : LogEntry :=
      { level := .error, message := "audit failed", pairs := [pathPair "target" target, ("error", .text e.text)] }
    { ending := .failed (commandFailure e.text), stderr := env.writeLog logger 0 [entry], files := env.files }
  | .ok r =>
    let walk := env.files.auditEntries target (Pool.width threads) env.turns r
    let delivery := ReportJob.deliver ⟨format, r, target⟩ env output
    let (ending, last) := verdict r delivery.error
    { ending, stdout := delivery.stdout
      stderr := env.writeLog (logger.named "walker") 0 walk ++ env.writeLog logger walk.length (delivery.entries ++ last)
      files := delivery.files }

/-- runs the audit that a command line asks for -/
def audit (env : Environment) (config : Config) (c : Command) (flags : AuditFlags) (arguments : List (List Char)) :
    RunOutcome :=
  let (logger, made) := Logger.make env.logLevel (some config) "core-audit"
  match flags.target env.files env.home arguments with
  | .error e =>
    let usage := if arguments.isEmpty then c.usage else ""
    let entry : LogEntry :=
      { level := .error, message := "invalid audit arguments", pairs := [("error", .text e.text)] }
    { ending := .failed (commandFailure e.text), stderr := made ++ usage ++ env.writeLog logger 0 [entry]
      files := env.files }
  | .ok target =>
    let (format, threads) := settings (some config) flags
    let o := env.auditTarget logger format threads flags.output target
    { o with stderr := made ++ o.stderr }

end Environment

end AppAudit
