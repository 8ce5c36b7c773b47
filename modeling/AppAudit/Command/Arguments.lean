/-
What an audit is asked for: whether flags and arguments fit together, and the path they lead to.

There is exactly one path. A format or number of threads that is given has to be a known one, and asking for JSON
excludes every other format. Only then does the path have to exist.
-/
import AppAudit.Config.Basic
import AppAudit.Files.Home

namespace AppAudit

/-- why an audit cannot be run as asked -/
inductive ArgumentError where
  | noTarget
  | manyTargets (count : Nat)
  | conflict (format : String)
  | badFormat (cause : SettingError)
  | badThreads (cause : SettingError)
  | target (cause : TargetError)
deriving DecidableEq, Repr

def ArgumentError.text : ArgumentError → String
  | noTarget => "a target path must be specified"
  | manyTargets count => "only one target path can be audited at a time, got " ++ toString count
  | conflict format => "the 'json' flag conflicts with 'format' " ++ quoted format
  | badFormat cause => cause.text
  | badThreads cause => "the 'threads' flag is invalid: " ++ cause.text
  | target cause => cause.text

namespace AuditFlags

/-- whether the flags are in order by themselves -/
def check (flags : AuditFlags) : Except ArgumentError Unit :=
  if flags.json && flags.format ≠ "" && flags.format ≠ ReportFormat.json.name then .error (.conflict flags.format)
  else
    match if flags.format = "" then .ok () else checkFormat (.ofString flags.format) with
    | .error e => .error (.badFormat e)
    | .ok () => if flags.threads = 0 then .ok () else (checkThreads flags.threads).mapError .badThreads

/-- the path to audit -/
def target (flags : AuditFlags) (fs : FileSystem) (home : Option (List Char)) :
    List (List Char) → Except ArgumentError (List Char)
  | [] => .error .noTarget
  | [path] =>
    match flags.check with
    | .error e => .error e
    | .ok () => (fs.target home path).mapError .target
  | paths => .error (.manyTargets paths.length)

end AuditFlags

end AppAudit
