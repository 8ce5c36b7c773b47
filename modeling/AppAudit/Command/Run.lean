/-
Running the program on a command line.

Faults in the flags come first, then a request for help, then arguments where none are taken, then the configuration, and
only then the command itself.
-/
import AppAudit.Catalog.Listing
import AppAudit.Command.Audit
import AppAudit.Config.Load

namespace AppAudit

/-- what the flags say about an audit -/
def CommandLine.auditFlags (line : CommandLine) : AuditFlags :=
  { format := String.ofList (line.text "format")
    json := line.isOn "json"
    output := String.ofList (line.text "output")
    threads := line.number "threads" }

/-- reads the rest of a line; for a shell all of it stands for itself -/
def Command.read (c : Command) (arguments : List (List Char)) : Except FlagError CommandLine :=
  match c with
  | .completions _ => .ok { arguments }
  | c => CommandLine.read c.flags arguments

/-- what is wrong with the number of arguments of a command -/
def Command.argumentFault? (c : Command) (arguments : List (List Char)) : Option Failure :=
  let unwanted (word : List Char) : Failure :=
    .plain ("unknown command " ++ quoted (String.ofList word) ++ " for " ++ quoted c.path)
  match c with
  | .rules | .version => arguments.head?.map unwanted
  | .completions _ => if arguments.isEmpty then some (.plain "requires at least 1 arg(s), only received 0") else none
  | _ => none

/-- the text of the version, one line per part of the build -/
def Build.text (b : Build) : String :=
  "Core Version: v" ++ b.version ++ "\nGo Version: " ++ b.toolchain ++ "\nBuild Time: " ++ b.time ++ "\n"

def Build.toJson (b : Build) : Json :=
  .obj [("version", .str b.version), ("golang_version", .str b.toolchain), ("build_time", .str b.time)]

namespace Environment

/-- the configuration of a run, if it can be loaded and is valid -/
def configuration (env : Environment) (path : List Char) : Except Failure Config :=
  match Config.load env.files path with
  | .error e =>
    .error (.command Failure.defaultCode (.wrap "initializing config file failed" (.plain e.text)))
  | .ok config =>
    match checkConfig (some config) with
    | .error e => .error (commandFailure e.text)
    | .ok () => .ok config

/-- runs a command under a configuration -/
def perform (env : Environment) (config : Config) (line : CommandLine) : Command → RunOutcome
  | .program => env.audit config .program line.auditFlags line.arguments
  | .audit => env.audit config .audit line.auditFlags line.arguments
  | .rules =>
    env.printChecked (if line.isOn "json" then (Listing.document catalog).pretty ++ "\n" else Listing.table catalog)
  | .version =>
    if line.isOn "json" then env.printChecked (env.build.toJson.pretty ++ "\n") else env.printUnchecked env.build.text
  | .help => env.printHelp (Command.topic line.arguments).helpText
  | .completions described =>
    let (shown, said) := env.completions described line.arguments
    { env.printUnchecked shown with stderr := said }

/-- runs a command on the rest of the command line -/
def execute (env : Environment) (c : Command) (arguments : List (List Char)) : RunOutcome :=
  match c.read arguments with
  | .error e => env.fail (.plain e.text)
  | .ok line =>
    if line.isOn "help" then env.printHelp c.helpText
    else
      match c.argumentFault? line.arguments with
      | some cause => env.fail cause
      | none =>
        match env.configuration (line.text "config") with
        | .error cause => env.fail cause
        | .ok config => env.perform config line c

/-- runs the program -/
def run (env : Environment) (arguments : List (List Char)) : RunOutcome :=
  let (c, rest) := Command.select arguments
  (env.execute c rest).concluded

end Environment

end AppAudit
