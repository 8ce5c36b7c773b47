/-
What a run starts from and what it leaves behind.

A run ends well, or it fails, or it breaks down in the middle. A failure that the user has not been told about yet is
told last, on standard error.

Much of what a run meets is not decided by the program: how much standard output takes, how repositories are read, what the
clock shows, and whose turn it is among workers. All this is part of the environment, and whatever is said about a run is
said about each of these.
-/
import AppAudit.Command.Failure
import AppAudit.Files.System
import AppAudit.Log
import AppAudit.Report.Sink
import AppAudit.Repository.Metadata

namespace AppAudit

/-- how the program was built -/
structure Build where
  version : String := "unknown"
  toolchain : String := "unknown"
  time : String := "unknown"
deriving DecidableEq, Repr

/-- standard output: how many bytes it takes, all of them without a limit, and how the failure of a write behind them is
told -/
structure Outlet where
  room : Option Nat := none
  failure : String := FileError.text ⟨"write", "/dev/stdout".toList, .noSpace⟩
deriving DecidableEq, Repr

/-- what is taken of some bytes, and the failure if these are not all -/
def Outlet.take (o : Outlet) (bytes : Bytes) : Bytes × Option String :=
  match o.room with
  | none => (bytes, none)
  | some room => (bytes.take room, if room < bytes.length then some o.failure else none)

/-- in which order workers get to log; one alone keeps to the order of the files -/
structure Turns where
  order : (workers : Nat) → List LogEntry → List LogEntry
  perm : ∀ workers entries, (order workers entries).Perm entries
  alone : ∀ entries, order 1 entries = entries

/-- every worker waits for the one before -/
def Turns.inOrder : Turns := ⟨fun _ entries => entries, fun _ _ => .refl _, fun _ => rfl⟩

/-- what a run starts from and what it meets -/
structure Environment where
  files : FileSystem
  /-- the working directory as it is spelled -/
  cwd : RootedPath := files.cwdPath
  home : Option (List Char) := none
  /-- the level of log messages that the environment asks for; empty without one -/
  logLevel : String := ""
  stdout : Outlet := {}
  /-- how files are read as repositories; each way to break ties is one of the ways to do so -/
  git : FileSystem → Git := fun files => files.git
  /-- the time when a log line is written, by the number of lines before -/
  clock : Nat → Moment := fun _ => {}
  /-- where in the program a message comes from -/
  callers : String → Caller := fun _ => .main
  turns : Turns := .inOrder
  /-- what a shell is told on standard output and standard error about how a line may go on, described or not -/
  completions : (described : Bool) → (line : List (List Char)) → String × String := fun _ _ => ("", "")
  /-- identifies the run in reports -/
  guid : String
  build : Build := {}

inductive Ending where
  | done
  | failed (cause : Failure)
  | brokenDown (cause : Remote.Breakdown)
deriving DecidableEq, Repr

namespace Ending

/-- the exit code after a breakdown -/
def breakdownCode : Int := 2

def exitCode : Ending → Int
  | done => 0
  | failed cause => cause.exitCode
  | brokenDown _ => breakdownCode

/-- what is said at the end -/
def lastWords : Ending → String
  | done => ""
  | failed cause => if cause.reported then "" else "Error executing command: " ++ cause.message ++ "\n"
  | brokenDown cause => "panic: " ++ cause.text ++ "\n"

end Ending

/-- what a run leaves behind -/
structure RunOutcome where
  ending : Ending := .done
  stdout : Bytes := []
  stderr : String := ""
  files : FileSystem

namespace RunOutcome

def exitCode (o : RunOutcome) : Int := o.ending.exitCode

/-- with the last words -/
def concluded (o : RunOutcome) : RunOutcome := { o with stderr := o.stderr ++ o.ending.lastWords }

end RunOutcome

namespace Environment

/-- prints a text and does nothing else; `refused` says how the command ends, and what it says, if there is no room -/
def print (env : Environment) (text : String) (refused : String → Ending × String) : RunOutcome :=
  let (taken, failure) := env.stdout.take (textBytes text)
  let (ending, said) := (failure.map refused).getD (.done, "")
  { ending, stdout := taken, stderr := said, files := env.files }

/-- prints a text; without room for it the command fails -/
def printChecked (env : Environment) (text : String) : RunOutcome :=
  env.print text fun reason => (.failed (.plain reason), "")

/-- prints help; without room for it the user is told -/
def printHelp (env : Environment) (text : String) : RunOutcome := env.print text fun reason => (.done, reason ++ "\n")

/-- prints a text, and nobody asks whether there was room for it -/
def printUnchecked (env : Environment) (text : String) : RunOutcome := env.print text fun _ => (.done, "")

/-- fails before anything has been done -/
def fail (env : Environment) (cause : Failure) : RunOutcome := { ending := .failed cause, files := env.files }

end Environment

end AppAudit
