/-
What commands say about themselves.

Help starts with what a command is about and goes on with its usage: how to call it, examples, commands and flags. Flags
stand in a table in ascending order of their names; those that all commands share have a table of their own, except for
the program itself.
-/
import AppAudit.Command.Basic

namespace AppAudit

/-! ## The table of flags -/

/-- what stands on the left of the table: the ways to write a flag, and what it takes -/
def Flag.leftColumn (f : Flag) : String :=
  let name := match f.letter with
    | some c => "  -" ++ String.singleton c ++ ", --" ++ f.name
    | none => "      --" ++ f.name
  match f.kind with
  | .switch => name
  | .text => name ++ " string"
  | .number => name ++ " int"

/-- puts a flag among others in ascending order of names -/
def Flag.insertByName (f : Flag) : List Flag → List Flag
  | [] => [f]
  | g :: rest => if f.name < g.name then f :: g :: rest else g :: Flag.insertByName f rest

/-- flags in ascending order of names -/
def Flag.sortByName (flags : List Flag) : List Flag := flags.foldr Flag.insertByName []

/-- blanks between the columns -/
def Flag.gap : Nat := 3

/-- the lines of the table -/
def Flag.table (flags : List Flag) : List String :=
  let width := (flags.map fun f => f.leftColumn.length).foldl max 0
  (Flag.sortByName flags).map fun f => padRight (width + Flag.gap) f.leftColumn ++ f.purpose

namespace Command

/-! ## Texts -/

/-- the command in one line -/
def summary : Command → String
  | program => "Mobileaudit is a static linter for React Native and Flutter sources."
  | audit => "Audit mobile sources for UX, performance and platform convention violations"
  | rules => "List the audit rule catalog in evaluation order"
  | version => "Print the version number of the application"
  | help => "Help about any command"
  | completions _ => "Request shell completion choices for the specified command-line"

/-- what the command is about -/
def about : Command → List String
  | program =>
    ["Mobileaudit scans mobile application sources for violations of touch, performance,",
     "navigation, typography, color, platform, security, testing and debugging conventions.",
     "Running it with a PATH is equivalent to \"mobileaudit audit PATH\"."]
  | audit =>
    ["Audits React Native and Flutter sources against the built-in rule catalog.",
     "",
     "Directories are walked recursively, skipping node_modules, .git, dist, build,",
     ".next, ios, android and .idea, and auditing .tsx, .ts, .jsx, .js and .dart files.",
     "The command exits with status 1 when at least one blocking issue is found."]
  | help =>
    ["Help provides help for any command in the application.",
     "Simply type mobileaudit help [path to command] for full details."]
  | c => [c.summary]

/-- how to call the command -/
def calls : Command → List String
  | program => ["mobileaudit [command] | mobileaudit PATH [--json]", "mobileaudit [command]"]
  | audit => ["mobileaudit audit [--format/-f text|json|sarif] [--json] [--output/-o PATH] [-j THREADS_NUMBER] PATH"]
  | rules => ["mobileaudit rules [--json]"]
  | version => ["mobileaudit version [--json]"]
  | help => ["mobileaudit help [command] [flags]"]
  | completions _ => ["mobileaudit __complete [command-line]"]

def examples : Command → List String
  | audit =>
    ["# Auditing a React Native project",
     "mobileaudit audit /path/to/my_app",
     "",
     "# Auditing a single file and printing the JSON report",
     "mobileaudit audit --json /path/to/my_app/src/App.tsx",
     "",
     "# Auditing with 4 concurrent threads and writing a SARIF report to a folder",
     "mobileaudit audit -j 4 --format sarif --output /path/to/results /path/to/my_app",
     "",
     "# Auditing with the short form of the root command",
     "mobileaudit /path/to/my_app --json"]
  | _ => []

/-! ## Help -/

/-- a part of the usage with a title; nothing if it has no lines -/
def titled (title : String) (lines : List String) : List (List String) :=
  if lines.isEmpty then [] else [(title ++ ":") :: lines]

def indent (line : String) : String := if line.isEmpty then line else "  " ++ line

/-- the commands with what they are for -/
def overview : List String := listed.map fun c => indent (padRight 12 c.name ++ c.summary)

/-- the parts of the usage -/
def usageParts (c : Command) : List (List String) :=
  let own := c.ownHelpFlag :: c.ownFlags
  titled "Usage" (c.calls.map indent) ++ titled "Examples" (c.examples.map indent)
    ++ if c = program then
      titled "Available Commands" overview ++ titled "Flags" (Flag.table (configFlag :: own))
        ++ [["Use \"mobileaudit [command] --help\" for more information about a command."]]
    else titled "Flags" (Flag.table own) ++ titled "Global Flags" (Flag.table [configFlag])

/-- parts of a text, with an empty line between them -/
def joinParts (parts : List (List String)) : String := "\n\n".intercalate (parts.map ("\n".intercalate ·)) ++ "\n"

/-- how to use the command -/
def usage (c : Command) : String := joinParts c.usageParts

/-- everything about the command -/
def helpText (c : Command) : String := joinParts (c.about :: c.usageParts)

end Command

end AppAudit
