/-
The commands, the flags that each of them takes, and which command a line is for.

The first word of a line that is neither a flag nor the value of one names the command, if there is a command with this
name; otherwise the line is for the program itself, which audits like `audit`. Whether a flag takes a value is looked up
among the flags of the program, where asking for help is not listed, so a request for help hides the word behind it.

Two commands are for shells, which ask with them how a line may go on. No help mentions them, and they read no flags.
-/
import AppAudit.Command.Flag

namespace AppAudit

inductive Command where
  /-- the program without a command -/
  | program
  | audit
  | rules
  | version
  | help
  /-- how a line may go on, for a shell, with descriptions or without -/
  | completions (described : Bool)
deriving DecidableEq, Repr

namespace Command

def programName : String := "mobileaudit"

/-- the commands that help lists, in ascending order of their names -/
def listed : List Command := [audit, help, rules, version]

/-- the commands with a name of their own -/
def all : List Command := listed ++ [completions true, completions false]

def name : Command → String
  | program => programName
  | audit => "audit"
  | rules => "rules"
  | version => "version"
  | help => "help"
  | completions true => "__complete"
  | completions false => "__completeNoDesc"

/-- how the command is called -/
def path (c : Command) : String := if c = program then programName else programName ++ " " ++ c.name

/-- the command with a name -/
def ofWord? (word : List Char) : Option Command := all.find? fun c => c.name.toList == word

/-! ## Flags -/

def configFlag : Flag := { name := "config", kind := .text, purpose := "config file (default is ./mobileaudit.yml)" }

def helpFlag (purpose : String) : Flag := { name := "help", letter := some 'h', kind := .switch, purpose }

def jsonFlag (purpose : String) : Flag := { name := "json", kind := .switch, purpose }

/-- the flags of an audit -/
def auditFlags : List Flag :=
  [{ name := "format", letter := some 'f', kind := .text
     purpose := "Report format: text, json or sarif (default from config, then text)." },
   jsonFlag "Shorthand for --format json.",
   { name := "output", letter := some 'o', kind := .text
     purpose := "Path to the output file or directory where the report will be saved." },
   { name := "threads", letter := some 'j', kind := .number
     purpose := "Number of concurrent threads to use (default from config, then 1)." }]

/-- the flag that asks for help about a command -/
def ownHelpFlag : Command → Flag
  | audit => helpFlag "Show help for the audit command."
  | c => helpFlag ("help for " ++ c.name)

/-- the flags that only this command has -/
def ownFlags : Command → List Flag
  | program => auditFlags
  | audit => auditFlags
  | rules => [jsonFlag "Print the catalog as JSON."]
  | version => [jsonFlag "Print version information as JSON."]
  | help => []
  | completions _ => []

/-- all flags that a command takes -/
def flags (c : Command) : List Flag := c.ownHelpFlag :: configFlag :: c.ownFlags

/-! ## Choosing the command -/

/-- the flags by which values are told from words -/
def programFlags : List Flag := configFlag :: auditFlags

def isSwitch (test : Flag → Bool) : Bool :=
  match programFlags.find? test with
  | some f => f.kind = .switch
  | none => false

/-- whether an argument is a flag whose value is the next argument -/
def hidesNext : List Char → Bool
  | '-' :: '-' :: name => !name.contains '=' && !isSwitch fun f => f.name.toList == name
  | ['-', c] => c ≠ '=' && c.toNat < 0x80 && !isSwitch fun f => f.letter == some c
  | _ => false

/-- the first word of a line; a flag that hides the last argument ends the search -/
def firstWord? : List (List Char) → Option (List Char)
  | [] => none
  | argument :: rest =>
    if argument = Flag.terminator then none
    else if hidesNext argument then
      match rest with
      | _ :: next :: rest => firstWord? (next :: rest)
      | _ => none
    else if argument.isEmpty || argument.head? = some '-' then firstWord? rest
    else some argument

/-- the command that a line is for, and the line without its name. The name is taken out where it stands first, even as
the value of a flag. -/
def select (line : List (List Char)) : Command × List (List Char) :=
  match firstWord? line with
  | none => (program, line)
  | some word =>
    match ofWord? word with
    | none => (program, line)
    | some c => (c, line.erase word)

/-- the command that help is asked about; those for shells are not known to it -/
def topic (line : List (List Char)) : Command :=
  match (select line).1 with
  | completions _ => program
  | c => c

end Command

end AppAudit
