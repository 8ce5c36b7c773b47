/-
Log lines, and the logger that decides which of them are written.

A logger has a name, the lowest level that it writes, and one of two forms for its lines: plain text, or JSON with its
members in the order of their names. In plain text, values with unusual characters are quoted, and values of several lines
stand on lines of their own. The level comes from the environment, else from the configuration, else it is `info`; an
unknown one is `info` as well, with a warning. Lines may be stamped with the time and with the place in the program that
they come from, if the configuration asks for it.
-/
import AppAudit.Config.Field
import AppAudit.Files.Path
import AppAudit.Json
import AppAudit.Text.Space

namespace AppAudit

inductive LogLevel where
  | trace
  | debug
  | info
  | warn
  | error
deriving DecidableEq, Repr

namespace LogLevel

def all : List LogLevel := [trace, debug, info, warn, error]

def name : LogLevel → String
  | trace => "trace"
  | debug => "debug"
  | info => "info"
  | warn => "warn"
  | error => "error"

def rank : LogLevel → Nat
  | trace => 0
  | debug => 1
  | info => 2
  | warn => 3
  | error => 4

/-- what plain lines start with -/
def bracket : LogLevel → String
  | trace => "[TRACE]"
  | debug => "[DEBUG]"
  | info => "[INFO] "
  | warn => "[WARN] "
  | error => "[ERROR]"

/-- the level with a name in upper case -/
def ofUpper? (s : String) : Option LogLevel := all.find? fun l => upper l.name == s

end LogLevel

inductive LogValue where
  | text (s : String)
  | number (n : Int)
deriving DecidableEq, Repr

structure LogEntry where
  level : LogLevel
  message : String
  pairs : List (String × LogValue) := []
deriving DecidableEq, Repr

/-! ## Stamps -/

/-- what a clock and a calendar show -/
structure Moment where
  year : Nat := 1970
  month : Nat := 1
  day : Nat := 1
  hour : Nat := 0
  minute : Nat := 0
  second : Nat := 0
  micro : Nat := 0
  /-- seconds by which the clock is ahead of universal time -/
  ahead : Int := 0
deriving DecidableEq, Repr

namespace Moment

/-- a number with zeros in front -/
def padded (width n : Nat) : List Char :=
  let digits := Nat.toDigits 10 n
  List.replicate (width - digits.length) '0' ++ digits

/-- `Z` for universal time, otherwise hours and minutes ahead, in JSON with a colon -/
def zone (m : Moment) (json : Bool) : List Char :=
  if m.ahead = 0 then ['Z']
  else
    let minutes := m.ahead.tdiv 60
    (if minutes < 0 then '-' else '+') :: padded 2 (minutes.natAbs / 60)
      ++ (if json then [':'] else []) ++ padded 2 (minutes.natAbs % 60)

/-- the moment in a line, to the millisecond, or to the microsecond in JSON -/
def text (m : Moment) (json : Bool) : String :=
  String.ofList (padded 4 m.year ++ '-' :: padded 2 m.month ++ '-' :: padded 2 m.day
    ++ 'T' :: padded 2 m.hour ++ ':' :: padded 2 m.minute ++ ':' :: padded 2 m.second
    ++ '.' :: (if json then padded 6 m.micro else padded 3 (m.micro / 1000)) ++ m.zone json)

end Moment

/-- a place in the program: a line of a file -/
structure Caller where
  file : List Char
  line : Nat
  oneLine : '\n' ∉ file
deriving DecidableEq

namespace Caller

/-- the program as a whole -/
def main : Caller := ⟨"main".toList, 0, by decide⟩

/-- the last two names of the file's path -/
def shortFile (c : Caller) : List Char :=
  let names := Path.split c.file
  Path.joinNames (names.drop (names.length - 2))

/-- the place in a plain line -/
def plain (c : Caller) : String := " " ++ String.ofList c.shortFile ++ ":" ++ toString (c.line : Int) ++ ":"

def toJson (c : Caller) : Json := .str (String.ofList c.file ++ ":" ++ toString (c.line : Int))

end Caller

/-- the stamps of a line -/
structure Stamps where
  moment : Option Moment := none
  caller : Option Caller := none

/-! ## Plain lines -/

namespace LogValue

/-- characters that need no quotes -/
def isUsual (c : Char) : Bool := '-' ≤ c && c ≤ '~'

/-- one character of a value; a backslash stands for itself -/
def escapeChar (quotes : Bool) (c : Char) : List Char :=
  if c = '"' then if quotes then ['\\', '"'] else [c]
  else if c = '\\' then [c]
  else if c.toNat = 0x7f then "\\u007f".toList
  else quotedChar c

def escape (quotes : Bool) (s : List Char) : List Char := s.flatMap (escapeChar quotes)

/-- the lines of a value; a line break at the end starts no further line -/
def lines (s : List Char) : List (List Char) :=
  let parts := splitAt '\n' s
  if parts.getLast? = some [] then parts.dropLast else parts

/-- a pair in a plain line -/
def plain (key : String) : LogValue → String
  | number n => " " ++ key ++ "=" ++ toString n
  | text s =>
    let cs := s.toList
    if s.isEmpty then " " ++ key ++ "=\"\""
    else if cs.contains '\n' then
      "\n  " ++ key ++ "=\n"
        ++ String.join ((lines cs).map fun l => "  | " ++ String.ofList (escape false l) ++ "\n") ++ "  "
    else if cs.all isUsual then " " ++ key ++ "=" ++ s
    else " " ++ key ++ "=\"" ++ String.ofList (escape true cs) ++ "\""

def toJson : LogValue → Json
  | text s => .str s
  | number n => .num n

end LogValue

/-- the entry as a plain line -/
def LogEntry.plain (e : LogEntry) (name : String) (stamps : Stamps := {}) : String :=
  let time := (stamps.moment.map fun m => m.text false ++ " ").getD ""
  let place := (stamps.caller.map Caller.plain).getD ""
  let head := if name.isEmpty then e.message else if e.message.isEmpty then name else name ++ ": " ++ e.message
  let pairs := if e.pairs.isEmpty then "" else ":" ++ String.join (e.pairs.map fun (k, v) => v.plain k)
  time ++ e.level.bracket ++ place ++ " " ++ head ++ pairs ++ "\n"

/-! ## JSON lines -/

/-- puts a member among others in ascending order, in place of one with the same name -/
def putMember (name : String) (v : Json) : List (String × Json) → List (String × Json)
  | [] => [(name, v)]
  | (other, w) :: rest =>
    if name = other then (name, v) :: rest
    else if name.toList < other.toList then (name, v) :: (other, w) :: rest
    else (other, w) :: putMember name v rest

/-- the entry as a JSON line -/
def LogEntry.json (e : LogEntry) (name : String) (stamps : Stamps := {}) : String :=
  let fixed := [("@level", Json.str e.level.name), ("@message", Json.str e.message)]
    ++ (if name.isEmpty then [] else [("@module", Json.str name)])
    ++ (stamps.moment.map fun m => ("@timestamp", Json.str (m.text true))).toList
    ++ (stamps.caller.map fun c => ("@caller", c.toJson)).toList
  let given := e.pairs.map fun p => (p.1, p.2.toJson)
  let members := (fixed ++ given).foldl (fun ms m => putMember m.1 m.2 ms) []
  (Json.obj members).compact ++ "\n"

/-! ## Loggers -/

structure Logger where
  name : String
  level : LogLevel
  json : Bool
  /-- whether lines tell the time -/
  timed : Bool := false
  /-- whether lines tell where they come from -/
  located : Bool := false
deriving DecidableEq, Repr

namespace Logger

/-- the logger for a part, its name behind the name of the whole -/
def named (l : Logger) (part : String) : Logger :=
  { l with name := if l.name.isEmpty then part else l.name ++ "." ++ part }

/-- the stamps that lines of this logger bear -/
def stamps (l : Logger) (now : Moment) (caller : Caller) : Stamps :=
  { moment := if l.timed then some now else none, caller := if l.located then some caller else none }

/-- what the logger writes for an entry that is made at a moment at some place of the program -/
def write (l : Logger) (e : LogEntry) (now : Moment := {}) (caller : Caller := .main) : String :=
  if e.level.rank < l.level.rank then ""
  else if l.json then e.json l.name (l.stamps now caller)
  else e.plain l.name (l.stamps now caller)

/-- the warning about an unknown level -/
def unknownLevel (given : String) : LogEntry :=
  { level := .warn, message := "Unrecognized log level, defaulting to INFO", pairs := [("providedLevel", .text given)] }

/-- the level that the environment or else the configuration names, and what is written if it is unknown -/
def chooseLevel (env : String) (c : Option Config) : LogLevel × String :=
  let given := if env.isEmpty then (c.map (·.logger.level.shown)).getD "" else env
  if given.isEmpty then (.info, "")
  else
    match LogLevel.ofUpper? (upper given) with
    | some l => (l, "")
    | none => (.info, (unknownLevel (upper given)).plain "")

/-- a logger, and what is written when it is made -/
def make (env : String) (c : Option Config) (name : String) : Logger × String :=
  let (level, output) := chooseLevel env c
  let settings := (c.map Config.toField).getD .other
  ({ name, level
     json := settings.boolAt "Logger.JSONFormat" false
     timed := !settings.boolAt "Logger.DisableTime" true
     located := settings.boolAt "Logger.IncludeLocation" false }, output)

end Logger

end AppAudit
