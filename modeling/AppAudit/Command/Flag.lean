/-
Flags on a command line.

A flag has a name, written `--name`, and perhaps a letter, written `-n`. Flags may stand anywhere before a lone `--`, and
everything that is no flag is an argument of the command. A switch takes a value only behind `=`; every other flag takes
what stands behind `=`, or else the next argument. Letters may be joined, and a letter that takes a value takes the rest
of its argument. If a flag is given more than once, its last value counts. The first fault from the left is reported.
-/
import AppAudit.Number.Integer
import AppAudit.Text.Quoted
import AppAudit.Text.Space
import AppAudit.Text.Utf8

namespace AppAudit

inductive FlagKind where
  | switch
  | text
  | number
deriving DecidableEq, Repr

structure Flag where
  name : String
  letter : Option Char := none
  kind : FlagKind
  /-- what help says about it -/
  purpose : String
deriving DecidableEq, Repr

inductive FlagValue where
  | switch (on : Bool)
  | text (s : List Char)
  | number (n : Int)
deriving DecidableEq, Repr

/-! ## Values -/

/-- why a text is no value of a flag -/
inductive ValueError where
  | switch
  | number (cause : IntegerError)
deriving DecidableEq, Repr

def ValueError.text (given : List Char) : ValueError → String
  | switch => "strconv.ParseBool: parsing " ++ quoted (String.ofList given) ++ ": invalid syntax"
  | number cause => "strconv.ParseInt: parsing " ++ quoted (String.ofList given) ++ ": " ++ cause.text

def yesWords : List String := ["1", "t", "T", "true", "TRUE", "True"]

def noWords : List String := ["0", "f", "F", "false", "FALSE", "False"]

/-- the value that a text gives to a flag of a kind -/
def FlagKind.read (given : List Char) : FlagKind → Except ValueError FlagValue
  | switch =>
    if yesWords.contains (String.ofList given) then .ok (.switch true)
    else if noWords.contains (String.ofList given) then .ok (.switch false)
    else .error .switch
  | text => .ok (.text given)
  | number =>
    match Integer.read given with
    | .ok n => .ok (.number n)
    | .error e => .error (.number e)

/-! ## Faults -/

inductive FlagError where
  | badSyntax (argument : List Char)
  | unknown (name : List Char)
  /-- the letter that `rest` starts with is unknown -/
  | unknownLetter (rest : List Char)
  | noValue (argument : List Char)
  | noLetterValue (letter : Char)
  | badValue (flag : Flag) (given : List Char) (cause : ValueError)
deriving DecidableEq, Repr

/-- both ways to write a flag -/
def Flag.spelling (f : Flag) : String :=
  match f.letter with
  | some c => "-" ++ String.singleton c ++ ", --" ++ f.name
  | none => "--" ++ f.name

/-- the first byte of a text as a character in single quotes -/
def quotedFirstByte (s : List Char) : String :=
  match Utf8.encode s with
  | [] => "''"
  | byte :: _ =>
    let c := Char.ofNat byte.toNat
    String.ofList ('\x27' :: (if c = '\x27' then ['\\', c] else if c = '"' then [c] else quotedChar c) ++ ['\x27'])

def FlagError.text : FlagError → String
  | badSyntax argument => "bad flag syntax: " ++ String.ofList argument
  | unknown name => "unknown flag: --" ++ String.ofList name
  | unknownLetter rest => "unknown shorthand flag: " ++ quotedFirstByte rest ++ " in -" ++ String.ofList rest
  | noValue argument => "flag needs an argument: " ++ String.ofList argument
  | noLetterValue letter =>
    "flag needs an argument: " ++ quotedFirstByte [letter] ++ " in -" ++ String.singleton letter
  | badValue flag given cause =>
    "invalid argument " ++ quoted (String.ofList given) ++ " for " ++ quoted flag.spelling ++ " flag: "
      ++ cause.text given

/-! ## One argument -/

/-- what one argument says: values of flags, and whether the next argument is part of it -/
structure FlagStep where
  values : List (String × FlagValue) := []
  takesNext : Bool := false
deriving DecidableEq, Repr

namespace Flag

/-- the flag with a value -/
def give (f : Flag) (given : List Char) (takesNext : Bool) : Except FlagError FlagStep :=
  match f.kind.read given with
  | .ok v => .ok ⟨[(f.name, v)], takesNext⟩
  | .error e => .error (.badValue f given e)

/-- reads an argument that starts with two dashes -/
def readLong (flags : List Flag) (argument : List Char) (next : Option (List Char)) : Except FlagError FlagStep :=
  let body := argument.drop 2
  let (name, given) := cut '=' body
  if name.isEmpty || body.head? = some '-' then .error (.badSyntax argument)
  else
    match flags.find? fun f => f.name.toList == name with
    | none => .error (.unknown name)
    | some f =>
      if body.contains '=' then f.give given false
      else
        match f.kind, next with
        | .switch, _ => .ok ⟨[(f.name, .switch true)], false⟩
        | _, some given => f.give given true
        | _, none => .error (.noValue argument)

/-- letters that start like this are passed over -/
def ignoredLetters : List Char := "test.".toList

/-- reads letters that stand behind one dash -/
def readLetters (flags : List Flag) (next : Option (List Char)) : List Char → Except FlagError FlagStep
  | [] => .ok {}
  | c :: rest =>
    if ignoredLetters.isPrefixOf (c :: rest) then .ok {}
    else
      match flags.find? fun f => f.letter == some c with
      | none => .error (.unknownLetter (c :: rest))
      | some f =>
        match f.kind, rest with
        | _, '=' :: v :: given => f.give (v :: given) false
        | .switch, _ =>
          match readLetters flags next rest with
          | .ok step => .ok { step with values := (f.name, .switch true) :: step.values }
          | .error e => .error e
        | _, v :: given => f.give (v :: given) false
        | _, [] =>
          match next with
          | some given => f.give given true
          | none => .error (.noLetterValue c)

/-- whether an argument gives flags; a lone dash does not -/
def isGiven (argument : List Char) : Bool := argument.head? = some '-' && argument.length ≠ 1

/-- the argument that ends the flags -/
def terminator : List Char := ['-', '-']

/-- reads an argument that gives flags -/
def readStep (flags : List Flag) (argument : List Char) (next : Option (List Char)) : Except FlagError FlagStep :=
  if ['-', '-'].isPrefixOf argument then readLong flags argument next
  else readLetters flags next (argument.drop 1)

end Flag

/-! ## The whole line -/

/-- what a command line says: values of flags in the order given, and arguments -/
structure CommandLine where
  values : List (String × FlagValue) := []
  arguments : List (List Char) := []
deriving DecidableEq, Repr

namespace CommandLine

/-- reads a command line -/
def read (flags : List Flag) : (line : List (List Char)) → Except FlagError CommandLine
  | [] => .ok {}
  | argument :: rest =>
    if argument = Flag.terminator then .ok { arguments := rest }
    else if Flag.isGiven argument then
      match Flag.readStep flags argument rest.head? with
      | .error e => .error e
      | .ok step =>
        match read flags (if step.takesNext then rest.tail else rest) with
        | .error e => .error e
        | .ok line => .ok { line with values := step.values ++ line.values }
    else
      match read flags rest with
      | .error e => .error e
      | .ok line => .ok { line with arguments := argument :: line.arguments }
termination_by line => line.length
decreasing_by
  · split <;> simp only [List.length_tail, List.length_cons] <;> omega
  · simp only [List.length_cons]; omega

/-- the value of a flag -/
def value? (line : CommandLine) (name : String) : Option FlagValue := line.values.reverse.lookup name

/-- whether a switch is on -/
def isOn (line : CommandLine) (name : String) : Bool := line.value? name = some (.switch true)

/-- the text that a flag gives; nothing without the flag -/
def text (line : CommandLine) (name : String) : List Char :=
  match line.value? name with
  | some (.text s) => s
  | _ => []

/-- the number that a flag gives; zero without the flag -/
def number (line : CommandLine) (name : String) : Int :=
  match line.value? name with
  | some (.number n) => n
  | _ => 0

end CommandLine

end AppAudit
