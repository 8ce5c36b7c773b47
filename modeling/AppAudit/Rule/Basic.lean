/-
Rules: what they look at, what they may say, and how saying becomes an outcome.

A rule's check maps the text of a file to a list of signals. Signals are issues, warnings and passes in the order they
are raised; `fail` says that the check itself broke down. One `fail` drops everything the rule said about the file, so
a broken rule never disturbs the others.

Most checks are conditions on which patterns occur, built from `Condition`; `signals` raises a signal for each
condition that holds. The others count occurrences (`overLimit`) or judge measured numbers (`Measure`).
-/
import AppAudit.Finding
import AppAudit.Framework
import AppAudit.Number.Decimal
import AppAudit.Pattern.Scan

namespace AppAudit

/-! ## Conditions on a text -/

/-- a statement about which patterns occur in a text -/
inductive Condition where
  | present (p : Pattern)
  | absent (p : Pattern)
  | both (a b : Condition)
  | either (a b : Condition)
deriving DecidableEq, Repr

def Condition.holds : Condition → List Char → Bool
  | present p, s => p.occursIn s
  | absent p, s => !p.occursIn s
  | both a b, s => a.holds s && b.holds s
  | either a b, s => a.holds s || b.holds s

/-! ## Signals and outcomes -/

/-- what a check says about a file -/
inductive Signal where
  | issue (message : String)
  | warn (message : String)
  | pass
  /-- the check broke down -/
  | fail
deriving DecidableEq, Repr

/-- what a rule contributes for a file: findings, and one tag per confirmed good pattern -/
structure Outcome where
  findings : List Finding
  passed : List String
deriving DecidableEq, Repr

def Outcome.empty : Outcome := ⟨[], []⟩

/-- an entry of the rule catalog -/
structure Rule where
  id : String
  category : String
  description : String
  /-- frameworks that must be present; none of them means every file in scope -/
  requires : Frameworks := .none
  check : List Char → List Signal

namespace Rule

/-- whether the rule runs for a file with these frameworks -/
def applies (r : Rule) (f : Frameworks) : Bool := f.inScope && f.has r.requires

/-- the finding that a signal stands for -/
def finding? (r : Rule) (file : String) : Signal → Option Finding
  | .issue message => some (.newIssue r.id r.category file message)
  | .warn message => some (.newWarning r.id r.category file message)
  | .pass | .fail => none

/-- runs the rule on a file's text; a check that breaks down contributes nothing -/
def evaluate (r : Rule) (file : String) (content : List Char) : Outcome :=
  let said := r.check content
  if said.contains .fail then .empty
  else
    { findings := said.filterMap (r.finding? file)
      passed := (said.filter (· == .pass)).map fun _ => r.id }

end Rule

/-! ## Ways to check -/

/-- raises each signal whose condition holds, in order -/
def signals (cases : List (Condition × Signal)) (s : List Char) : List Signal :=
  (cases.filter fun c => c.1.holds s).map (·.2)

/-- one warning that quotes the number of occurrences, once there are more than `limit` -/
def overLimit (limit : Nat) (m : Marker) (message : Nat → String) (s : List Char) : List Signal :=
  let n := m.count s
  if limit < n then [.warn (message n)] else []

/-- a number found in the text, with its spelling -/
structure Measure where
  raw : List Char
  value : Binary64
deriving DecidableEq, Repr

/-- the tokens that are numbers, in order; the others are left out -/
def Extractor.measures (e : Extractor) (s : List Char) : List Measure :=
  (e.tokens s).filterMap fun t => (Binary64.read? t).map fun v => ⟨t, v⟩

/-- a decimal number in a declaration: digits, perhaps a point and more digits -/
def Pattern.plainNumber : Pattern :=
  .seq (.atLeastOne .digit) (.optional (.seq (.lit ".") (.atLeastOne .digit)))

/-- a name, a colon and white space: what leads up to a declared value -/
def Pattern.property (names : List String) : Pattern := .all [.anyOf names, .lit ":", .gap]

end AppAudit
