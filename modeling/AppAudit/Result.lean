/-
What an audit has found so far: how many files it looked at, the findings sorted into issues and warnings, and how many
good patterns it confirmed.

Results only grow: `add` appends an outcome and `merge` appends another result, both after everything that is already
there. A result is compliant as long as it holds no issue.
-/
import AppAudit.Rule.Basic

namespace AppAudit

structure Result where
  filesChecked : Int
  issues : List Finding
  warnings : List Finding
  passedCount : Int
deriving DecidableEq, Repr

namespace Result

def empty : Result := ⟨0, [], [], 0⟩

/-- counts one more file -/
def countFile (r : Result) : Result := { r with filesChecked := r.filesChecked + 1 }

/-- appends an outcome; whatever is not an issue is a warning -/
def add (r : Result) (o : Outcome) : Result :=
  { r with
    issues := r.issues ++ o.findings.filter Finding.isIssue
    warnings := r.warnings ++ o.findings.filter fun f => !f.isIssue
    passedCount := r.passedCount + o.passed.length }

/-- appends another result -/
def merge (r other : Result) : Result :=
  { filesChecked := r.filesChecked + other.filesChecked
    issues := r.issues ++ other.issues
    warnings := r.warnings ++ other.warnings
    passedCount := r.passedCount + other.passedCount }

/-- no issue at all; warnings do not matter -/
def compliant (r : Result) : Bool := r.issues.isEmpty

/-- every finding, issues first -/
def findings (r : Result) : List Finding := r.issues ++ r.warnings

theorem merge_assoc (a b c : Result) : (a.merge b).merge c = a.merge (b.merge c) := by
  simp only [merge, List.append_assoc, Int.add_assoc]

theorem empty_merge (a : Result) : empty.merge a = a := by
  simp only [merge, empty, List.nil_append, Int.zero_add]

theorem merge_empty (a : Result) : a.merge empty = a := by
  simp only [merge, empty, List.append_nil, Int.add_zero]

end Result

/-- a result as reports show it, findings as texts -/
structure Snapshot where
  filesChecked : Int
  issues : List String
  warnings : List String
  passedChecks : Int
  compliant : Bool
deriving DecidableEq, Repr

def Result.snapshot (r : Result) : Snapshot :=
  { filesChecked := r.filesChecked
    issues := r.issues.map Finding.text
    warnings := r.warnings.map Finding.text
    passedChecks := r.passedCount
    compliant := r.compliant }

end AppAudit
