/-
How a command fails: a chain of contexts around a cause, and the exit code that belongs to it.

The outermost failure that carries a code decides the exit code and whether the user has already been told; contexts
around it only add text. A failure without any code exits with 1.
-/

namespace AppAudit

inductive Failure where
  | plain (text : String)
  /-- a failure with an exit code -/
  | command (code : Int) (inner : Failure)
  /-- an audit that found issues; the report has told the user -/
  | nonCompliant (issues : Int)
  /-- a context before the text of a failure -/
  | wrap (context : String) (inner : Failure)
deriving DecidableEq, Repr

namespace Failure

/-- the exit code of failures that carry none, and of audits that found issues -/
def defaultCode : Int := 1

def message : Failure → String
  | plain text => text
  | command _ inner => inner.message
  | nonCompliant issues => "audit finished with blocking issues: " ++ toString issues
  | wrap context inner => context ++ ": " ++ inner.message

/-- code and report mark of the outermost failure that has them -/
def verdict? : Failure → Option (Int × Bool)
  | plain _ => none
  | command code _ => some (code, false)
  | nonCompliant _ => some (defaultCode, true)
  | wrap _ inner => inner.verdict?

def exitCode (f : Failure) : Int :=
  match f.verdict? with
  | some (code, _) => code
  | none => defaultCode

/-- whether the user has already been told -/
def reported (f : Failure) : Bool :=
  match f.verdict? with
  | some (_, told) => told
  | none => false

/-- whether an audit that found issues lies at the bottom -/
def isNonCompliant : Failure → Bool
  | plain _ => false
  | command _ inner => inner.isNonCompliant
  | nonCompliant _ => true
  | wrap _ inner => inner.isNonCompliant

end Failure

end AppAudit
