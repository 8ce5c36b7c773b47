/-
Findings: one rule's complaint about one file, and how serious it is.
-/

namespace AppAudit

/-- how serious a finding is. Only an `issue` blocks; codes other than 0 and 1 have no meaning of their own. -/
inductive Severity where
  | issue
  | warning
  | other (code : Int)
deriving DecidableEq, Repr

namespace Severity

/-- the severity with a numeric code -/
def ofCode (code : Int) : Severity :=
  if code = 0 then .issue else if code = 1 then .warning else .other code

def code : Severity → Int
  | issue => 0
  | warning => 1
  | other code => code

def name : Severity → String
  | issue => "issue"
  | warning => "warning"
  | other _ => "unknown"

end Severity

/-- one complaint. `file` is what reports show; `path` leads to the file and is empty when unknown. -/
structure Finding where
  ruleId : String
  severity : Severity
  category : String
  file : String
  path : String
  message : String
deriving DecidableEq, Repr

namespace Finding

/-- whether the finding blocks compliance -/
def isIssue (f : Finding) : Bool := f.severity == .issue

/-- how reports list the finding -/
def text (f : Finding) : String := "[" ++ f.category ++ "] " ++ f.file ++ ": " ++ f.message

def newIssue (ruleId category file message : String) : Finding :=
  { ruleId, severity := .issue, category, file, path := "", message }

def newWarning (ruleId category file message : String) : Finding :=
  { ruleId, severity := .warning, category, file, path := "", message }

end Finding

end AppAudit
