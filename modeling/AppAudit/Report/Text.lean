/-
The report for people: a heading, the first findings of each kind with their total, and the verdict.

Long lists are cut, issues after 10 and warnings after 15, but the totals in the headings count everything.
-/
import AppAudit.Result

namespace AppAudit.TextReport

def maxIssues : Nat := 10

def maxWarnings : Nat := 15

/-- a titled list with its total, cut at the limit; nothing at all for an empty list -/
def listing (title : String) (limit : Nat) (entries : List String) : List String :=
  if entries.isEmpty then []
  else
    (title ++ " (" ++ toString entries.length ++ "):\n") :: (entries.take limit).map fun e => "  - " ++ e ++ "\n"

/-- the report, line by line -/
def lines (s : Snapshot) : List String :=
  ["\n[MOBILE AUDIT] " ++ toString s.filesChecked ++ " mobile files checked\n",
   String.ofList (List.replicate 50 '-') ++ "\n"]
  ++ listing "[!] ISSUES" maxIssues s.issues
  ++ listing "[*] WARNINGS" maxWarnings s.warnings
  ++ ["[+] PASSED CHECKS: " ++ toString s.passedChecks ++ "\n",
      "STATUS: " ++ (if s.compliant then "PASS" else "FAIL") ++ "\n"]

def render (s : Snapshot) : String := String.join (lines s)

end AppAudit.TextReport
