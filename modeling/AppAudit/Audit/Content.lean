/-
Auditing the text of one file: detect its frameworks and, if there are any, run every rule that applies.

A file without a recognised framework is not counted and changes nothing. Findings name the file by the last name of its
path, and carry the path itself.
-/
import AppAudit.Catalog
import AppAudit.Files.Path
import AppAudit.Result

namespace AppAudit

/-- the last name of a path -/
def fileName (path : String) : String := String.ofList (Path.base path.toList)

/-- what one rule contributes for the file at a path -/
def Rule.outcomeAt (r : Rule) (path : String) (content : List Char) : Outcome :=
  let o := r.evaluate (fileName path) content
  { o with findings := o.findings.map fun f => { f with path } }

/-- audits a text as the content of the file at `path`, on top of what is already there -/
def auditContent (rules : List Rule) (path : String) (content : List Char) (r : Result) : Result :=
  let frameworks := Frameworks.detect content
  if frameworks.inScope then
    (rules.filter fun rule => rule.applies frameworks).foldl
      (fun r rule => r.add (rule.outcomeAt path content)) r.countFile
  else r

end AppAudit
