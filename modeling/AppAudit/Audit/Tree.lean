/-
Auditing everything under a path: collect the sources, audit each one into a result of its own, and merge these results
in the order in which the files were collected.

A file that cannot be read is passed over. How many files are audited at once makes no difference to the outcome.
-/
import AppAudit.Audit.Content
import AppAudit.Audit.Pool
import AppAudit.Files.Walk

namespace AppAudit

namespace FileSystem

/-- audits the file at a path, on top of what is already there -/
def auditFile (fs : FileSystem) (rules : List Rule) (path : List Char) (r : Result) : Result :=
  match fs.readFile path with
  | .ok bytes => auditContent rules (String.ofList path) (Utf8.decode bytes) r
  | .error _ => r

/-- one result per file, merged in order -/
def auditFiles (fs : FileSystem) (rules : List Rule) (paths : List (List Char)) : Result :=
  (Pool.results paths fun _ path => fs.auditFile rules path .empty).foldl Result.merge .empty

/-- audits a file or everything below a directory -/
def auditPath (fs : FileSystem) (rules : List Rule) (root : List Char) : Except WalkError Result :=
  (fs.collect root).map (fs.auditFiles rules)

/-- what becomes of a file in an audit -/
inductive Reading where
  | unreadable (error : FileError)
  | outOfScope
  | audited (frameworks : Frameworks)
deriving DecidableEq, Repr

def reading (fs : FileSystem) (path : List Char) : Reading :=
  match fs.readFile path with
  | .error e => .unreadable e
  | .ok bytes =>
    let frameworks := Frameworks.detect (Utf8.decode bytes)
    if frameworks.inScope then .audited frameworks else .outOfScope

end FileSystem

end AppAudit
