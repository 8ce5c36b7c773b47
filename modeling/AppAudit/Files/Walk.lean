/-
Collecting the sources below a path.

A path to anything but a directory stands for itself. A directory is walked in ascending order of names, the content of a
directory standing where the directory stands. Directories that hold generated or foreign code are not entered, unless
the walk starts there, and links are never entered. What is collected are the other entries with the extension of a
source file, by their path from the start.
-/
import AppAudit.Files.System
import AppAudit.Text.Quoted

namespace AppAudit

/-- directories that are never entered below the start -/
def skippedDirs : List String := ["node_modules", ".git", "dist", "build", ".next", "ios", "android", ".idea"]

/-- extensions of source files -/
def sourceExtensions : List String := [".tsx", ".ts", ".jsx", ".js", ".dart"]

def isSkippedDir (name : Name) : Bool := skippedDirs.contains (String.ofList name)

def hasSourceExtension (path : List Char) : Bool := sourceExtensions.contains (String.ofList (Path.ext path))

/-- what a walk meets: a source, or a directory that cannot be read -/
inductive Visit where
  | source (path : List Char)
  | unreadable (path : List Char) (error : FileError)
deriving DecidableEq, Repr

namespace FileSystem

/-- visits the directory at a path of a walk from `root`; `depth` bounds how deep the walk goes -/
def visitDir (fs : FileSystem) (root : List Char) : (depth : Nat) → (path : List Char) → List Visit
  | 0, _ => []
  | depth + 1, path =>
    match fs.readDir path with
    | .error e => [.unreadable path e]
    | .ok entries => entries.flatMap fun (name, node) =>
      let child := Path.join [path, name]
      if node.isDir then
        if isSkippedDir name && child ≠ root then [] else fs.visitDir root depth child
      else if hasSourceExtension child then [.source child] else []

/-- visits everything from a path on; a link to a directory is not entered -/
def visits (fs : FileSystem) (root : List Char) : Except FileError (List Visit) :=
  match fs.stat root with
  | .error e => .error e
  | .ok n =>
    if n.isDir then
      match fs.lstat root with
      | .error e => .error e
      | .ok (.dir _) => .ok (fs.visitDir root (fs.tree.height + 2) root)
      | .ok _ => .ok (if hasSourceExtension root then [.source root] else [])
    else .ok [.source root]

end FileSystem

/-- the collected path, if it is one -/
def Visit.source? : Visit → Option (List Char)
  | source path => some path
  | unreadable _ _ => none

/-- the starting path of a walk cannot be used -/
structure WalkError where
  root : List Char
  cause : FileError
deriving DecidableEq, Repr

def WalkError.text (e : WalkError) : String :=
  "failed to stat target path " ++ quoted (String.ofList e.root) ++ ": " ++ e.cause.text

/-- the sources to audit under a path, in walking order -/
def FileSystem.collect (fs : FileSystem) (root : List Char) : Except WalkError (List (List Char)) :=
  match fs.visits root with
  | .ok visits => .ok (visits.filterMap Visit.source?)
  | .error e => .error ⟨root, e⟩

end AppAudit
