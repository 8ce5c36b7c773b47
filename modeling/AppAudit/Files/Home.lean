/-
Paths that start in the home directory, and the path that an audit is asked for.

A path that starts with `~/` is taken below the home directory; every other path, also one that merely contains a tilde,
stands for itself. The target of an audit has to exist once it is expanded.
-/
import AppAudit.Files.System
import AppAudit.Text.Quoted

namespace AppAudit

/-- why a path cannot be expanded -/
inductive HomeError where
  | undefined
deriving DecidableEq, Repr

def HomeError.text : HomeError → String
  | undefined => "$HOME is not defined"

/-- the path with a leading `~/` replaced by the home directory -/
def expandHome (home : Option (List Char)) : List Char → Except HomeError (List Char)
  | '~' :: '/' :: rest =>
    match home with
    | some home => .ok (Path.join [home, rest])
    | none => .error .undefined
  | path => .ok path

/-- why a path cannot be audited -/
inductive TargetError where
  | home (path : List Char) (cause : HomeError)
  | missing (path : List Char)
  | stat (cause : FileError)
deriving DecidableEq, Repr

def TargetError.text : TargetError → String
  | home path cause => "failed to expand path " ++ quoted (String.ofList path) ++ ": " ++ cause.text
  | missing path => "the target path does not exist: " ++ String.ofList path
  | stat cause => "path stat error: " ++ cause.text

/-- the expanded path of something that exists -/
def FileSystem.target (fs : FileSystem) (home : Option (List Char)) (path : List Char) :
    Except TargetError (List Char) :=
  match expandHome home path with
  | .error e => .error (.home path e)
  | .ok expanded =>
    match fs.stat expanded with
    | .ok _ => .ok expanded
    | .error e => if e.cause = .notFound then .error (.missing path) else .error (.stat e)

end AppAudit
