/-
Loading the configuration of a run from a file.

A path that is given has to lead to a file. Without one, a file with the usual name is taken if it is there.
-/
import AppAudit.Config.Read
import AppAudit.Files.System

namespace AppAudit.Config

/-- where the configuration is if nothing else is said -/
def usualPath : List Char := "mobileaudit.yml".toList

inductive LoadError where
  | file (cause : FileError)
  | directory (path : List Char)
  | content (cause : ReadError)
deriving DecidableEq, Repr

def LoadError.text : LoadError → String
  | file cause => cause.text
  | directory path => "'" ++ String.ofList path ++ "' is a directory, not a file"
  | content cause => cause.text

/-- the configuration in a file, with defaults -/
def loadFile (fs : FileSystem) (path : List Char) : Except LoadError Config :=
  match fs.stat path with
  | .error e => .error (.file e)
  | .ok n =>
    if n.isDir then .error (.directory path)
    else
      match fs.readFile path with
      | .error e => .error (.file e)
      | .ok bytes =>
        match read bytes with
        | .error e => .error (.content e)
        | .ok c => .ok c.withDefaults

/-- the configuration of a run; an empty path stands for the usual file, which may be missing -/
def load (fs : FileSystem) (path : List Char) : Except LoadError Config :=
  if !path.isEmpty then loadFile fs path
  else
    match loadFile fs usualPath with
    | .error (.file e) => if e.cause = .notFound then .ok standard else .error (.file e)
    | outcome => outcome

end AppAudit.Config
