/-
Saving a report to a file: where it goes, the folder it needs, and writing it.

An existing directory receives the report under a given name, and so does a missing path without an extension, which then
becomes a folder. Everything else is the path of the file itself. The file is emptied before anything is written, and
writing goes through a buffer, so a report that breaks off loses what the buffer still holds.
-/
import AppAudit.Files.Home
import AppAudit.Report.Render

namespace AppAudit

/-! ## Where the report goes -/

/-- a report file and the folder it needs -/
structure OutputPlace where
  file : List Char
  folder : List Char
deriving DecidableEq, Repr

/-- why no place can be given -/
inductive OutputError where
  | home (cause : HomeError)
  | stat (path : List Char) (cause : FileError)
deriving DecidableEq, Repr

def OutputError.text : OutputError → String
  | home cause => "failed to unwrap path \"\": " ++ cause.text
  | stat path cause => "failed to unwrap path " ++ quoted (String.ofList path) ++ ": " ++ cause.text

/-- the place of a report: inside of `path` under `name`, or `path` itself -/
def FileSystem.outputPlace (fs : FileSystem) (home : Option (List Char)) (path name : List Char) :
    Except OutputError OutputPlace :=
  match expandHome home path with
  | .error e => .error (.home e)
  | .ok path =>
    let inside : OutputPlace := ⟨Path.join [path, name], path⟩
    let itself : OutputPlace := ⟨path, Path.dir path⟩
    match fs.stat path with
    | .ok n => .ok (if n.isDir then inside else itself)
    | .error e =>
      if e.cause ≠ .notFound then .error (.stat path e)
      else .ok (if (Path.ext path).isEmpty then inside else itself)

/-! ## The folder -/

inductive FolderError where
  | create (folder : List Char) (cause : FileError)
  | check (folder : List Char) (cause : FileError)
deriving DecidableEq, Repr

def FolderError.text : FolderError → String
  | create folder cause => "unable to create folder " ++ quoted (String.ofList folder) ++ ": " ++ cause.text
  | check folder cause => "unable to check folder " ++ quoted (String.ofList folder) ++ ": " ++ cause.text

/-- makes a folder, unless something stands there already -/
def FileSystem.createFolder (fs : FileSystem) (folder : List Char) : Except FolderError FileSystem :=
  match fs.stat folder with
  | .ok _ => .ok fs
  | .error e =>
    if e.cause = .notFound then (fs.mkdirAll folder).mapError (.create folder) else .error (.check folder e)

/-! ## Writing -/

inductive SaveError where
  | create (cause : FileError)
  | render (cause : ReportError)
  | write (reason : String)
deriving DecidableEq, Repr

def SaveError.text : SaveError → String
  | create cause => "failed creating file: " ++ cause.text
  | render cause => "error writing data to file: " ++ cause.text
  | write reason => "error writing data to file: " ++ reason

/-- how many of some writes an opened file takes -/
def FileSystem.Target.accepts (writes : Nat) : Target → Nat
  | .device .full => 0
  | _ => writes

/-- fills an opened file through a buffer -/
def FileSystem.fill (fs : FileSystem) (target : Target) (path : List Char) (r : Rendering) :
    FileSystem × Option SaveError :=
  let (written, failure) := r.deliverBuffered (target.accepts (Buffer.writes r.chunks).length)
    (FileError.text ⟨"write", path, .noSpace⟩)
  (fs.store target written.flatten, failure.map .write)

/-- empties a file, or makes it, and fills it with what is rendered then -/
def FileSystem.save (fs : FileSystem) (path : List Char) (render : FileSystem → Except ReportError Rendering) :
    FileSystem × Option SaveError :=
  match fs.openTruncated path with
  | .error e => (fs, some (.create e))
  | .ok (fs, target) =>
    match render fs with
    | .ok r => fs.fill target path r
    | .error e => (fs, some (.render e))

end AppAudit
