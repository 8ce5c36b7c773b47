/-
A file system: a tree seen from a working directory, and the operations that programs ask of it.

Every operation starts by resolving a path. Names are looked up one after the other; `.` stays, `..` goes up, and a link
is replaced by its target, as long as no more than 40 links are met. The last name may be missing, which leaves a vacant
place that can be filled. A failing operation gives its cause; the texts of causes are the usual ones.
-/
import AppAudit.Files.Node
import AppAudit.Files.Path
import AppAudit.Text.Utf8

namespace AppAudit

/-- why an operation failed -/
inductive FileCause where
  | notFound
  | notDirectory
  | isDirectory
  | alreadyExists
  | tooManyLinks
  | nameTooLong
  | invalid
  | noSpace
deriving DecidableEq, Repr

def FileCause.text : FileCause → String
  | notFound => "no such file or directory"
  | notDirectory => "not a directory"
  | isDirectory => "is a directory"
  | alreadyExists => "file exists"
  | tooManyLinks => "too many levels of symbolic links"
  | nameTooLong => "file name too long"
  | invalid => "invalid argument"
  | noSpace => "no space left on device"

/-- a failed operation on a path -/
structure FileError where
  operation : String
  path : List Char
  cause : FileCause
deriving DecidableEq, Repr

def FileError.text (e : FileError) : String :=
  e.operation ++ " " ++ String.ofList e.path ++ ": " ++ e.cause.text

/-- where a path leads -/
inductive Place where
  | found (place : List Name) (node : Node)
  /-- nothing there, but the directory exists; `asDir` says that only a directory can be made there -/
  | vacant (directory : List Name) (name : Name) (asDir : Bool)
  /-- something that is no directory, but has to be one -/
  | blocked

/-- a tree and the directory that relative paths start from -/
structure FileSystem where
  tree : Node
  cwd : List Name

namespace FileSystem

/-! ## Resolving paths -/

/-- the longest name, and the first length of a path that is too long, in bytes -/
def maxName : Nat := 255

def pathLimit : Nat := 4096

/-- links that may be followed on the way -/
def maxLinks : Nat := 40

/-- the names of a path as written -/
def parts (path : List Char) : List Name := (Path.split path).filter fun p => !p.isEmpty

/-- whether the path ends in a slash, and so must lead to a directory -/
def endsInSlash (path : List Char) : Bool := path.getLast? = some '/'

/-- follows the names in `todo` from the directory `here`. The last one is followed through a link if `follow` or
`asDir` says so; `asDir` demands a directory. -/
def resolve (tree : Node) (follow : Bool) :
    (links : Nat) → (here todo : List Name) → (asDir : Bool) → Except FileCause Place
  | _, here, [], _ =>
    match tree.at? here with
    | some n => .ok (.found here n)
    | none => .error .notFound
  | links, here, name :: rest, asDir =>
    if name = ['.'] then resolve tree follow links here rest asDir
    else if name = ['.', '.'] then resolve tree follow links here.dropLast rest asDir
    else if maxName < (Utf8.encode name).length then .error .nameTooLong
    else
      match (tree.at? here).bind fun n => n.child? name with
      | none => if rest.isEmpty then .ok (.vacant here name asDir) else .error .notFound
      | some (.dir _) => resolve tree follow links (here ++ [name]) rest asDir
      | some (.link target) =>
        if rest.isEmpty && !follow && !asDir then .ok (.found (here ++ [name]) (.link target))
        else
          match links with
          | 0 => .error .tooManyLinks
          | left + 1 =>
            resolve tree follow left (if Path.isAbs target then [] else here) (parts target ++ rest)
              (asDir || (rest.isEmpty && endsInSlash target))
      | some node =>
        if rest.isEmpty then .ok (if asDir then .blocked else .found (here ++ [name]) node) else .error .notDirectory
termination_by links _ todo => (links, todo.length)

/-- checks the path as a text and resolves it -/
def locate (fs : FileSystem) (follow : Bool) (path : List Char) (asDir : Bool) : Except FileCause Place :=
  if path.contains '\x00' then .error .invalid
  else if pathLimit ≤ (Utf8.encode path).length then .error .nameTooLong
  else if path.isEmpty then .error .notFound
  else resolve fs.tree follow maxLinks (if Path.isAbs path then [] else fs.cwd) (parts path) asDir

/-- an existing node, or the cause why there is none -/
def lookup (fs : FileSystem) (follow : Bool) (path : List Char) : Except FileCause Node :=
  match fs.locate follow path (endsInSlash path) with
  | .ok (.found _ n) => .ok n
  | .ok (.vacant _ _ _) => .error .notFound
  | .ok .blocked => .error .notDirectory
  | .error e => .error e

/-! ## Reading -/

/-- what a path leads to, links followed -/
def stat (fs : FileSystem) (path : List Char) : Except FileError Node :=
  (fs.lookup true path).mapError fun e => ⟨"stat", path, e⟩

/-- what a path leads to, a link at its end not followed -/
def lstat (fs : FileSystem) (path : List Char) : Except FileError Node :=
  (fs.lookup false path).mapError fun e => ⟨"lstat", path, e⟩

def isDirectory (fs : FileSystem) (path : List Char) : Bool :=
  match fs.stat path with
  | .ok n => n.isDir
  | .error _ => false

/-- the bytes of a file -/
def readFile (fs : FileSystem) (path : List Char) : Except FileError (List UInt8) :=
  match fs.lookup true path with
  | .error e => .error ⟨"open", path, e⟩
  | .ok (.file bytes) => .ok bytes
  | .ok (.dir _) => .error ⟨"read", path, .isDirectory⟩
  | .ok _ => .ok []

/-- entries in ascending order of the bytes of their names -/
def sortEntries (entries : List (Name × Node)) : List (Name × Node) :=
  entries.mergeSort fun a b => Utf8.encode a.1 ≤ Utf8.encode b.1

/-- the entries of a directory in ascending order of names -/
def readDir (fs : FileSystem) (path : List Char) : Except FileError (List (Name × Node)) :=
  match fs.lookup true path with
  | .error e => .error ⟨"open", path, e⟩
  | .ok (.dir entries) => .ok (sortEntries entries)
  | .ok _ => .error ⟨"readdirent", path, .notDirectory⟩

/-! ## Writing -/

/-- sets the node at a place -/
def set (fs : FileSystem) (place : List Name) (n : Node) : FileSystem := { fs with tree := fs.tree.put place n }

/-- makes one directory whose parent exists -/
def mkdir (fs : FileSystem) (path : List Char) : Except FileError FileSystem :=
  match fs.locate false path false with
  | .ok (.vacant directory name _) => .ok (fs.set (directory ++ [name]) (.dir []))
  | .ok _ => .error ⟨"mkdir", path, .alreadyExists⟩
  | .error e => .error ⟨"mkdir", path, e⟩

/-- the path up to the slash before its last name, and without that slash; empty when there is no name before -/
def parentText (path : List Char) : List Char :=
  let trimmed := Path.trimSlashes path
  trimmed.take (trimmed.length - (Path.lastPart trimmed).length - 1)

theorem parentText_length_lt (path : List Char) (h : parentText path ≠ []) :
    (parentText path).length < path.length := by
  have ht : (Path.trimSlashes path).length ≤ path.length := by
    unfold Path.trimSlashes
    rw [List.length_reverse]
    exact Nat.le_trans (List.dropWhile_suffix _).length_le (Nat.le_of_eq List.length_reverse)
  have hp : (parentText path).length ≠ 0 := fun h' => h (List.length_eq_zero_iff.1 h')
  unfold parentText at hp ⊢
  simp only [List.length_take] at hp ⊢
  omega

/-- makes a directory together with all its missing parents -/
def mkdirAll (fs : FileSystem) (path : List Char) : Except FileError FileSystem :=
  match fs.stat path with
  | .ok n => if n.isDir then .ok fs else .error ⟨"mkdir", path, .notDirectory⟩
  | .error _ =>
    let made :=
      if h : parentText path = [] then .ok fs
      else
        have := parentText_length_lt path h
        mkdirAll fs (parentText path)
    match made with
    | .error e => .error e
    | .ok fs =>
      match fs.mkdir path with
      | .ok fs => .ok fs
      | .error e =>
        match fs.lstat path with
        | .ok (.dir _) => .ok fs
        | _ => .error e
termination_by path.length

/-- what a file opened for writing leads to -/
inductive Target where
  | regular (place : List Name)
  | device (d : Device)
deriving DecidableEq, Repr

/-- opens a path for writing: a missing file is made, an existing one is emptied. A slash at the end, of the path or of
the link that it comes to, asks for a directory, which cannot be opened. -/
def openTruncated (fs : FileSystem) (path : List Char) : Except FileError (FileSystem × Target) :=
  let fail (e : FileCause) : Except FileError (FileSystem × Target) := .error ⟨"open", path, e⟩
  match fs.locate true path false with
  | .error e => fail e
  | .ok place =>
    if endsInSlash path then fail .isDirectory
    else
      match place with
      | .found _ (.dir _) => fail .isDirectory
      | .found _ (.device d) => .ok (fs, .device d)
      | .found place _ => .ok (fs.set place (.file []), .regular place)
      | .blocked | .vacant _ _ true => fail .isDirectory
      | .vacant directory name false => .ok (fs.set (directory ++ [name]) (.file []), .regular (directory ++ [name]))

/-- gives an opened file its content; a device keeps nothing -/
def store (fs : FileSystem) : Target → List UInt8 → FileSystem
  | .regular place, bytes => fs.set place (.file bytes)
  | .device _, _ => fs

/-- makes a file with its missing parents; nothing happens where that is impossible -/
def addFile (fs : FileSystem) (path : List Char) (bytes : List UInt8) : FileSystem :=
  match fs.mkdirAll (Path.dir path) with
  | .error _ => fs
  | .ok fs =>
    match fs.openTruncated path with
    | .ok (fs, target) => fs.store target bytes
    | .error _ => fs

/-- makes a directory with its missing parents; nothing happens where that is impossible -/
def addDir (fs : FileSystem) (path : List Char) : FileSystem :=
  match fs.mkdirAll path with
  | .ok fs => fs
  | .error _ => fs

/-- makes a symbolic link with the missing parents; nothing happens where that is impossible -/
def addLink (fs : FileSystem) (path target : List Char) : FileSystem :=
  match fs.mkdirAll (Path.dir path) with
  | .error _ => fs
  | .ok fs =>
    match fs.locate false path false with
    | .ok (.vacant directory name _) => fs.set (directory ++ [name]) (.link target)
    | _ => fs

/-! ## Comparing -/

/-- the regular files of `after` below a place that are new or have other content than before, by their path from
there -/
def changesBelow (before after : FileSystem) (place : List Name) : List (List Char × List UInt8) :=
  let filesOf (fs : FileSystem) : List (List Name × List UInt8) :=
    match fs.tree.at? place with
    | some n => n.files []
    | none => []
  let old := filesOf before
  ((filesOf after).filter fun f => !old.contains f).map fun f => (Path.joinNames f.1, f.2)

end FileSystem

end AppAudit
