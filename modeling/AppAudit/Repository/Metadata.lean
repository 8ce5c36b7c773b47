/-
What is known about the repository that a path lies in: its root, the branch and commit that are checked out, and the
remote repository it comes from.

The repository is the nearest one above the path, or at the path itself. A directory is one if it has a readable `HEAD` in
its `.git`, which may be a directory or a file that names one, or in itself. An unreadable branch, commit or remote stays
empty; only the absence of a repository is an error.

What is asked about directories is collected in `Git`, and a look-up depends on nothing else about them; `FileSystem.git`
answers from the files.
-/
import AppAudit.Repository.Origin
import AppAudit.Repository.Refs
import AppAudit.Repository.Remote

namespace AppAudit

/-! ## Finding the repository -/

/-- the first of a path and the directories above it that satisfies a test; there is none for the empty path -/
def climb? (test : List Char → Bool) (path : List Char) : Option (List Char) :=
  if hempty : path = [] then none
  else if test path then some path
  else if htop : Path.dir path = path then none
  else
    have := Path.depth_dir_lt path hempty htop
    climb? test (Path.dir path)
termination_by Path.depth path

namespace FileSystem

/-- the directory that a `.git` file names -/
def namedGitDir? (path : List Char) (bytes : List UInt8) : Option (List Char) :=
  ((RawText.ofBytes bytes).after? "gitdir: ").bind fun rest =>
    (((rest.split '\n').head?.getD {}).trim.chars?).map fun named =>
      if Path.isAbs named then named else Path.join [path, named]

/-- where the repository of a directory would keep its data -/
def gitDir? (fs : FileSystem) (path : List Char) : Option (List Char) :=
  let inside := Path.join [path, ".git".toList]
  match fs.stat inside with
  | .ok (.dir _) => some inside
  | .ok (.file bytes) => namedGitDir? path bytes
  | .ok _ => none
  | .error e => if e.cause = .notFound then some path else none

/-- whether a directory is the root of a repository -/
def opens (fs : FileSystem) (path : List Char) : Bool :=
  match fs.gitDir? path with
  | some gitDir => (Ref.find? fs gitDir Ref.head).isSome
  | none => false

/-- where the search for the repository of an absolute path starts: at the path, or above a file -/
def searchStart (fs : FileSystem) (path : List Char) : List Char :=
  match fs.stat path with
  | .ok n => if n.isDir then path else Path.dir path
  | .error _ => path

end FileSystem

/-! ## Reading the repository -/

/-- what is known about directories as repositories -/
structure Git where
  opens : List Char → Bool
  /-- the name and the commit that are checked out; none if that cannot be told -/
  head? : List Char → Option (RawText × List Char)
  /-- the first address of the remote repository that it comes from -/
  origin? : List Char → Option (List Char)

namespace FileSystem

/-- what is checked out in a repository that keeps its data in a directory -/
def headOf? (fs : FileSystem) (gitDir : List Char) : Option (RawText × List Char) :=
  Ref.follow? (Ref.find? fs gitDir) Ref.maxFollowed Ref.head

/-- the first address of the remote repository that a repository comes from -/
def originOf? (fs : FileSystem) (tie : Setting.TieBreak) (gitDir : List Char) : Option (List Char) :=
  match fs.readFile (Path.join [gitDir, "config".toList]) with
  | .ok bytes => (Setting.read? bytes).bind (Setting.origin? tie)
  | .error _ => none

/-- what the files say about directories as repositories -/
def git (fs : FileSystem) (tie : Setting.TieBreak := .first) : Git where
  opens := fs.opens
  head? root := fs.headOf? ((fs.gitDir? root).getD root)
  origin? root := fs.originOf? tie ((fs.gitDir? root).getD root)

end FileSystem

/-- a path that starts at the root, spelled in any way -/
structure RootedPath where
  text : List Char
  isAbs : Path.isAbs text = true

/-- the working directory by the names on the way to it -/
def FileSystem.cwdPath (fs : FileSystem) : RootedPath := ⟨'/' :: Path.joinNames fs.cwd, rfl⟩

/-! ## All together -/

structure Metadata where
  root : List Char
  /-- how to get from the root to the path; empty for the root itself -/
  subfolder : List Char
  branch : List Char
  commit : List Char
  remote : List Char
  url : RawText
deriving DecidableEq, Repr

inductive MetadataError where
  | noTarget
  | notRepository
  | remote (cause : Remote.Breakdown)
deriving DecidableEq, Repr

def MetadataError.text : MetadataError → String
  | noTarget => "target path is not set"
  | notRepository => "target is not inside a git repository: no repository above target"
  | remote cause => cause.text

/-- the metadata of the repository with a root, seen from an absolute path -/
def Git.metadataAt (git : Git) (root path : List Char) : Except MetadataError Metadata :=
  let (name, commit) := (git.head? root).getD ({}, [])
  let relative := Path.rel root path
  let known : Metadata :=
    { root := Path.clean root
      subfolder := if relative = ['.'] then [] else relative
      branch := Ref.branch name
      commit
      remote := []
      url := {} }
  match git.origin? root with
  | none => .ok known
  | some address =>
    match Remote.webUrl address with
    | .ok url => .ok { known with remote := Remote.dropGit address, url }
    | .error e => .error (.remote e)

/-- the metadata of the repository that a path lies in, seen from a working directory -/
def FileSystem.metadata (fs : FileSystem) (target : List Char) (git : Git := fs.git) (cwd : RootedPath := fs.cwdPath) :
    Except MetadataError Metadata :=
  if target.isEmpty then .error .noTarget
  else
    let path := Path.abs cwd.text target
    match climb? git.opens (fs.searchStart path) with
    | none => .error .notRepository
    | some root => git.metadataAt root path

end AppAudit
