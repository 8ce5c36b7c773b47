/-
A tree of files: regular files, devices, symbolic links and directories.

A directory lists its entries in ascending order of their names, and `put` keeps it that way. A place in the tree is the
list of names that leads to it from the top; links are not followed here.
-/

namespace AppAudit

/-- one part of a path -/
abbrev Name := List Char

/-- a device that can be written to -/
inductive Device where
  /-- takes everything and keeps nothing -/
  | null
  /-- has no space for a single byte -/
  | full
deriving DecidableEq, Repr

inductive Node where
  | file (bytes : List UInt8)
  | device (d : Device)
  | link (target : List Char)
  | dir (entries : List (Name × Node))

namespace Node

def isDir : Node → Bool
  | dir _ => true
  | _ => false

/-- the entry of a directory with a name -/
def child? : Node → Name → Option Node
  | dir entries, name => (entries.find? fun e => e.1 = name).map (·.2)
  | _, _ => none

/-- what stands at a place -/
def at? : Node → List Name → Option Node
  | n, [] => some n
  | n, name :: names => (n.child? name).bind fun m => m.at? names
termination_by _ names => names.length

/-- entries with one of them set, in ascending order of names -/
def putEntry (name : Name) (n : Node) : List (Name × Node) → List (Name × Node)
  | [] => [(name, n)]
  | (other, m) :: rest =>
    if name = other then (name, n) :: rest
    else if name < other then (name, n) :: (other, m) :: rest
    else (other, m) :: putEntry name n rest

/-- the tree with a node set at a place whose directory exists; any other tree is left as it is -/
def put : (tree : Node) → (place : List Name) → (new : Node) → Node
  | _, [], new => new
  | dir entries, [name], new => dir (putEntry name new entries)
  | dir entries, name :: names, new =>
    match (dir entries).child? name with
    | some below => dir (putEntry name (below.put names new) entries)
    | none => dir entries
  | other, _ :: _, _ => other
termination_by _ place => place.length

mutual

/-- how many directories lie on top of one another -/
def height : Node → Nat
  | dir entries => heights entries + 1
  | _ => 0

def heights : List (Name × Node) → Nat
  | [] => 0
  | (_, n) :: rest => max (height n) (heights rest)

end

mutual

/-- the regular files of a tree with their places, in order -/
def files : List Name → Node → List (List Name × List UInt8)
  | here, file bytes => [(here, bytes)]
  | here, dir entries => filesIn here entries
  | _, _ => []

def filesIn (here : List Name) : List (Name × Node) → List (List Name × List UInt8)
  | [] => []
  | (name, n) :: rest => files (here ++ [name]) n ++ filesIn here rest

end

end Node

end AppAudit
