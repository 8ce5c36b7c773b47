/-
References of a repository: names for commits, kept in files of their own or in one packed file.

A reference holds a commit or the name of another reference. A file of its own comes first; else the packed file counts,
up to its first malformed line. The commit that is checked out is found by following names from `HEAD` on. A name with
bytes that belong to no character can stand in the packed file only.
-/
import AppAudit.Files.System
import AppAudit.Text.Hex
import AppAudit.Text.Raw

namespace AppAudit

/-- what a reference holds -/
inductive Ref where
  | symbolic (name : RawText)
  | commit (hash : List Char)
deriving DecidableEq, Repr

namespace Ref

/-! ## Texts -/

/-- bytes in a commit's identifier -/
def hashSize : Nat := 20

/-- the bytes written by pairs of hexadecimal digits, as far as there are any -/
def leadingBytes : List Char → List UInt8
  | a :: b :: rest =>
    match hexByte? a b with
    | some x => x :: leadingBytes rest
    | none => []
  | _ => []

/-- a commit's identifier in lower case; what is missing is zero -/
def hashOf (s : List Char) : List Char :=
  let bytes := (leadingBytes s).take hashSize
  (bytes ++ List.replicate (hashSize - bytes.length) 0).flatMap fun (x : UInt8) => hexDigits 2 x.toNat

/-- the reference that a text stands for -/
def ofText (s : RawText) : Ref :=
  match s.after? "ref: " with
  | some name => symbolic name
  | none => commit (hashOf s.shownChars)

/-- how many bytes a line of the packed file may have -/
def maxLine : Nat := 65535

/-- the reference with a name in the lines of a packed file; none behind a malformed line -/
def packed? (name : RawText) : List RawText → Option Ref
  | [] => none
  | line :: rest =>
    if maxLine < line.byteCount then none
    else
      let line := line.dropEnding "\x0d"
      if line.isEmpty || (line.after? "#").isSome || (line.after? "^").isSome then packed? name rest
      else
        match line.split ' ' with
        | [target, other] => if other = name then some (ofText target) else packed? name rest
        | _ => none

/-! ## Files -/

/-- the reference in a file of its own; an empty file holds the commit whose identifier is zero -/
def loose? (fs : FileSystem) (gitDir : List Char) (name : RawText) : Option Ref :=
  (name.chars?).bind fun name =>
    let path := Path.join (Path.split name)
    if (Path.names path).head? = some ['.', '.'] then none
    else
      match fs.readFile (Path.join [gitDir, path]) with
      | .ok bytes => some (ofText (RawText.ofBytes bytes).trim)
      | .error _ => none

/-- the reference in the packed file -/
def fromPacked? (fs : FileSystem) (gitDir : List Char) (name : RawText) : Option Ref :=
  match fs.readFile (Path.join [gitDir, "packed-refs".toList]) with
  | .ok bytes => packed? name ((RawText.ofBytes bytes).split '\n')
  | .error _ => none

/-- the reference with a name -/
def find? (fs : FileSystem) (gitDir : List Char) (name : RawText) : Option Ref :=
  match loose? fs gitDir name with
  | some r => some r
  | none => fromPacked? fs gitDir name

/-- how many names may be followed -/
def maxFollowed : Nat := 1025

/-- follows names up to a commit: the last name and the commit -/
def follow? (find : RawText → Option Ref) : (fuel : Nat) → (name : RawText) → Option (RawText × List Char)
  | fuel, name =>
    match find name, fuel with
    | none, _ => none
    | some (.commit hash), _ => some (name, hash)
    | some (.symbolic _), 0 => none
    | some (.symbolic next), fuel + 1 => follow? find fuel next

/-- where names start -/
def head : RawText := .ofString "HEAD"

/-- the branch that a reference name stands for; empty for other names. Only the first word counts, and where none
follows on the line, the last part of what comes before it is the branch. -/
def branch (name : RawText) : List Char :=
  match name.after? "refs/heads/" with
  | none => []
  | some rest =>
    let line := rest.shownChars.dropWhile fun c => isSpace c && c ≠ '\n'
    let word := line.takeWhile fun c => !isSpace c
    if word.isEmpty then "heads/".toList else word

end Ref

end AppAudit
