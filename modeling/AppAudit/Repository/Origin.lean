/-
Where a repository comes from, by its settings.

The settings are taken over as a whole or not at all: rules for fetching, branches and one size have to be well-formed.
Addresses may be abbreviated; the longest abbreviation that fits is replaced by what it stands for. Several may be equally
long, and then it is open which of them counts.
-/
import AppAudit.Number.Decimal
import AppAudit.Repository.Settings
import AppAudit.Text.Space

namespace AppAudit.Setting

/-! ## Well-formed settings -/

/-- whether a rule for fetching is well-formed -/
def isRefspec (s : List Char) : Bool :=
  let (source, destination) := cut ':' s
  let stars (s : List Char) := s.count '*'
  s.count ':' = 1 && !destination.isEmpty && stars source = stars destination && stars source < 2

/-- characters that a branch name may contain -/
def isBranchChar (c : Char) : Bool := 0x20 < c.toNat && c.toNat ≠ 0x7f && !"~^:?*[\\".toList.contains c

/-- whether a part of a branch name is well-formed -/
def isBranchPart (s : List Char) : Bool :=
  let neighbours := s.zip (s.drop 1)
  !s.isEmpty && s.head? ≠ some '.' && s.head? ≠ some '-' && s ≠ ['@'] && !".lock".toList.isSuffixOf s
    && !neighbours.contains ('.', '.') && !neighbours.contains ('@', '\x7b') && s.all isBranchChar

/-- whether a branch name is well-formed -/
def isBranchName (s : List Char) : Bool := s.getLast? ≠ some '.' && (splitAt '/' s).all isBranchPart

/-- whether what is said about a branch can be taken over -/
def isUsableBranch (settings : List Setting) (name : List Char) : Bool :=
  let merge := last settings "branch" name "merge"
  let rebase := last settings "branch" name "rebase"
  isBranchName name && (merge.isEmpty || "refs/heads/".toList.isPrefixOf merge)
    && ["", "true", "interactive", "false"].contains (String.ofList rebase)

/-- whether a size is well-formed: nothing, or a number of 32 bits -/
def isWindow (s : List Char) : Bool := s.all Char.isDigit && natOfDigits s < Nat.pow 2 32

/-- whether the settings can be taken over; one that cannot spoils them all -/
def areUsable (settings : List Setting) : Bool :=
  isWindow (last settings "pack" [] "window")
    && (subgroups settings "branch").all (isUsableBranch settings)
    && (subgroups settings "remote").all fun name => (values settings "remote" name "fetch").all isRefspec

/-! ## Addresses -/

/-- `(base, insteadOf)`: addresses that start with `insteadOf` start with `base` instead -/
abbrev Replacement := List Char × List Char

def replacements (settings : List Setting) : List Replacement :=
  (subgroups settings "url").map fun base => (base, last settings "url" base "insteadof")

/-- the replacements for an address with the longest start -/
def longestFitting (rules : List Replacement) (address : List Char) : List Replacement :=
  let fitting := rules.filter fun r => r.2.isPrefixOf address
  fitting.filter fun r => fitting.all fun other => other.2.length ≤ r.2.length

/-- which of several replacements counts that fit equally well: its place among them, going around. Nothing settles that;
it may be any. -/
abbrev TieBreak := List Replacement → Nat

/-- the first one counts -/
def TieBreak.first : TieBreak := fun _ => 0

/-- the address after the replacement with the longest start, if there is one -/
def replaceStart (tie : TieBreak) (rules : List Replacement) (address : List Char) : List Char :=
  let longest := longestFitting rules address
  match longest[tie longest % longest.length]? with
  | some (base, start) => base ++ address.drop start.length
  | none => address

/-- the first address of the remote repository `origin`; one that is only written to comes last -/
def origin? (tie : TieBreak) (settings : List Setting) : Option (List Char) :=
  let addresses (key : String) := values settings "remote" "origin".toList key
  if areUsable settings then
    ((addresses "url" ++ addresses "pushurl").head?).map (replaceStart tie (replacements settings))
  else none

end AppAudit.Setting
