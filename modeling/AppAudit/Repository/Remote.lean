/-
From the address of a remote repository to the page that shows it.

The address is taken without surrounding white space and without a final `.git`. If it leads to one of the known hosts
and names an owner and a project there, the page is put together from these; otherwise the address itself is all there
is. On a host with nested groups, everything between the host and the project is the owner, and a part `-` ends the
project's path. A path that starts with such a part leaves no project, and the look-up breaks down.
-/
import AppAudit.Repository.Url

namespace AppAudit.Remote

/-- who owns a project, and where -/
structure Project where
  host : List Char
  owner : RawText
  name : RawText
deriving DecidableEq, Repr

/-- the path on a host with nested groups starts with `-`, so there is nothing that could be the project -/
structure Breakdown where
deriving DecidableEq, Repr

def Breakdown.text (_ : Breakdown) : String := "runtime error: slice bounds out of range [1:0]"

def dropGit (s : List Char) : List Char := dropEnding ".git".toList s

/-! ## Addresses -/

def isHostNameChar (c : Char) : Bool := c.isAlphanum || c = '-' || c = '_' || c = '.'

/-- the short form `git@HOST:PATH` spelled out as a URL -/
def spellOut (address : List Char) : List Char :=
  match address with
  | 'g' :: 'i' :: 't' :: '@' :: rest =>
    let host := rest.takeWhile isHostNameChar
    match rest.dropWhile isHostNameChar with
    | ':' :: path =>
      if host.isEmpty || path.contains '\n' then address else "git://".toList ++ host ++ '/' :: path
    | _ => address
  | _ => address

/-- the URL that an address stands for; an address without a scheme is taken for a web address -/
def url? (address : List Char) : Option Url :=
  let address := spellOut address
  (Url.read? address).bind fun u => if u.scheme.isEmpty then Url.read? ("https://".toList ++ address) else some u

/-! ## Known hosts -/

/-- owner and project from the second and third part of a path -/
def plainProject? (host : String) : List RawText → Option Project
  | _ :: owner :: name :: _ => some ⟨host.toList, owner, name.dropEnding ".git"⟩
  | _ => none

/-- owner and project from a path with nested groups -/
def nestedProject? (host : String) (parts : List RawText) : Except Breakdown (Option Project) :=
  if parts.length < 3 then .ok none
  else
    match (parts.takeWhile (· ≠ .ofString "-")).drop 1 with
    | [] => .error ⟨⟩
    | used => .ok (some ⟨host.toList, .join '/' used.dropLast, (used.getLast?.getD {}).dropEnding ".git"⟩)

/-- the project that a URL leads to, if its host is known -/
def project? (u : Url) : Except Breakdown (Option Project) :=
  let parts := u.path.split '/'
  match String.ofList u.host with
  | "github.com" => .ok (plainProject? "github.com" parts)
  | "api.github.com" =>
    .ok (if parts[1]? = some (.ofString "repos") then plainProject? "github.com" (parts.drop 1) else none)
  | "bitbucket.org" => .ok (plainProject? "bitbucket.org" parts)
  | "gitlab.com" => nestedProject? "gitlab.com" parts
  | _ => .ok none

/-- the page of a project -/
def Project.page (p : Project) : RawText :=
  .ofString "https://" ++ .join '/' [.ofChars p.host, p.owner, p.name]

/-! ## The page of a remote -/

/-- the address without white space around it and without a final `.git` -/
def trimmed (remote : List Char) : List Char := dropGit (trimSpace remote)

/-- the page that shows a remote repository, or its trimmed address -/
def webUrl (remote : List Char) : Except Breakdown RawText :=
  let address := trimmed remote
  match url? address with
  | none => .ok (.ofChars address)
  | some u =>
    match project? u with
    | .error e => .error e
    | .ok none => .ok (.ofChars address)
    | .ok (some p) => .ok (if p.owner.isEmpty || p.name.isEmpty then .ofChars address else p.page)

end AppAudit.Remote
