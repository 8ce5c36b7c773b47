/-
Reading URLs: scheme, host and path.

The fragment and the query are cut off first, and control characters refused. What follows a scheme without a slash is
opaque and has neither host nor path. Without a scheme the first part of the path may not contain a colon, which would
look like one. An authority stands between two slashes and the next one: user information up to its last `@`, then the
host, perhaps with a number. Escapes are decoded in the path, and checked in the user information and in the fragment. A
host with escapes is refused, whatever it stands for.
-/
import AppAudit.Text.Hex
import AppAudit.Text.Raw

namespace AppAudit

structure Url where
  /-- empty when there is none -/
  scheme : List Char
  /-- with its number, without user information -/
  host : List Char
  /-- with escapes decoded -/
  path : RawText
deriving DecidableEq, Repr

namespace Url

/-! ## Characters -/

def isControl (c : Char) : Bool := c.toNat < 0x20 || c.toNat = 0x7f

def isSchemeChar (c : Char) : Bool := c.isAlphanum || c = '+' || c = '-' || c = '.'

def isUserChar (c : Char) : Bool := c.isAlphanum || "-._:~!$&'()*+,;=%@".toList.contains c

def isHostChar (c : Char) : Bool :=
  0x80 ≤ c.toNat || c.isAlphanum || "!$&'()*+,;=:[]<>\"-_.~".toList.contains c

/-! ## Parts -/

/-- the bytes of a text with its escapes decoded; none with a malformed escape -/
def unescape? : List Char → Option (List UInt8)
  | [] => some []
  | '%' :: a :: b :: rest =>
    match hexByte? a b, unescape? rest with
    | some x, some bytes => some (x :: bytes)
    | _, _ => none
  | c :: rest => if c = '%' then none else (unescape? rest).map (String.utf8EncodeChar c ++ ·)

/-- scheme and rest; no scheme is empty, and a colon at the very start is refused -/
def splitScheme? (s : List Char) : Option (List Char × List Char) :=
  match s.takeWhile isSchemeChar, s.dropWhile isSchemeChar with
  | [], ':' :: _ => none
  | c :: scheme, ':' :: rest => some (if c.isAlpha then (c :: scheme, rest) else ([], s))
  | _, _ => some ([], s)

/-- nothing, or a colon and digits -/
def isHostNumber : List Char → Bool
  | [] => true
  | c :: digits => c = ':' && digits.all Char.isDigit

/-- the text from the last occurrence of a character on; nothing without one -/
def fromLast (c : Char) (s : List Char) : List Char :=
  if s.contains c then c :: (s.reverse.takeWhile (· ≠ c)).reverse else []

def isHost (host : List Char) : Bool :=
  host.all isHostChar &&
    if host.head? = some '[' then host.contains ']' && isHostNumber ((fromLast ']' host).drop 1)
    else isHostNumber (fromLast ':' host)

/-- the host of an authority -/
def authorityHost? (authority : List Char) : Option (List Char) :=
  if authority.contains '@' then
    let host := (fromLast '@' authority).drop 1
    let user := authority.take (authority.length - host.length - 1)
    if isHost host && user.all isUserChar && (unescape? user).isSome then some host else none
  else if isHost authority then some authority else none

/-! ## The whole -/

/-- a path decoded, with what stands before it -/
def withPath? (scheme host path : List Char) : Option Url :=
  (unescape? path).map fun bytes => { scheme, host, path := .ofBytes bytes }

/-- reads what follows the scheme, without query and fragment -/
def readRest? (scheme rest : List Char) : Option Url :=
  match rest with
  | '/' :: '/' :: more =>
    if scheme.isEmpty && more.head? = some '/' then withPath? scheme [] rest
    else
      (authorityHost? (more.takeWhile (· ≠ '/'))).bind fun host =>
        withPath? scheme host (more.dropWhile (· ≠ '/'))
  | '/' :: _ => withPath? scheme [] rest
  | _ =>
    if !scheme.isEmpty then some { scheme, host := [], path := {} }
    else if (rest.takeWhile (· ≠ '/')).contains ':' then none
    else withPath? scheme [] rest

/-- reads a URL; none when it is malformed -/
def read? (s : List Char) : Option Url :=
  let (main, fragment) := cut '#' s
  if main.any isControl || (unescape? fragment).isNone then none
  else if main = ['*'] then some { scheme := [], host := [], path := .ofChars main }
  else
    match splitScheme? main with
    | none => none
    | some (scheme, rest) => readRest? scheme (cut '?' rest).1

end Url

end AppAudit
