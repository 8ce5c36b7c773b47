/-
The text of a YAML stream.

A stream is UTF-8, or UTF-16 behind a byte order mark. Control characters other than tabs and line breaks are refused. It
comes in blocks of bytes, and a character across the end of a block belongs to the next one. A block with anything
malformed in it counts as malformed from its start on, and nothing behind it is looked at.
-/
import AppAudit.Text.Utf8

namespace AppAudit.Yaml

/-! ## Characters -/

/-- characters that a stream may contain -/
def isAllowed (c : Char) : Bool :=
  let n := c.toNat
  n = 0x09 || n = 0x0a || n = 0x0d || (0x20 ≤ n && n ≤ 0x7e) || n = 0x85 || (0xa0 ≤ n && n ≤ 0xfffd) || 0x10000 ≤ n

/-- what bytes start with -/
inductive Lead where
  | char (c : Char) (width : Nat)
  /-- the bytes end inside of a character -/
  | incomplete
  | malformed
deriving DecidableEq, Repr

/-- how many bytes of UTF-8 a character takes that starts with a byte; zero if none does -/
def leadWidth (b : UInt8) : Nat :=
  if b < 0x80 then 1 else if b < 0xc0 then 0 else if b < 0xe0 then 2 else if b < 0xf0 then 3 else if b < 0xf8 then 4 else 0

/-- what UTF-8 bytes start with -/
def utf8Lead (bytes : List UInt8) : Lead :=
  match bytes with
  | [] => .incomplete
  | b :: _ =>
    let width := leadWidth b
    let bytes := bytes.take width
    if width = 0 then .malformed
    else if bytes.length < width then .incomplete
    else
      match Utf8.decode bytes with
      | [c] => if Utf8.encode [c] = bytes then .char c width else .malformed
      | _ => .malformed

/-- a unit of two bytes -/
def unit (bigEndian : Bool) (a b : UInt8) : Nat :=
  if bigEndian then a.toNat * 256 + b.toNat else b.toNat * 256 + a.toNat

/-- what UTF-16 bytes start with -/
def utf16Lead (bigEndian : Bool) : List UInt8 → Lead
  | a :: b :: rest =>
    let u := unit bigEndian a b
    if u < 0xd800 || 0xe000 ≤ u then .char (Char.ofNat u) 2
    else if 0xdc00 ≤ u then .malformed
    else
      match rest with
      | c :: d :: _ =>
        let v := unit bigEndian c d
        if 0xdc00 ≤ v && v < 0xe000 then .char (Char.ofNat (0x10000 + (u - 0xd800) * 0x400 + (v - 0xdc00))) 4
        else .malformed
      | _ => .incomplete
  | _ => .incomplete

/-! ## Blocks -/

/-- how many bytes a block has, with those left from the block before -/
def blockSize : Nat := 512

/-- the characters of a block, and the bytes that are left at its end; none when something in it is malformed or not
allowed. `done` holds the characters so far, last one first. -/
def blockText? (lead : List UInt8 → Lead) : (fuel : Nat) → (done : List Char) → List UInt8 →
    Option (List Char × List UInt8)
  | 0, done, bytes => some (done.reverse, bytes)
  | fuel + 1, done, bytes =>
    match lead bytes with
    | .incomplete => some (done.reverse, bytes)
    | .malformed => none
    | .char c width => if isAllowed c then blockText? lead fuel (c :: done) (bytes.drop width) else none

/-- a text in blocks -/
structure Source where
  text : List Char := []
  /-- how many characters there are up to the end of each block -/
  ends : List Nat := []
  /-- whether something malformed follows the text -/
  broken : Bool := false
deriving DecidableEq, Repr

/-- reads on behind `count` characters, with some bytes left from the block before and room for more of them -/
def sourceFrom (lead : List UInt8 → Lead) : (fuel : Nat) → (count : Nat) → (left : List UInt8) → (room : Nat) →
    List UInt8 → Source
  | 0, _, _, _, _ => { broken := true }
  | fuel + 1, count, left, room, bytes =>
    if bytes.isEmpty then { broken := !left.isEmpty }
    else
      match blockText? lead blockSize [] (left ++ bytes.take room) with
      | none => { broken := true }
      | some (text, left) =>
        let count := count + text.length
        let more := sourceFrom lead fuel count left (blockSize - left.length) (bytes.drop room)
        { text := text ++ more.text, ends := count :: more.ends, broken := more.broken }

/-- the text in the bytes of a stream -/
def source (bytes : List UInt8) : Source :=
  let fuel := bytes.length + 1
  match bytes with
  | 0xff :: 0xfe :: rest => sourceFrom (utf16Lead false) fuel 0 [] (blockSize - 2) rest
  | 0xfe :: 0xff :: rest => sourceFrom (utf16Lead true) fuel 0 [] (blockSize - 2) rest
  | 0xef :: 0xbb :: 0xbf :: rest => sourceFrom utf8Lead fuel 0 [] (blockSize - 3) rest
  | _ => sourceFrom utf8Lead fuel 0 [] blockSize bytes

end AppAudit.Yaml
