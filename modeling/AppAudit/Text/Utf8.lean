/-
Reading bytes as UTF-8 without ever failing.

The decoder is a machine that takes one byte at a time. Between characters it has nothing pending; inside one it knows
how many continuation bytes are owed, the bits so far, and which range the next byte must lie in (the ranges exclude
overlong forms, surrogates and code points beyond U+10FFFF). A byte outside that range ends the unfinished character:
one U+FFFD stands for all of it, and the byte is read afresh. So each maximal ill-formed part becomes exactly one
U+FFFD, and no byte is swallowed by a character it cannot belong to.
-/

namespace AppAudit.Utf8

/-- an unfinished character -/
structure Pending where
  /-- continuation bytes still owed, at least one -/
  owed : Nat
  /-- the bits read so far -/
  code : Nat
  /-- the range of the next byte -/
  lo : UInt8
  hi : UInt8
deriving DecidableEq, Repr

/-- stands for an ill-formed part -/
def replacement : Char := '\ufffd'

/-- a byte between characters: what it yields at once, and what it leaves pending -/
def start (b : UInt8) : List Char × Option Pending :=
  if b < 0x80 then ([Char.ofNat b.toNat], none)
  else if b < 0xc2 then ([replacement], none)
  else if b < 0xe0 then ([], some ⟨1, b.toNat - 0xc0, 0x80, 0xbf⟩)
  else if b < 0xf0 then
    ([], some ⟨2, b.toNat - 0xe0, if b = 0xe0 then 0xa0 else 0x80, if b = 0xed then 0x9f else 0xbf⟩)
  else if b < 0xf5 then
    ([], some ⟨3, b.toNat - 0xf0, if b = 0xf0 then 0x90 else 0x80, if b = 0xf4 then 0x8f else 0xbf⟩)
  else ([replacement], none)

/-- a byte in any state -/
def feed : Option Pending → UInt8 → List Char × Option Pending
  | none, b => start b
  | some p, b =>
    if p.lo ≤ b && b ≤ p.hi then
      let code := p.code * 64 + (b.toNat - 0x80)
      if p.owed ≤ 1 then ([Char.ofNat code], none) else ([], some ⟨p.owed - 1, code, 0x80, 0xbf⟩)
    else
      let (out, next) := start b
      (replacement :: out, next)

/-- decodes from a state on; `done` holds the characters so far, last one first -/
def decodeFrom : List Char → Option Pending → List UInt8 → List Char
  | done, none, [] => done.reverse
  | done, some _, [] => (replacement :: done).reverse
  | done, state, b :: bs =>
    let (out, next) := feed state b
    decodeFrom (out.reverse ++ done) next bs

/-- the text of a byte sequence, ill-formed parts replaced -/
def decode (bs : List UInt8) : List Char := decodeFrom [] none bs

/-- the bytes of a text -/
def encode (s : List Char) : List UInt8 := s.flatMap String.utf8EncodeChar

/-! ## Byte by byte -/

/-- how many bytes the character at the front takes; zero if there is none -/
def width (bs : List UInt8) : Nat :=
  ([1, 2, 3, 4].find? fun k => (decode (bs.take k)).length = 1 && encode (decode (bs.take k)) = bs.take k).getD 0

/-- a part of a byte sequence: a character, or a byte that belongs to none -/
inductive Letter where
  | char (c : Char)
  | stray (b : UInt8)
deriving DecidableEq, Repr

def Letter.shown : Letter → Char
  | char c => c
  | stray _ => replacement

/-- the characters of a byte sequence, and between them the bytes that belong to none -/
def letters : List UInt8 → List Letter
  | [] => []
  | b :: rest =>
    let w := width (b :: rest)
    (if w = 0 then [.stray b] else (decode ((b :: rest).take w)).map .char) ++ letters (rest.drop (w - 1))
termination_by bs => bs.length
decreasing_by
  simp only [List.length_drop, List.length_cons]
  omega

/-- the text of a byte sequence, each byte that belongs to no character replaced by itself -/
def decodeEach (bs : List UInt8) : List Char := (letters bs).map Letter.shown

end AppAudit.Utf8
