/-
Base64 with padding: four characters for three bytes. Line breaks are passed over.
-/

namespace AppAudit.Base64

/-- the six bits that a character stands for -/
def sextet? (c : Char) : Option Nat :=
  let n := c.toNat
  if 'A' ≤ c && c ≤ 'Z' then some (n - 65)
  else if 'a' ≤ c && c ≤ 'z' then some (n - 71)
  else if '0' ≤ c && c ≤ '9' then some (n + 4)
  else if c = '+' then some 62
  else if c = '/' then some 63
  else none

/-- the bytes of groups of four characters; only the last group may be padded -/
def groups? : List Char → Option (List UInt8)
  | [] => some []
  | [a, b, '=', '='] =>
    match sextet? a, sextet? b with
    | some x, some y => some [(x * 4 + y / 16).toUInt8]
    | _, _ => none
  | [a, b, c, '='] =>
    match sextet? a, sextet? b, sextet? c with
    | some x, some y, some z =>
      let n := (x * 64 + y) * 64 + z
      some [(n / 1024).toUInt8, (n / 4).toUInt8]
    | _, _, _ => none
  | a :: b :: c :: d :: rest =>
    match sextet? a, sextet? b, sextet? c, sextet? d with
    | some x, some y, some z, some w =>
      let n := ((x * 64 + y) * 64 + z) * 64 + w
      (groups? rest).map fun bytes => (n / 65536).toUInt8 :: (n / 256).toUInt8 :: n.toUInt8 :: bytes
    | _, _, _, _ => none
  | _ => none

/-- the bytes of a text; none when it is malformed -/
def decode? (s : List Char) : Option (List UInt8) := groups? (s.filter fun c => c ≠ '\n' && c ≠ '\x0d')

end AppAudit.Base64
