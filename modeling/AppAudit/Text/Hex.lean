/-
Hexadecimal digits.
-/

namespace AppAudit

/-- the value of a hexadecimal digit in either case -/
def hexValue? (c : Char) : Option Nat :=
  let n := c.toNat
  if 0x30 ≤ n && n ≤ 0x39 then some (n - 0x30)
  else if 0x41 ≤ n && n ≤ 0x46 then some (n - 0x37)
  else if 0x61 ≤ n && n ≤ 0x66 then some (n - 0x57)
  else none

/-- the byte written by two hexadecimal digits -/
def hexByte? (a b : Char) : Option UInt8 :=
  match hexValue? a, hexValue? b with
  | some x, some y => some (x * 16 + y).toUInt8
  | _, _ => none

end AppAudit
