/-
Reading whole numbers in one of four bases.

`0x`, `0o` and `0b` in either case choose the base, and a leading zero means base eight. Underscores may separate digits,
also from the base. A number has to fit 64 bits; the first digit too many is reported even if the rest is no number.
-/
import AppAudit.Number.Word
import AppAudit.Text.Hex

namespace AppAudit

/-- why a text is no whole number -/
inductive IntegerError where
  | malformed
  | outOfRange
deriving DecidableEq, Repr

def IntegerError.text : IntegerError → String
  | malformed => "invalid syntax"
  | outOfRange => "value out of range"

namespace Integer

/-- the base that a number starts with, and its digits -/
def splitBase : List Char → Nat × List Char
  | '0' :: c :: d :: rest =>
    match c.toLower with
    | 'b' => (2, d :: rest)
    | 'o' => (8, d :: rest)
    | 'x' => (16, d :: rest)
    | _ => (8, c :: d :: rest)
  | '0' :: rest => (8, rest)
  | s => (10, s)

/-- whether every underscore stands between two digits; the base counts as a digit. `afterDigit` says whether the
character before was one. -/
def separated (afterDigit : Bool) : List Char → Bool
  | [] => true
  | '_' :: c :: rest => afterDigit && c ≠ '_' && separated true rest
  | '_' :: [] => false
  | _ :: rest => separated true rest

/-- whether the underscores of a number are where they may be -/
def separatorsOk : List Char → Bool
  | '0' :: c :: rest => if ['b', 'o', 'x'].contains c.toLower then separated true rest else separated true (c :: rest)
  | s => separated false s

/-- the value of digits in a base on top of `n`, as long as it is below `limit`; underscores are passed over -/
def digitsFrom (base limit n : Nat) : List Char → Except IntegerError Nat
  | [] => .ok n
  | '_' :: rest => digitsFrom base limit n rest
  | c :: rest =>
    match hexValue? c with
    | none => .error .malformed
    | some d =>
      if base ≤ d then .error .malformed
      else if limit ≤ n * base + d then .error .outOfRange
      else digitsFrom base limit (n * base + d) rest

/-- a size with a sign, in the range of signed 64 bits -/
def signed (negative : Bool) (n : Nat) : Except IntegerError Int :=
  if negative then if n ≤ Word.signedLimit then .ok (-(n : Int)) else .error .outOfRange
  else if n < Word.signedLimit then .ok n else .error .outOfRange

/-- a number without a sign, up to 64 bits -/
def readUnsigned (s : List Char) : Except IntegerError Nat :=
  if s.isEmpty then .error .malformed
  else
    let (base, digits) := splitBase s
    match digitsFrom base Word.limit 0 digits with
    | .error e => .error e
    | .ok n => if separatorsOk s then .ok n else .error .malformed

/-- a number with an optional sign, in the range of signed 64 bits -/
def read (s : List Char) : Except IntegerError Int :=
  let (negative, s) := takeSign s
  match readUnsigned s with
  | .error e => .error e
  | .ok n => signed negative n

/-- binary digits with an optional sign and no separators, in the range of signed 64 bits -/
def readBinary? (s : List Char) : Option Int :=
  let (negative, digits) := takeSign s
  if digits.isEmpty || digits.contains '_' then none
  else
    match digitsFrom 2 Word.limit 0 digits with
    | .error _ => none
    | .ok n => (signed negative n).toOption

end Integer

end AppAudit
