/-
Decimal notation: reading numbers out of text, and writing a value with two places.

A decimal is a whole coefficient times a power of ten, exactly as written; underscores may separate its digits. It becomes
a `Binary64` by one rounding; what is out of range is refused, what is too small becomes zero.
-/
import AppAudit.Number.Binary64
import AppAudit.Number.Word

namespace AppAudit

/-- the digits of a text as a whole number, most significant first -/
def natOfDigits (ds : List Char) : Nat := ds.foldl (fun n d => 10 * n + (d.toNat - '0'.toNat)) 0

/-- `coefficient` times ten to the `exponent` -/
structure Decimal where
  coefficient : Int
  exponent : Int
deriving DecidableEq, Repr

namespace Decimal

/-- an exponent that is this large takes no further digits -/
def exponentLimit : Nat := 10000

/-- the size of an exponent -/
def exponentOfDigits (ds : List Char) : Nat :=
  ds.foldl (fun n d => if n < exponentLimit then 10 * n + (d.toNat - '0'.toNat) else n) 0

/-- the exponent part: nothing, or `e` with a signed whole number -/
def readExponent : List Char → Option Int
  | [] => some 0
  | c :: s =>
    if c.toLower = 'e' then
      let (negative, ds) := takeSign s
      if ds.isEmpty || !ds.all Char.isDigit then none
      else
        let n : Int := exponentOfDigits ds
        some (if negative then -n else n)
    else none

/-- whether every underscore stands between two digits; `afterDigit` says whether the character before was one -/
def separated (afterDigit : Bool) : List Char → Bool
  | [] => true
  | '_' :: c :: rest => afterDigit && c.isDigit && separated true rest
  | c :: rest => c ≠ '_' && separated c.isDigit rest

/-- a number in decimal notation without underscores: a sign, digits with at most one point among them (at least one
digit), an exponent. Nothing else may stand in the text. -/
def readPlain? (s : List Char) : Option Decimal :=
  let (negative, s) := takeSign s
  let whole := s.takeWhile Char.isDigit
  let s := s.dropWhile Char.isDigit
  let (fraction, s) := match s with
    | '.' :: s => (s.takeWhile Char.isDigit, s.dropWhile Char.isDigit)
    | s => ([], s)
  if whole.isEmpty && fraction.isEmpty then none
  else
    (readExponent s).map fun e =>
      let n : Int := natOfDigits (whole ++ fraction)
      { coefficient := if negative then -n else n, exponent := e - fraction.length }

/-- a number in decimal notation -/
def read? (s : List Char) : Option Decimal := if separated false s then readPlain? (s.filter (· ≠ '_')) else none

/-- beyond this power of ten a coefficient other than zero is out of range, and this far below it vanishes -/
def reach : Int := 400

/-- the closest binary value, unless the number is out of range -/
def toBinary64? (d : Decimal) : Option Binary64 :=
  if d.coefficient = 0 then some (.finite 0)
  else if reach < d.exponent then none
  else if d.exponent + (Nat.log2 d.coefficient.natAbs : Int) < -(4 * reach) then some (.finite 0)
  else
    let v := match d.exponent with
      | .ofNat e => Binary64.ofRatio (d.coefficient * Nat.pow 10 e) 1
      | .negSucc e => Binary64.ofRatio d.coefficient (Nat.pow 10 (e + 1))
    match v with
    | .finite u => some (.finite u)
    | .infinite _ => none

end Decimal

/-- reads a decimal number as a binary value -/
def Binary64.read? (s : List Char) : Option Binary64 := (Decimal.read? s).bind Decimal.toBinary64?

/-- a value with two places after the point: its exact value rounded, a half to the even digit -/
def Binary64.toFixed2 : Binary64 → String
  | .infinite negative => if negative then "-Inf" else "+Inf"
  | .finite u =>
    let n := roundDiv (u.natAbs * 100) one
    let places := n % 100
    (if u < 0 then "-" else "") ++ toString (n / 100) ++ "." ++ (if places < 10 then "0" else "") ++ toString places

/-- a whole number written in digits only, as long as it fits a signed 64-bit word -/
def wholeNumber? (s : List Char) : Option Nat :=
  if s.isEmpty || !s.all Char.isDigit then none
  else
    let n := natOfDigits s
    if n < Word.signedLimit then some n else none

end AppAudit
