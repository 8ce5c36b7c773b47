/-
Binary floating point with 53 significant bits, on whole numbers.

Every finite value of the format is a whole multiple of 2^-1074, so a value is its number of such units. Order and
difference are then those of the integers, and the only thing that is not exact is `nearest`: the representable number
of units closest to a quotient, a tie going to the even significand. A value from 2^1024 on does not exist and becomes
infinite.
-/

namespace AppAudit

/-- the quotient rounded to the nearest whole number, a half to the even neighbour -/
def roundDiv (n d : Nat) : Nat :=
  let q := n / d
  let r := n % d
  if 2 * r < d then q else if d < 2 * r then q + 1 else q + q % 2

/-- a binary64 value other than NaN; `finite u` is `u` times 2^-1074 -/
inductive Binary64 where
  | finite (units : Int)
  | infinite (negative : Bool)
deriving DecidableEq, Repr

namespace Binary64

/-- how many units make 1 -/
def one : Nat := Nat.pow 2 1074

/-- the first number of units that is out of range -/
def limit : Nat := Nat.pow 2 2098

/-- the quotient `n / d`, in units, rounded to 53 significant bits -/
def nearest (n d : Nat) : Nat :=
  let step := Nat.pow 2 (Nat.log2 (n / d) - 52)
  roundDiv n (d * step) * step

/-- a sign and a number of units as a value -/
def ofUnits (negative : Bool) (u : Nat) : Binary64 :=
  if u < limit then .finite (if negative then -(u : Int) else u) else .infinite negative

/-- the value closest to the fraction `n / d` -/
def ofRatio (n : Int) (d : Nat) : Binary64 := ofUnits (n < 0) (nearest (n.natAbs * one) d)

def ofNat (n : Nat) : Binary64 := ofRatio n 1

/-- how far two values are apart, rounded; infinite as soon as one of them is -/
def distance : Binary64 → Binary64 → Binary64
  | finite a, finite b => ofUnits false (nearest (a - b).natAbs 1)
  | _, _ => .infinite false

/-- the quotient of two positive finite values, rounded; infinite when it is out of range -/
def quotient : Binary64 → Binary64 → Binary64
  | finite a, finite b => ofUnits false (nearest (a.natAbs * one) b.natAbs)
  | _, _ => .infinite false

/-- strict order -/
def lt : Binary64 → Binary64 → Bool
  | finite a, finite b => a < b
  | finite _, infinite negative => !negative
  | infinite negative, finite _ => negative
  | infinite x, infinite y => x && !y

/-- where the exponent starts in the 64 bits -/
def exponentBit : Nat := Nat.pow 2 52

/-- the bit for the sign -/
def signBit : Nat := Nat.pow 2 63

/-- the 64 bits that store the value -/
def toBits : Binary64 → Nat
  | infinite negative => (if negative then signBit else 0) + 2047 * exponentBit
  | finite u =>
    let m := u.natAbs
    let sign := if u < 0 then signBit else 0
    if m < exponentBit then sign + m
    else
      let shift := Nat.log2 m - 52
      sign + (shift + 1) * exponentBit + (m / Nat.pow 2 shift - exponentBit)

end Binary64

end AppAudit
