/-
The signs of numbers, and the range of those that fit words of 64 bits.
-/

namespace AppAudit

/-- whether a number is negative, and what follows its optional sign -/
def takeSign : List Char → Bool × List Char
  | '-' :: s => (true, s)
  | '+' :: s => (false, s)
  | s => (false, s)

namespace Word

/-- the first number that no word without a sign holds -/
def limit : Nat := Nat.pow 2 64

/-- the first number that no word with a sign holds; its negative is the lowest one that does -/
def signedLimit : Nat := Nat.pow 2 63

/-- whether a word with a sign holds a number -/
def holds (n : Int) : Bool := -(signedLimit : Int) ≤ n && n < signedLimit

end Word

end AppAudit
