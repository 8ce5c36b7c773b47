/-
Which scalars are points in time: a date, or a date with a time of day.

Month, day, hour, minute and second may be written with one digit. Behind `T` or `t` a time zone has to follow, behind
blanks there is none.
-/

namespace AppAudit.Yaml.Timestamp

/-- one or two digits as a number -/
def number? : List Char → Option (Nat × List Char)
  | a :: b :: rest =>
    let digit (c : Char) : Nat := c.toNat - '0'.toNat
    if !a.isDigit then none
    else if b.isDigit then some (10 * digit a + digit b, rest) else some (digit a, b :: rest)
  | [a] => if a.isDigit then some (a.toNat - '0'.toNat, []) else none
  | [] => none

/-- one or two digits below a limit -/
def below? (limit : Nat) (s : List Char) : Option (List Char) :=
  (number? s).bind fun (n, rest) => if n < limit then some rest else none

/-- what follows a character -/
def after? (c : Char) : List Char → Option (List Char)
  | d :: rest => if d = c then some rest else none
  | [] => none

def isLeap (year : Nat) : Bool := year % 4 = 0 && (year % 100 ≠ 0 || year % 400 = 0)

def daysIn (year month : Nat) : Nat :=
  if month = 2 then if isLeap year then 29 else 28 else if [4, 6, 9, 11].contains month then 30 else 31

/-- a date, and what follows it -/
def date? (s : List Char) : Option (List Char) :=
  let year := s.takeWhile Char.isDigit
  if year.length ≠ 4 then none
  else do
    let rest ← after? '-' (s.drop 4)
    let (month, rest) ← number? rest
    let rest ← after? '-' rest
    let (day, rest) ← number? rest
    let n := year.foldl (fun n d => 10 * n + (d.toNat - '0'.toNat)) 0
    if 1 ≤ month && month ≤ 12 && 1 ≤ day && day ≤ daysIn n month then some rest else none

/-- a fraction of a second, if there is one -/
def skipFraction : List Char → List Char
  | c :: d :: rest => if (c = '.' || c = ',') && d.isDigit then rest.dropWhile Char.isDigit else c :: d :: rest
  | s => s

/-- a time of day, and what follows it -/
def time? (s : List Char) : Option (List Char) := do
  let rest ← below? 24 s
  let rest ← after? ':' rest
  let rest ← below? 60 rest
  let rest ← after? ':' rest
  let rest ← below? 60 rest
  return skipFraction rest

/-- a time zone and nothing else -/
def isZone : List Char → Bool
  | ['Z'] => true
  | [sign, a, b, ':', c, d] =>
    (sign = '+' || sign = '-') && [a, b, c, d].all Char.isDigit
      && (number? [a, b]).any (·.1 ≤ 24) && (number? [c, d]).any (·.1 ≤ 60)
  | _ => false

/-- whether a text is a point in time -/
def accepts (s : List Char) : Bool :=
  match date? s with
  | none => false
  | some [] => true
  | some (c :: rest) =>
    if c = 'T' || c = 't' then (time? rest).any isZone
    else if c = ' ' then (time? (rest.dropWhile (· = ' '))).any List.isEmpty
    else false

end AppAudit.Yaml.Timestamp
