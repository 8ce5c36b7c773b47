/-
White space in the sense of Unicode, cutting texts to pieces, and filling them up.
-/

namespace AppAudit

/-- every character with the Unicode property White_Space -/
def isSpace (c : Char) : Bool :=
  let n := c.toNat
  (0x09 ≤ n && n ≤ 0x0d) || n = 0x20 || n = 0x85 || n = 0xa0 || n = 0x1680 || (0x2000 ≤ n && n ≤ 0x200a)
    || n = 0x2028 || n = 0x2029 || n = 0x202f || n = 0x205f || n = 0x3000

/-- without white space at the end -/
def trimSpaceEnd (s : List Char) : List Char := (s.reverse.dropWhile isSpace).reverse

/-- without white space at both ends -/
def trimSpace (s : List Char) : List Char := trimSpaceEnd (s.dropWhile isSpace)

/-- without an ending, if it has it -/
def dropEnding {α : Type} [DecidableEq α] (ending s : List α) : List α :=
  if ending.isSuffixOf s then s.take (s.length - ending.length) else s

/-- the text before the first occurrence of a character, and the text behind it; all of it and nothing without one -/
def cut (c : Char) (s : List Char) : List Char × List Char := (s.takeWhile (· ≠ c), (s.dropWhile (· ≠ c)).drop 1)

/-- parts separated by an element, empty ones included -/
def splitAt {α : Type} [DecidableEq α] (c : α) : List α → List (List α)
  | [] => [[]]
  | d :: s =>
    match splitAt c s with
    | [] => [[d]]
    | part :: parts => if d = c then [] :: part :: parts else (d :: part) :: parts

/-- the text filled up with blanks -/
def padRight (width : Nat) (s : String) : String := s ++ String.ofList (List.replicate (width - s.length) ' ')

end AppAudit
