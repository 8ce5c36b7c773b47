/-
The settings of a repository: groups of keys with values, as they stand in its configuration file.

A group starts with its name in brackets, perhaps with a quoted subgroup. A line below it holds a key, and a value if an
equals sign follows. A value may be partly quoted, has a few escapes, and goes on behind a backslash at the end of a
line; blanks around it do not count. `;` and `#` start comments. Names of groups and keys do not distinguish case,
subgroups do. One malformed line spoils the whole file.
-/
import AppAudit.Text.Letter
import AppAudit.Text.Utf8

namespace AppAudit

/-- a key with its value, or the mere beginning of a group when there is no key -/
structure Setting where
  group : List Char
  subgroup : List Char
  key : List Char
  value : List Char
deriving DecidableEq, Repr

namespace Setting

def isBlank (c : Char) : Bool := c = ' ' || c = '\t' || c = '\x0d'

def isNameChar (c : Char) : Bool := isLetter c || isDecimalDigit c || c = '-'

def skipBlanks (s : List Char) : List Char := s.dropWhile isBlank

/-- whether nothing but a comment is left on the line -/
def atLineEnd : List Char → Bool
  | [] => true
  | c :: _ => c = '\n' || c = ';' || c = '#'

/-! ## Group headers -/

/-- a quoted subgroup from behind its opening quote on; only quotes and backslashes may be escaped -/
def subgroup? : List Char → Option (List Char × List Char)
  | [] => none
  | '"' :: rest => some ([], rest)
  | '\\' :: c :: rest =>
    if c = '\\' || c = '"' then (subgroup? rest).map fun (name, rest) => (c :: name, rest) else none
  | c :: rest => if c = '\n' || c = '\\' then none else (subgroup? rest).map fun (name, rest) => (c :: name, rest)

/-- the bracket that ends a header, and the end of its line -/
def headerEnd? (rest : List Char) : Option (List Char) :=
  match skipBlanks rest with
  | ']' :: rest => if atLineEnd (skipBlanks rest) then some rest else none
  | _ => none

/-- a header from behind its opening bracket on: group, subgroup and rest -/
def header? (s : List Char) : Option (List Char × List Char × List Char) :=
  let s := skipBlanks s
  let group := s.takeWhile isNameChar
  if !(group.head?.any isLetter) then none
  else
    match skipBlanks (s.dropWhile isNameChar) with
    | '"' :: rest =>
      match subgroup? rest with
      | some (sub, rest) => if sub.isEmpty then none else (headerEnd? rest).map fun rest => (group, sub, rest)
      | none => none
    | rest => (headerEnd? rest).map fun rest => (group, [], rest)

/-! ## Values -/

/-- the character that an escape stands for -/
def escaped? : Char → Option Char
  | '\\' => some '\\'
  | '"' => some '"'
  | 'n' => some '\n'
  | 't' => some '\t'
  | 'b' => some '\x08'
  | _ => none

/-- reads a value. `done` holds its characters so far and `blanks` the blanks behind them, last ones first; blanks count
only if something follows them. -/
def valueFrom? (inQuote : Bool) (done blanks : List Char) : List Char → Option (List Char × List Char)
  | [] => if inQuote then none else some (done.reverse, [])
  | '\\' :: '\x0d' :: '\n' :: rest => if inQuote then none else valueFrom? false (blanks ++ done) [] rest
  | '\\' :: '\x0d' :: c :: rest =>
    match if inQuote then none else escaped? c with
    | some e => valueFrom? inQuote (e :: blanks ++ done) [] rest
    | none => none
  | '\\' :: '\n' :: rest => if inQuote then none else valueFrom? false (blanks ++ done) [] rest
  | '\\' :: c :: rest =>
    match escaped? c with
    | some e => valueFrom? inQuote (e :: blanks ++ done) [] rest
    | none => none
  | c :: rest =>
    if c = '"' then valueFrom? (!inQuote) (blanks ++ done) [] rest
    else if c = '\x0d' then valueFrom? inQuote done blanks rest
    else if inQuote then
      if c = '\n' || c = '\\' then none else valueFrom? true (c :: blanks ++ done) [] rest
    else if atLineEnd (c :: rest) then some (done.reverse, c :: rest)
    else if c = '\\' then none
    else if isBlank c then valueFrom? false done (c :: blanks) rest
    else valueFrom? false (c :: blanks ++ done) [] rest

/-! ## Files -/

/-- a name without distinction of case. Two letters outside of ASCII count as letters inside of it. -/
def fold (s : List Char) : List Char :=
  s.map fun c => if c = '\u212a' then 'k' else if c = '\u017f' then 's' else c.toLower

/-- reads the settings from a place on, below the group at hand; `fuel` bounds the number of lines -/
def readFrom? : (fuel : Nat) → (group : Option (List Char × List Char)) → List Char → Option (List Setting)
  | 0, _, _ => none
  | fuel + 1, group, s =>
    match skipBlanks s with
    | [] => some []
    | '[' :: rest =>
      match header? rest with
      | none => none
      | some (name, sub, rest) =>
        let name := fold name
        (readFrom? fuel (some (name, sub)) rest).map (⟨name, sub, [], []⟩ :: ·)
    | c :: rest =>
      if c = '\n' then readFrom? fuel group rest
      else if c = ';' || c = '#' then readFrom? fuel group (rest.dropWhile (· ≠ '\n'))
      else if !isLetter c then none
      else
        match group with
        | none => none
        | some (name, sub) =>
          let key := fold ((c :: rest).takeWhile isNameChar)
          let rest := skipBlanks ((c :: rest).dropWhile isNameChar)
          if atLineEnd rest then (readFrom? fuel group rest).map (⟨name, sub, key, []⟩ :: ·)
          else
            match rest with
            | '=' :: rest =>
              match valueFrom? false [] [] (skipBlanks rest) with
              | some (value, rest) => (readFrom? fuel group rest).map (⟨name, sub, key, value⟩ :: ·)
              | none => none
            | _ => none

/-- the settings of a file; none when it is malformed -/
def read? (bytes : List UInt8) : Option (List Setting) :=
  let text := Utf8.decode bytes
  if Utf8.encode text ≠ bytes || text.contains '\x00' then none
  else readFrom? (2 * text.length + 1) none text

/-- the values of a key, in order -/
def values (settings : List Setting) (group : String) (subgroup : List Char) (key : String) : List (List Char) :=
  (settings.filter fun s => s.group = group.toList && s.subgroup = subgroup && s.key = key.toList).map (·.value)

/-- the last value of a key; empty without one -/
def last (settings : List Setting) (group : String) (subgroup : List Char) (key : String) : List Char :=
  (values settings group subgroup key).getLast?.getD []

/-- the subgroups of a group -/
def subgroups (settings : List Setting) (group : String) : List (List Char) :=
  ((settings.filter fun s => s.group = group.toList && !s.subgroup.isEmpty).map (·.subgroup)).eraseDups

end Setting

end AppAudit
