/-
Positions in the text of a YAML stream.

A cursor stands before the rest of the text and knows its line, counted from one, its column and its index. Five characters
break lines; a carriage return and a line feed together break one line.

Text is loaded block by block, when more characters have to be looked at than are there; behind the end of the text each
attempt yields one more place to look at. Loading what is malformed makes the cursor fail for good. A cursor also
remembers whether a byte order mark stood where it last had to load something.
-/
import AppAudit.Yaml.Source

namespace AppAudit.Yaml

/-! ## Characters -/

def isBlank (c : Char) : Bool := c = ' ' || c = '\t'

def isBreak (c : Char) : Bool := c = '\n' || c = '\x0d' || c = '\u0085' || c = '\u2028' || c = '\u2029'

def isWordChar (c : Char) : Bool := c.isAlphanum || c = '_' || c = '-'

/-- stands at the start of a stream, or of the text that was loaded last -/
def byteOrderMark : Char := '\ufeff'

/-- whether the text is at its end or before a line break -/
def atBreak : List Char → Bool
  | [] => true
  | c :: _ => isBreak c

/-- whether the text is at its end or before a blank or a line break -/
def atGap : List Char → Bool
  | [] => true
  | c :: _ => isBlank c || isBreak c

/-! ## Cursors -/

structure Cursor where
  rest : List Char
  line : Nat := 1
  column : Nat := 0
  index : Nat := 0
  /-- how many characters the whole text has -/
  size : Nat
  /-- the index up to which the text has been loaded -/
  loaded : Nat := 0
  /-- the ends of the blocks that have not been loaded -/
  ends : List Nat
  /-- whether something malformed follows the text -/
  broken : Bool
  /-- whether a byte order mark stood here when something was loaded last -/
  marked : Bool := false
  /-- whether something malformed has been looked at -/
  failed : Bool := false
deriving DecidableEq, Repr

namespace Cursor

/-- before a text -/
def start (s : Source) : Cursor := { rest := s.text, size := s.text.length, ends := s.ends, broken := s.broken }

/-! ## Loading -/

/-- loads blocks up to an index; behind the last one there is one place more -/
def loadTo (wanted loaded : Nat) : (ends : List Nat) → Nat × List Nat
  | [] => (loaded + 1, [])
  | e :: later => if wanted ≤ e then (e, later) else loadTo wanted e later

/-- makes sure that some characters can be looked at -/
def load (c : Cursor) (n : Nat) : Cursor :=
  if c.index + n ≤ c.loaded then c
  else if c.broken && c.size < c.index + n then { c with failed := true }
  else
    let (loaded, ends) := loadTo (c.index + n) c.loaded c.ends
    { c with loaded, ends, marked := c.rest.head? = some byteOrderMark }

/-! ## Moving -/

/-- behind some characters of the line -/
def skipMany (c : Cursor) (n : Nat) : Cursor :=
  { c with rest := c.rest.drop n, column := c.column + n, index := c.index + n }

/-- behind the next character of the line -/
def skip (c : Cursor) : Cursor := c.skipMany 1

/-- behind the line break -/
def skipBreak (c : Cursor) : Cursor :=
  let c := c.load 2
  let n := if ['\x0d', '\n'].isPrefixOf c.rest then 2 else 1
  { c.skipMany n with line := c.line + 1, column := 0 }

/-- the character that a line break counts as -/
def breakChar (c : Cursor) : Char :=
  match c.rest with
  | '\u2028' :: _ => '\u2028'
  | '\u2029' :: _ => '\u2029'
  | _ => '\n'

/-- goes on while characters of the line satisfy a test. `done` holds them, last one first. -/
def takeFrom (test : Char → Bool) : (done text : List Char) → Cursor → List Char × Cursor
  | done, [], c => (done.reverse, c)
  | done, d :: text, c => if test d then takeFrom test (d :: done) text (c.skip.load 1) else (done.reverse, c)

/-- the characters of the line that satisfy a test, and what follows -/
def takeWhile (c : Cursor) (test : Char → Bool) : List Char × Cursor := takeFrom test [] c.rest (c.load 1)

/-- behind all blanks of the line -/
def skipBlanks (c : Cursor) : Cursor := (c.takeWhile isBlank).2

/-- at the end of the line -/
def skipLineText (c : Cursor) : Cursor := (c.takeWhile fun d => !isBreak d).2

/-- behind blanks and a comment, at the end of the line -/
def skipComment (c : Cursor) : Cursor :=
  let c := c.skipBlanks
  if c.rest.head? = some '#' then c.skipLineText else c

/-- behind the line break at the end of the line; none elsewhere in a line -/
def endLine? (c : Cursor) : Option Cursor :=
  if !atBreak c.rest then none else if c.rest.isEmpty then some c else some c.skipBreak

/-! ## Marks -/

/-- whether the line starts with three given characters and nothing else -/
def atMark (c : Cursor) (mark : Char) : Bool :=
  c.column = 0 && [mark, mark, mark].isPrefixOf c.rest && atGap (c.rest.drop 3)

/-- whether a document starts or ends here -/
def atDocumentMark (c : Cursor) : Bool := c.atMark '-' || c.atMark '.'

end Cursor

end AppAudit.Yaml
