/-
The tokens of a YAML stream.

Besides what is written there are tokens for what indentation means: the start of a block of entries or keys, and its end.
A key on the line of its colon is recognised only at the colon, so the token that announces it is put in front of what has
been read since. Each level of brackets remembers one place where such a key may have started; the key has to end on the
same line and within 1024 characters. Where a line of a block cannot be anything but a key, a missing colon is an error.
Brackets and blocks have a greatest depth. An error ends the tokens with `malformed`; what was read before it still counts.
-/
import AppAudit.Yaml.Scalar

namespace AppAudit.Yaml

inductive TokenKind where
  | streamEnd
  | malformed
  | version (major minor : Nat)
  | tagHandle (handle start : List Char)
  | documentStart
  | documentEnd
  | sequenceStart
  | mappingStart
  | blockEnd
  | flowSequenceStart
  | flowSequenceEnd
  | flowMappingStart
  | flowMappingEnd
  | item
  | comma
  | key
  | value
  | alias (name : List Char)
  | anchor (name : List Char)
  | tag (handle suffix : List Char)
  | scalar (text : List Char) (plain : Bool)
deriving DecidableEq, Repr

structure Token where
  kind : TokenKind
  line : Nat
deriving DecidableEq, Repr

/-- a place where a key may have started -/
structure KeyStart where
  /-- whether nothing but a key may stand there -/
  required : Bool
  /-- how many tokens come before it -/
  position : Nat
  line : Nat
  column : Nat
  index : Nat
deriving DecidableEq, Repr

structure Scanner where
  cursor : Cursor
  /-- the indentation of the blocks around, plus one each, innermost first -/
  indents : List Nat := []
  /-- whether a key may start here -/
  keyAllowed : Bool := true
  /-- per level of brackets, innermost first -/
  keys : List (Option KeyStart) := [none]
  /-- last token first -/
  tokens : List Token := []
  /-- how many tokens there are -/
  count : Nat := 0

namespace Scanner

/-! ## Indentation and keys -/

/-- whether there are brackets around -/
def inFlow (s : Scanner) : Bool := !(s.keys.drop 1).isEmpty

/-- the indentation of the innermost block, plus one; zero outside of any -/
def indent (s : Scanner) : Nat := s.indents.head?.getD 0

def emit (s : Scanner) (kind : TokenKind) (line : Nat) : Scanner :=
  { s with tokens := ⟨kind, line⟩ :: s.tokens, count := s.count + 1 }

/-- puts a token in front of all but the first `position` ones -/
def insert (s : Scanner) (position : Nat) (kind : TokenKind) (line : Nat) : Scanner :=
  let later := s.count - position
  { s with tokens := s.tokens.take later ++ ⟨kind, line⟩ :: s.tokens.drop later, count := s.count + 1 }

/-- ends the innermost of some blocks while they are indented deeper than a level; levels are columns plus one -/
def unrollFrom (level : Nat) : List Nat → Scanner → Scanner
  | [], s => { s with indents := [] }
  | n :: outer, s =>
    if level < n then unrollFrom level outer (s.emit .blockEnd s.cursor.line) else { s with indents := n :: outer }

/-- ends the blocks that are indented deeper than a level, outside of brackets -/
def unroll (s : Scanner) (level : Nat) : Scanner := if s.inFlow then s else unrollFrom level s.indents s

/-- how many brackets, and how many blocks, may lie inside each other -/
def maxDepth : Nat := 10000

/-- starts a block at a column, if it is indented deeper than the one around it -/
def roll? (s : Scanner) (column position : Nat) (kind : TokenKind) (line : Nat) : Option Scanner :=
  if s.inFlow || column < s.indent then some s
  else if maxDepth ≤ s.indents.length then none
  else some { s.insert position kind line with indents := (column + 1) :: s.indents }

/-- gives up the key that may have started on this level -/
def dropKey? (s : Scanner) : Option Scanner :=
  match s.keys with
  | some k :: outer => if k.required then none else some { s with keys := none :: outer }
  | _ => some s

/-- remembers that a key may start here -/
def saveKey? (s : Scanner) : Option Scanner :=
  if !s.keyAllowed then some s
  else
    (s.dropKey?).map fun s =>
      let k : KeyStart :=
        { required := !s.inFlow && s.indent = s.cursor.column + 1
          position := s.count
          line := s.cursor.line, column := s.cursor.column, index := s.cursor.index }
      { s with keys := some k :: s.keys.drop 1 }

/-- how far a key may reach -/
def maxKeyLength : Nat := 1024

/-- whether a key that started somewhere may end here -/
def reaches (s : Scanner) (k : KeyStart) : Bool :=
  k.line = s.cursor.line && s.cursor.index ≤ k.index + maxKeyLength

/-! ## Single tokens -/

/-- a token of some characters -/
def mark (s : Scanner) (kind : TokenKind) (width : Nat) : Scanner :=
  { s.emit kind s.cursor.line with cursor := s.cursor.skipMany width }

def flowStart? (s : Scanner) (kind : TokenKind) : Option Scanner :=
  (s.saveKey?).bind fun s =>
    if maxDepth < s.keys.length then none else some { s.mark kind 1 with keys := none :: s.keys, keyAllowed := true }

def flowEnd? (s : Scanner) (kind : TokenKind) : Option Scanner :=
  (s.dropKey?).map fun s =>
    { s.mark kind 1 with keys := if s.inFlow then s.keys.drop 1 else s.keys, keyAllowed := false }

def comma? (s : Scanner) : Option Scanner := (s.dropKey?).map fun s => { s.mark .comma 1 with keyAllowed := true }

def item? (s : Scanner) : Option Scanner :=
  if !s.inFlow && !s.keyAllowed then none
  else
    ((s.roll? s.cursor.column s.count .sequenceStart s.cursor.line).bind dropKey?).map fun s =>
      { s.mark .item 1 with keyAllowed := true }

def key? (s : Scanner) : Option Scanner :=
  if !s.inFlow && !s.keyAllowed then none
  else
    ((s.roll? s.cursor.column s.count .mappingStart s.cursor.line).bind dropKey?).map fun s =>
      { s.mark .key 1 with keyAllowed := !s.inFlow }

/-- a colon behind a key that was announced by a question mark, or behind none -/
def valueAlone? (s : Scanner) : Option Scanner :=
  if !s.inFlow && !s.keyAllowed then none
  else
    (s.roll? s.cursor.column s.count .mappingStart s.cursor.line).map fun s =>
      { s.mark .value 1 with keyAllowed := !s.inFlow }

def value? (s : Scanner) : Option Scanner :=
  match s.keys with
  | some k :: outer =>
    if s.reaches k then
      ((s.insert k.position .key k.line).roll? k.column k.position .mappingStart k.line).map fun s =>
        { s.mark .value 1 with keys := none :: outer, keyAllowed := false }
    else if k.required then none
    else valueAlone? { s with keys := none :: outer }
  | _ => valueAlone? s

def documentMark? (s : Scanner) (kind : TokenKind) : Option Scanner :=
  ((s.unroll 0).dropKey?).map fun s => { s.mark kind 3 with keyAllowed := false }

def streamEnd? (s : Scanner) : Option Scanner :=
  ((s.unroll 0).dropKey?).map fun s => s.emit .streamEnd s.cursor.line

/-- a name behind `*` or `&` -/
def name? (s : Scanner) (kind : List Char → TokenKind) : Option Scanner :=
  (s.saveKey?).bind fun s =>
    let (name, c) := s.cursor.skip.takeWhile isWordChar
    let ended := atGap c.rest || c.rest.head?.any fun d => ['?', ':', ',', ']', '\x7d', '%', '@', '\x60'].contains d
    if name.isEmpty || !ended then none
    else some { s.emit (kind name) s.cursor.line with cursor := c, keyAllowed := false }

/-- a scalar that has been read from here on -/
def scalar (s : Scanner) (r : Read) (plain : Bool) : Scanner :=
  { s.emit (.scalar r.text plain) s.cursor.line with cursor := r.cursor, keyAllowed := r.broken }

def plainScalar? (s : Scanner) : Option Scanner :=
  (s.saveKey?).bind fun s => (plain? s.inFlow s.indent s.cursor).map fun r => s.scalar r true

def quotedScalar? (s : Scanner) (double : Bool) : Option Scanner :=
  (s.saveKey?).bind fun s => (quoted? double s.cursor.skip).map fun r => s.scalar r false

def blockScalar? (s : Scanner) (literal : Bool) : Option Scanner :=
  (s.dropKey?).bind fun s =>
    (block? literal s.indent s.cursor.skip).map fun r => { s.scalar r false with keyAllowed := true }

/-! ## Tags and directives -/

/-- characters of tags that are written as they are -/
def isTagChar (c : Char) : Bool := isWordChar c || ";/?:@&=+$.!~*'()[],%".toList.contains c

/-- an escaped byte -/
def octet? (c : Cursor) : Option (UInt8 × Cursor) :=
  let c := c.load 3
  match c.rest with
  | '%' :: a :: b :: _ => (hexByte? a b).map fun x => (x, c.skipMany 3)
  | _ => none

/-- escaped bytes that go on with a character, on top of `done` -/
def octets? : (owed : Nat) → (done : List UInt8) → Cursor → Option (List UInt8 × Cursor)
  | 0, done, c => some (done, c)
  | owed + 1, done, c =>
    match octet? c with
    | some (x, c) => if 0x80 ≤ x && x < 0xc0 then octets? owed (x :: done) c else none
    | none => none

/-- the escaped bytes of a character, on top of `done`. Only their first bits are checked. -/
def escaped? (done : List UInt8) (c : Cursor) : Option (List UInt8 × Cursor) :=
  match octet? c with
  | some (x, c) => if leadWidth x = 0 then none else octets? (leadWidth x - 1) (x :: done) c
  | none => none

/-- reads on in the bytes of a tag after `done`, which holds the last byte first -/
def tagBytesFrom? : (fuel : Nat) → (done : List UInt8) → Cursor → Option (List UInt8 × Cursor)
  | 0, _, _ => none
  | fuel + 1, done, c =>
    match c.rest with
    | [] => some (done, c)
    | d :: _ =>
      if d = '%' then
        match escaped? done c with
        | some (done, c) => tagBytesFrom? fuel done (c.load 1)
        | none => none
      else if isTagChar d then tagBytesFrom? fuel ((String.utf8EncodeChar d).reverse ++ done) (c.skip.load 1)
      else some (done, c)

/-- the text of a tag with its escapes decoded -/
def tagText? (c : Cursor) : Option (List Char × Cursor) :=
  (tagBytesFrom? (c.size + 1) [] (c.load 1)).map fun (bytes, c) => (Utf8.decodeEach bytes.reverse, c)

/-- a handle at the start: `!`, or a name between two of them -/
def tagHandle (c : Cursor) : List Char × Cursor :=
  let (name, after) := c.skip.takeWhile isWordChar
  if after.rest.head? = some '!' then ('!' :: name ++ ['!'], after.skip) else ('!' :: name, after)

/-- handle and suffix of a tag -/
def tagParts? (c : Cursor) : Option (List Char × List Char × Cursor) :=
  if c.rest[1]? = some '<' then
    match tagText? (c.skipMany 2) with
    | some (suffix, c) => if suffix.isEmpty || c.rest.head? ≠ some '>' then none else some ([], suffix, c.skip)
    | none => none
  else
    let (handle, c) := tagHandle c
    match tagText? c with
    | none => none
    | some (more, c) =>
      if 1 < handle.length && handle.getLast? = some '!' then if more.isEmpty then none else some (handle, more, c)
      else
        let suffix := handle.drop 1 ++ more
        if suffix.isEmpty then some ([], ['!'], c) else some (['!'], suffix, c)

def tag? (s : Scanner) : Option Scanner :=
  (s.saveKey?).bind fun s =>
    match tagParts? s.cursor with
    | some (handle, suffix, c) =>
      let c := c.load 1
      if atGap c.rest then some { s.emit (.tag handle suffix) s.cursor.line with cursor := c, keyAllowed := false }
      else none
    | none => none

/-- how many digits the numbers of a version may have -/
def maxVersionDigits : Nat := 2

/-- a number of a version -/
def versionNumber? (c : Cursor) : Option (Nat × Cursor) :=
  let (digits, c) := c.takeWhile Char.isDigit
  if digits.isEmpty || maxVersionDigits < digits.length then none
  else some (digits.foldl (fun n d => 10 * n + (d.toNat - '0'.toNat)) 0, c)

/-- the content of a directive for a version -/
def version? (c : Cursor) : Option (TokenKind × Cursor) :=
  match versionNumber? c.skipBlanks with
  | some (major, c) =>
    if c.rest.head? = some '.' then (versionNumber? c.skip).map fun (minor, c) => (.version major minor, c) else none
  | none => none

/-- the content of a directive for a handle -/
def handle? (c : Cursor) : Option (TokenKind × Cursor) :=
  let c := c.skipBlanks
  if c.rest.head? ≠ some '!' then none
  else
    let (handle, c) := tagHandle c
    let c := c.load 1
    if handle ≠ ['!'] && handle.getLast? ≠ some '!' then none
    else if !(c.rest.head?.any isBlank) then none
    else
      match tagText? c.skipBlanks with
      | some (start, c) =>
        let c := c.load 1
        if start.isEmpty || !atGap c.rest then none else some (.tagHandle handle start, c)
      | none => none

/-- the content of a directive with a name -/
def directiveContent? (name : List Char) (c : Cursor) : Option (TokenKind × Cursor) :=
  match String.ofList name with
  | "YAML" => version? c
  | "TAG" => handle? c
  | _ => none

def directive? (s : Scanner) : Option Scanner :=
  ((s.unroll 0).dropKey?).bind fun s =>
    let (name, c) := s.cursor.skip.takeWhile isWordChar
    if name.isEmpty || !atGap c.rest then none
    else
      match directiveContent? name c with
      | none => none
      | some (kind, c) =>
        (c.skipComment.endLine?).map fun c =>
          { s.emit kind s.cursor.line with cursor := c, keyAllowed := false }

/-! ## The whole stream -/

/-- goes on to the next token: blanks, comments and line breaks are passed over. Tabs are blanks only where no key may
start. If a byte order mark stood where text was loaded last, every line loses its first character. -/
def skipToToken : (fuel : Nat) → Scanner → Scanner
  | 0, s => s
  | fuel + 1, s =>
    let c := s.cursor.load 1
    let c := if c.column = 0 && c.marked then c.skip else c
    let c := (c.takeWhile fun d => d = ' ' || (d = '\t' && (s.inFlow || !s.keyAllowed))).2
    let c := if c.rest.head? = some '#' then c.skipLineText else c
    if c.rest.head?.any isBreak then
      skipToToken fuel { s with cursor := c.skipBreak, keyAllowed := s.keyAllowed || !s.inFlow }
    else { s with cursor := c }

/-- characters that start no plain text -/
def indicators : List Char :=
  ['-', '?', ':', ',', '[', ']', '\x7b', '\x7d', '#', '&', '*', '!', '|', '>', '\'', '"', '%', '@', '\x60']

/-- reads one token that starts here -/
def token? (s : Scanner) : Option Scanner :=
  let c := s.cursor
  match c.rest with
  | [] => s.streamEnd?
  | d :: rest =>
    if c.column = 0 && d = '%' then s.directive?
    else if c.atMark '-' then s.documentMark? .documentStart
    else if c.atMark '.' then s.documentMark? .documentEnd
    else
      match d with
      | '[' => s.flowStart? .flowSequenceStart
      | '\x7b' => s.flowStart? .flowMappingStart
      | ']' => s.flowEnd? .flowSequenceEnd
      | '\x7d' => s.flowEnd? .flowMappingEnd
      | ',' => s.comma?
      | '*' => s.name? .alias
      | '&' => s.name? .anchor
      | '!' => s.tag?
      | '\'' => s.quotedScalar? false
      | '"' => s.quotedScalar? true
      | _ =>
        if d = '-' && atGap rest then s.item?
        else if d = '?' && (s.inFlow || atGap rest) then s.key?
        else if d = ':' && (s.inFlow || atGap rest) then s.value?
        else if d = '|' && !s.inFlow then s.blockScalar? true
        else if d = '>' && !s.inFlow then s.blockScalar? false
        else if !(isBlank d || indicators.contains d) || d = '-' || (!s.inFlow && (d = '?' || d = ':')) then
          s.plainScalar?
        else none

/-- reads tokens up to the end or an error -/
def run : (fuel : Nat) → Scanner → List Token
  | 0, s => s.tokens.reverse
  | fuel + 1, s =>
    let s := skipToToken (s.cursor.size + 1) s
    let s := s.unroll (s.cursor.column + 1)
    let s := { s with cursor := s.cursor.load 4 }
    match s.token? with
    | none => (s.emit .malformed s.cursor.line).tokens.reverse
    | some next =>
      if next.cursor.failed then (s.emit .malformed s.cursor.line).tokens.reverse
      else if s.cursor.rest.isEmpty then next.tokens.reverse
      else run fuel next

end Scanner

/-- the tokens of a text -/
def tokens (source : Source) : List Token :=
  Scanner.run (source.text.length + 2) { cursor := Cursor.start source }

end AppAudit.Yaml
