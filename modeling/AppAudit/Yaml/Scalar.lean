/-
Scalars: single values as plain, quoted or block text.

A scalar may go on over several lines. In plain and quoted text the gap between two words that holds one line break counts
as a blank, and one with more line breaks counts as all of them but the first. Block text keeps its lines, or folds them
by the same rule where neither line starts with a blank. Text that has been read is kept with its last character first.
-/
import AppAudit.Text.Hex
import AppAudit.Yaml.Cursor

namespace AppAudit.Yaml

/-! ## Gaps -/

/-- what stands between two words: the blanks before the first line break, and all line breaks -/
structure Gap where
  blanks : List Char := []
  breaks : List Char := []
  /-- whether a line break has been passed, even one that does not count -/
  broken : Bool := false
deriving DecidableEq, Repr

namespace Gap

/-- what the gap contributes to the text. Behind an escaped line break (`joined`) all line breaks count. -/
def text (g : Gap) (joined : Bool) : List Char :=
  if !g.broken then g.blanks
  else if joined then g.breaks
  else
    match g.breaks with
    | ['\n'] => [' ']
    | '\n' :: more => more
    | breaks => breaks

/-- reads on in a gap. Behind a line break no tab may stand before the column `limit`. -/
def readFrom? (limit : Nat) : (fuel : Nat) → Gap → Cursor → Option (Gap × Cursor)
  | 0, g, c => some (g, c)
  | fuel + 1, g, c =>
    match c.rest with
    | [] => some (g, c)
    | d :: _ =>
      if isBlank d then
        if g.broken && d = '\t' && c.column < limit then none
        else readFrom? limit fuel (if g.broken then g else { g with blanks := g.blanks ++ [d] }) (c.skip.load 1)
      else if isBreak d then
        readFrom? limit fuel { blanks := [], breaks := g.breaks ++ [c.breakChar], broken := true } (c.skipBreak.load 1)
      else some (g, c)

/-- reads a gap up to the next word -/
def read? (limit : Nat) (g : Gap) (c : Cursor) : Option (Gap × Cursor) := readFrom? limit c.size g (c.load 1)

end Gap

/-! ## Plain text -/

/-- characters that end plain text between brackets -/
def isFlowChar (c : Char) : Bool := [',', '?', '[', ']', '\x7b', '\x7d'].contains c

/-- reads a word of plain text on top of `done` -/
def plainWord (inFlow : Bool) : (done text : List Char) → Cursor → List Char × Cursor
  | done, [], c => (done, c)
  | done, d :: text, c =>
    if isBlank d || isBreak d || (d = ':' && atGap text) || (inFlow && isFlowChar d) then (done, c)
    else plainWord inFlow (d :: done) text (c.skip.load 2)

/-- a scalar that has been read -/
structure Read where
  text : List Char
  /-- where the text goes on -/
  cursor : Cursor
  /-- whether a line break stands behind the last word -/
  broken : Bool := false

/-- reads on in plain text after `done`, with the gap at hand; words have to stand from column `indent` on -/
def plainFrom? (inFlow : Bool) (indent : Nat) : (fuel : Nat) → (done : List Char) → Gap → Cursor → Option Read
  | 0, done, g, c => some ⟨done.reverse, c, g.broken⟩
  | fuel + 1, done, g, c =>
    let c := c.load 4
    if c.atDocumentMark || c.rest.head? = some '#' then some ⟨done.reverse, c, g.broken⟩
    else
      let (word, next) := plainWord inFlow [] c.rest c
      let done := if word.isEmpty then done else word ++ (g.text false).reverse ++ done
      let g := if word.isEmpty then g else {}
      if next.rest.isEmpty || !atGap next.rest then some ⟨done.reverse, next, g.broken⟩
      else
        match Gap.read? indent g next with
        | none => none
        | some (g, c) =>
          if !inFlow && c.column < indent then some ⟨done.reverse, c, g.broken⟩
          else plainFrom? inFlow indent fuel done g c

/-- reads plain text -/
def plain? (inFlow : Bool) (indent : Nat) (c : Cursor) : Option Read :=
  plainFrom? inFlow indent (c.size + 1) [] {} c

/-! ## Quoted text -/

/-- what single characters behind a backslash stand for -/
def escapes : List (Char × Char) :=
  [('0', '\x00'), ('a', '\x07'), ('b', '\x08'), ('t', '\t'), ('\t', '\t'), ('n', '\n'), ('v', '\x0b'), ('f', '\x0c'),
   ('r', '\x0d'), ('e', '\x1b'), (' ', ' '), ('"', '"'), ('\'', '\''), ('\\', '\\'), ('N', '\u0085'), ('_', '\u00a0'),
   ('L', '\u2028'), ('P', '\u2029')]

/-- how many hexadecimal digits follow an escape -/
def codeLength : Char → Nat
  | 'x' => 2
  | 'u' => 4
  | 'U' => 8
  | _ => 0

/-- the character whose code is a number of hexadecimal digits at the start of a text -/
def codeChar? (length : Nat) (text : List Char) : Option Char :=
  if (text.take length).length < length then none
  else
    ((text.take length).mapM hexValue?).bind fun ds =>
      let n := ds.foldl (fun n d => n * 16 + d) 0
      if (0xd800 ≤ n && n < 0xe000) || 0x10ffff < n then none else some (Char.ofNat n)

/-- what a backslash and the character behind it start: the character that is meant, and what follows -/
def escape? (e : Char) (c : Cursor) : Option (Char × Cursor) :=
  let n := codeLength e
  let c := (c.skipMany 2).load n
  (if n = 0 then escapes.lookup e else codeChar? n c.rest).map fun x => (x, c.skipMany n)

/-- reads a word of quoted text on top of `done`: the text, whether an escaped line break ends it, and what follows -/
def quotedWord? (double : Bool) : (fuel : Nat) → (done : List Char) → Cursor → Option (List Char × Bool × Cursor)
  | 0, _, _ => none
  | fuel + 1, done, c =>
    match c.rest with
    | [] => some (done, false, c)
    | d :: rest =>
      if isBlank d || isBreak d then some (done, false, c)
      else if !double then
        if d ≠ '\'' then quotedWord? double fuel (d :: done) (c.skip.load 2)
        else if rest.head? = some '\'' then quotedWord? double fuel (d :: done) ((c.skipMany 2).load 2)
        else some (done, false, c)
      else if d = '"' then some (done, false, c)
      else if d ≠ '\\' then quotedWord? double fuel (d :: done) (c.skip.load 2)
      else
        match rest with
        | [] => none
        | e :: _ =>
          if isBreak e then some (done, true, (c.load 3).skip.skipBreak)
          else
            match escape? e c with
            | some (x, c) => quotedWord? double fuel (x :: done) (c.load 2)
            | none => none

/-- reads on in quoted text after `done` -/
def quotedFrom? (double : Bool) : (fuel : Nat) → (done : List Char) → Cursor → Option Read
  | 0, _, _ => none
  | fuel + 1, done, c =>
    let c := c.load 4
    if c.atDocumentMark then none
    else
      match quotedWord? double (c.size + 1) done c with
      | none => none
      | some (done, joined, c) =>
        let c := c.load 1
        if !joined && !atGap c.rest then some ⟨done.reverse, c.skip, false⟩
        else if c.rest.isEmpty then none
        else
          match Gap.read? 0 { broken := joined } c with
          | none => none
          | some (g, c) => quotedFrom? double fuel ((g.text joined).reverse ++ done) c

/-- reads quoted text from behind its opening quote on -/
def quoted? (double : Bool) (c : Cursor) : Option Read := quotedFrom? double (c.size + 1) [] c

/-! ## Block text -/

/-- what becomes of the line breaks at the end -/
inductive Chomp where
  | strip
  | clip
  | keep
deriving DecidableEq, Repr

/-- the indentation indicator at the start: nothing, or a digit other than zero -/
def increment? (c : Cursor) : Option (Nat × Cursor) :=
  let c := c.load 1
  match c.rest with
  | d :: _ => if d = '0' then none else if d.isDigit then some (d.toNat - '0'.toNat, c.skip) else some (0, c)
  | [] => some (0, c)

/-- the chomping indicator at the start -/
def chomp? (c : Cursor) : Option (Chomp × Cursor) :=
  match c.rest with
  | '+' :: _ => some (.keep, c.skip)
  | '-' :: _ => some (.strip, c.skip)
  | _ => none

/-- both indicators, in any order -/
def blockHeader? (c : Cursor) : Option (Chomp × Nat × Cursor) :=
  let c := c.load 1
  match chomp? c with
  | some (chomp, c) => (increment? c).map fun (n, c) => (chomp, n, c)
  | none =>
    match increment? c with
    | none => none
    | some (0, c) => some (.clip, 0, c)
    | some (n, c) =>
      let c := c.load 1
      match chomp? c with
      | some (chomp, c) => some (chomp, n, c)
      | none => some (.clip, n, c)

/-- goes on over spaces up to a column; zero is no limit -/
def indentFrom (indent : Nat) : (text : List Char) → Cursor → Cursor
  | [], c => c
  | d :: text, c =>
    if d = ' ' && (indent = 0 || c.column < indent) then indentFrom indent text (c.skip.load 1) else c

/-- reads empty lines and the indentation of the next one: their breaks, and the deepest column met. An indentation of
zero is not known yet. -/
def indentationFrom? (indent : Nat) : (fuel : Nat) → (breaks : List Char) → (deepest : Nat) → Cursor →
    Option (List Char × Nat × Cursor)
  | 0, breaks, deepest, c => some (breaks.reverse, deepest, c)
  | fuel + 1, breaks, deepest, c =>
    let c := indentFrom indent c.rest (c.load 1)
    let deepest := max deepest c.column
    match c.rest with
    | d :: _ =>
      if d = '\t' && (indent = 0 || c.column < indent) then none
      else if isBreak d then indentationFrom? indent fuel (c.breakChar :: breaks) deepest c.skipBreak
      else some (breaks.reverse, deepest, c)
    | [] => some (breaks.reverse, deepest, c)

def indentation? (indent : Nat) (c : Cursor) : Option (List Char × Nat × Cursor) :=
  indentationFrom? indent (c.size + 1) [] 0 c

/-- reads on in block text after `done`. `ended` holds the break of the line before, `breaks` those of empty lines, and
`blank` says whether the line before started with a blank. -/
def blockFrom? (literal : Bool) (indent : Nat) : (fuel : Nat) → (done ended breaks : List Char) → (blank : Bool) →
    Cursor → Option (List Char × List Char × List Char × Cursor)
  | 0, done, ended, breaks, _, c => some (done.reverse, ended, breaks, c)
  | fuel + 1, done, ended, breaks, blank, c =>
    if c.column ≠ indent || c.rest.isEmpty then some (done.reverse, ended, breaks, c)
    else
      let startsBlank := c.rest.head?.any isBlank
      let folded := !literal && !blank && !startsBlank && ended = ['\n']
      let done := breaks.reverse ++ (if folded then if breaks.isEmpty then [' '] else [] else ended) ++ done
      let (line, c) := c.takeWhile fun d => !isBreak d
      let (ended, c) := if c.rest.isEmpty then ([], c.load 2) else ([c.breakChar], c.skipBreak)
      match indentation? indent c with
      | none => none
      | some (breaks, _, c) => blockFrom? literal indent fuel (line.reverse ++ done) ended breaks startsBlank c

/-- reads block text from behind its indicator on; `outer` is the indentation of what it belongs to, plus one -/
def block? (literal : Bool) (outer : Nat) (c : Cursor) : Option Read :=
  match blockHeader? c with
  | none => none
  | some (chomp, increment, c) =>
    match c.skipComment.endLine? with
    | none => none
    | some c =>
      let given := if increment = 0 then 0 else max outer 1 - 1 + increment
      match indentation? given c with
      | none => none
      | some (breaks, deepest, c) =>
        let indent := if given = 0 then max (max deepest outer) 1 else given
        match blockFrom? literal indent (c.size + 1) [] [] breaks false c with
        | none => none
        | some (done, ended, breaks, c) =>
          let text := match chomp with
            | .strip => done
            | .clip => done ++ ended
            | .keep => done ++ ended ++ breaks
          some ⟨text, c, false⟩

end AppAudit.Yaml
