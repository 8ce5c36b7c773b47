/-
Text that may contain bytes which belong to no character.

Such a byte is shown as an unknown character, but quoting gives it away by its code.
-/
import AppAudit.Text.Quoted
import AppAudit.Text.Space
import AppAudit.Text.Utf8

namespace AppAudit

structure RawText where
  letters : List Utf8.Letter := []
deriving DecidableEq, Repr

namespace RawText

def ofChars (s : List Char) : RawText := ⟨s.map .char⟩

def ofString (s : String) : RawText := ofChars s.toList

def ofBytes (bytes : List UInt8) : RawText := ⟨Utf8.letters bytes⟩

def isEmpty (s : RawText) : Bool := s.letters.isEmpty

instance : Append RawText := ⟨fun s t => ⟨s.letters ++ t.letters⟩⟩

/-- the text, or another one if it is empty -/
def orElse (s default : RawText) : RawText := if s.isEmpty then default else s

/-! ## Characters -/

/-- the characters of the text; none when there are other bytes -/
def chars? (s : RawText) : Option (List Char) :=
  s.letters.mapM fun
    | .char c => some c
    | .stray _ => none

/-- the text with every byte that belongs to no character replaced -/
def shownChars (s : RawText) : List Char := s.letters.map Utf8.Letter.shown

def shown (s : RawText) : String := String.ofList s.shownChars

/-- one letter inside quotes -/
def quotedLetter : Utf8.Letter → List Char
  | .char c => quotedChar c
  | .stray b => '\\' :: 'x' :: hexDigits 2 b.toNat

/-- the text in quotes -/
def quoted (s : RawText) : String := String.ofList ('"' :: (s.letters.flatMap quotedLetter ++ ['"']))

/-! ## Parts -/

/-- how many bytes one letter takes -/
def letterSize : Utf8.Letter → Nat
  | .char c => (String.utf8EncodeChar c).length
  | .stray _ => 1

/-- how many bytes the text has -/
def byteCount (s : RawText) : Nat := s.letters.foldl (fun n l => n + letterSize l) 0

/-- without white space at both ends -/
def trim (s : RawText) : RawText :=
  let blank (l : Utf8.Letter) : Bool := isSpace l.shown
  ⟨((s.letters.dropWhile blank).reverse.dropWhile blank).reverse⟩

/-- parts separated by a character, empty ones included -/
def split (s : RawText) (c : Char) : List RawText := (splitAt (.char c) s.letters).map (⟨·⟩)

/-- parts put together, with a character between them -/
def join (c : Char) : List RawText → RawText
  | [] => {}
  | [s] => s
  | s :: rest => s ++ ofChars [c] ++ join c rest

/-- what follows a beginning; none for a text that begins otherwise -/
def after? (s : RawText) (start : String) : Option RawText :=
  let start := start.toList.map Utf8.Letter.char
  if start.isPrefixOf s.letters then some ⟨s.letters.drop start.length⟩ else none

/-- without an ending, if the text has it -/
def dropEnding (s : RawText) (ending : String) : RawText :=
  ⟨AppAudit.dropEnding (ending.toList.map .char) s.letters⟩

end RawText

end AppAudit
