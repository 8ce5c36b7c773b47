/-
JSON documents: a value type and its two written forms, compact and indented by two blanks.

Members keep the order in which they are given. Besides what the grammar demands, the angle brackets, the ampersand and
the two Unicode line separators are escaped, so that a document can stand inside markup or a script.
-/
import AppAudit.Text.Raw

namespace AppAudit

inductive Json where
  | null
  | bool (b : Bool)
  | num (n : Int)
  | str (s : String)
  /-- a string with bytes that belong to no character -/
  | raw (s : RawText)
  | arr (items : List Json)
  | obj (members : List (String × Json))

namespace Json

/-! ## Strings -/

/-- characters written by their code: controls, markup and the line separators -/
def needsCode (c : Char) : Bool :=
  c.toNat < 0x20 || ['<', '>', '&', '\u2028', '\u2029'].contains c

/-- one character inside a string -/
def escapeChar (c : Char) : List Char :=
  if c = '"' then ['\\', '"']
  else if c = '\\' then ['\\', '\\']
  else if c = '\x08' then ['\\', 'b']
  else if c = '\x0c' then ['\\', 'f']
  else if c = '\n' then ['\\', 'n']
  else if c = '\x0d' then ['\\', 'r']
  else if c = '\t' then ['\\', 't']
  else if needsCode c then '\\' :: 'u' :: hexDigits 4 c.toNat
  else [c]

/-- a string in quotes -/
def quoteChars (s : List Char) : List Char := '"' :: (s.flatMap escapeChar ++ ['"'])

def quote (s : String) : String := String.ofList (quoteChars s.toList)

/-- one letter inside a string; a byte that belongs to no character is written by the code of the unknown one -/
def escapeLetter : Utf8.Letter → List Char
  | .char c => escapeChar c
  | .stray _ => '\\' :: 'u' :: hexDigits 4 Utf8.replacement.toNat

def quoteRaw (s : RawText) : String := String.ofList ('"' :: (s.letters.flatMap escapeLetter ++ ['"']))

/-! ## Compact form -/

mutual

/-- the value without any blank -/
def compact : Json → String
  | null => "null"
  | bool b => if b then "true" else "false"
  | num n => toString n
  | str s => quote s
  | raw s => quoteRaw s
  | arr items => "[" ++ ",".intercalate (compactItems items) ++ "]"
  | obj members => "\x7b" ++ ",".intercalate (compactMembers members) ++ "\x7d"

def compactItems : List Json → List String
  | [] => []
  | j :: rest => compact j :: compactItems rest

def compactMembers : List (String × Json) → List String
  | [] => []
  | (k, j) :: rest => (quote k ++ ":" ++ compact j) :: compactMembers rest

end

/-! ## Indented form -/

/-- the line break before something at a depth -/
def newline (depth : Nat) : String := "\n" ++ String.ofList (List.replicate (2 * depth) ' ')

/-- parts on lines of their own between two brackets; nothing stands between the brackets when there are none -/
def block (opening closing : String) (depth : Nat) (parts : List String) : String :=
  if parts.isEmpty then opening ++ closing
  else
    opening ++ newline (depth + 1) ++ ("," ++ newline (depth + 1)).intercalate parts ++ newline depth ++ closing

mutual

/-- the value over several lines, as it stands at a depth -/
def indented (depth : Nat) : Json → String
  | null => "null"
  | bool b => if b then "true" else "false"
  | num n => toString n
  | str s => quote s
  | raw s => quoteRaw s
  | arr items => block "[" "]" depth (indentedItems (depth + 1) items)
  | obj members => block "\x7b" "\x7d" depth (indentedMembers (depth + 1) members)

def indentedItems (depth : Nat) : List Json → List String
  | [] => []
  | j :: rest => indented depth j :: indentedItems depth rest

def indentedMembers (depth : Nat) : List (String × Json) → List String
  | [] => []
  | (k, j) :: rest => (quote k ++ ": " ++ indented depth j) :: indentedMembers depth rest

end

/-- the document over several lines -/
def pretty (j : Json) : String := indented 0 j

end Json

end AppAudit
