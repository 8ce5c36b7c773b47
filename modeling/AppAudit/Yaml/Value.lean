/-
What scalars mean.

A plain scalar without a tag is what it looks like: null, a truth value, a whole number, a binary floating point number,
a point in time, or else text. A tag for one of these kinds has to agree with that. Any other tag makes it text, except
for the one of binary data.
-/
import AppAudit.Number.Decimal
import AppAudit.Number.Integer
import AppAudit.Text.Base64
import AppAudit.Yaml.Node
import AppAudit.Yaml.Timestamp

namespace AppAudit.Yaml

inductive Value where
  | null
  | bool (b : Bool)
  | int (n : Int)
  | float (v : Binary64)
  | notANumber
  | timestamp
  | text (s : List Char)
  | binary (bytes : List UInt8)
deriving DecidableEq, Repr

/-! ## Tags -/

/-- what standard tags start with -/
def standardStart : List Char := "tag:yaml.org,2002:".toList

def standardTag (name : String) : List Char := standardStart ++ name.toList

/-- a tag as messages show it -/
def shortTag (tag : List Char) : List Char :=
  if standardStart.isPrefixOf tag then "!!".toList ++ tag.drop standardStart.length else tag

/-- the tag of what a value is -/
def Value.tag : Value → List Char
  | null => standardTag "null"
  | bool _ => standardTag "bool"
  | int _ => standardTag "int"
  | float _ | notANumber => standardTag "float"
  | timestamp => standardTag "timestamp"
  | text _ => standardTag "str"
  | binary _ => standardTag "binary"

/-! ## Plain scalars -/

/-- scalars with a meaning of their own -/
def words : List (List String × Value) :=
  [(["y", "Y", "yes", "Yes", "YES", "true", "True", "TRUE", "on", "On", "ON"], .bool true),
   (["n", "N", "no", "No", "NO", "false", "False", "FALSE", "off", "Off", "OFF"], .bool false),
   (["", "~", "null", "Null", "NULL"], .null),
   ([".nan", ".NaN", ".NAN"], .notANumber),
   ([".inf", ".Inf", ".INF", "+.inf", "+.Inf", "+.INF"], .float (.infinite false)),
   (["-.inf", "-.Inf", "-.INF"], .float (.infinite true))]

def word? (s : List Char) : Option Value := (words.find? fun w => w.1.contains (String.ofList s)).map (·.2)

/-- a binary number with a sign behind its base -/
def binary? : List Char → Option Int
  | '0' :: 'b' :: digits => Integer.readBinary? digits
  | '-' :: '0' :: 'b' :: digits => Integer.readBinary? ('-' :: digits)
  | _ => none

/-- a number, with underscores left out: whole if possible, otherwise rounded -/
def number? (s : List Char) : Option Value :=
  let s := s.filter (· ≠ '_')
  match Integer.read s, Integer.readUnsigned s with
  | .ok n, _ => some (.int n)
  | _, .ok n => some (.int n)
  | _, _ =>
    match Binary64.read? s with
    | some v => some (.float v)
    | none => (binary? s).map .int

/-- what a plain scalar is; `dated` allows for points in time -/
def plainValue (dated : Bool) (s : List Char) : Value :=
  match word? s with
  | some v => v
  | none =>
    match s with
    | [] => .null
    | c :: _ =>
      if c = '.' then ((Binary64.read? s).map .float).getD (.text s)
      else if c.isDigit || c = '+' || c = '-' then
        if dated && Timestamp.accepts s then .timestamp else (number? s).getD (.text s)
      else .text s

/-! ## Tagged scalars -/

/-- the value of a scalar that has to be of the kind that a tag names -/
def ofKind? (tag s : List Char) : Option Value :=
  let v := plainValue (tag = standardTag "timestamp") s
  if v.tag = tag then some v
  else
    match v with
    | .int n =>
      if tag = standardTag "float" && Word.holds n then some (.float (.ofRatio n 1)) else none
    | _ => none

/-- tag and value of a scalar; none when they do not agree -/
def resolve? (tag : List Char) (implicit : Bool) (s : List Char) : Option (List Char × Value) :=
  if tag.isEmpty then
    let v := if implicit then plainValue true s else .text s
    some (v.tag, v)
  else if tag = standardTag "str" then some (tag, .text s)
  else if ["bool", "int", "float", "null", "timestamp"].any fun k => tag = standardTag k then
    (ofKind? tag s).map fun v => (tag, v)
  else if tag = standardTag "binary" then (Base64.decode? s).map fun bytes => (tag, .binary bytes)
  else some (tag, .text s)

end AppAudit.Yaml
