/-
Reading a configuration out of a YAML document.

Unknown keys are passed over, and a repeated key is read on top of what is there. Null empties what it is given for. A
value of the wrong type is noted and left out, and the reading goes on; all such mismatches are reported together. The
nodes that are visited are counted, with those inside of aliases apart: where too large a part of many visits comes from
aliases, the document is refused.
-/
import AppAudit.Config.Basic
import AppAudit.Yaml.Value

namespace AppAudit

/-- a value of the wrong type -/
structure Mismatch where
  line : Nat
  tag : List Char
  text : List Char
  expected : String
deriving DecidableEq, Repr

namespace Mismatch

/-- longer texts are cut -/
def maxShown : Nat := 10

def shownBytes : Nat := 7

/-- the first bytes of a text; each byte of a character that is cut apart counts as an unknown character -/
def firstBytes (n : Nat) : List Char → List Char
  | [] => []
  | c :: rest =>
    let size := (String.utf8EncodeChar c).length
    if size ≤ n then c :: firstBytes (n - size) rest else List.replicate n Utf8.replacement

/-- the text of a value as messages show it. Nothing sets it off behind the tag of a collection. -/
def shown (m : Mismatch) : List Char :=
  if m.tag = Yaml.standardTag "seq" || m.tag = Yaml.standardTag "map" then m.text
  else if maxShown < (Utf8.encode m.text).length then " \x60".toList ++ firstBytes shownBytes m.text ++ "...\x60".toList
  else " \x60".toList ++ m.text ++ ['\x60']

def message (m : Mismatch) : String :=
  "line " ++ toString m.line ++ ": cannot unmarshal " ++ String.ofList (Yaml.shortTag m.tag) ++ String.ofList m.shown
    ++ " into " ++ m.expected

end Mismatch

namespace Config

open Yaml

/-! ## Visits -/

/-- how often nodes have been visited, and how often inside of an alias -/
structure Visits where
  all : Nat := 0
  aliased : Nat := 0
deriving DecidableEq, Repr

namespace Visits

def add (v : Visits) (inAlias : Bool) : Visits :=
  { all := v.all + 1, aliased := if inAlias then v.aliased + 1 else v.aliased }

/-- up to so many visits any part may come from aliases -/
def freeVisits : Nat := 1000

/-- up to so many visits inside of aliases are always allowed -/
def freeAliased : Nat := 100

/-- up to so many visits 99 percent may come from aliases -/
def manyVisits : Nat := 400000

/-- from so many visits on only 10 percent may come from aliases -/
def mostVisits : Nat := 4000000

/-- how many of 100 times `mostVisits - manyVisits` visits may come from aliases: between both limits the part falls in a
straight line -/
def allowance (all : Nat) : Nat :=
  let range := mostVisits - manyVisits
  if all ≤ manyVisits then 99 * range
  else if mostVisits ≤ all then 10 * range
  else 99 * range - 89 * (all - manyVisits)

/-- whether too large a part comes from aliases -/
def excessive (v : Visits) : Bool :=
  freeAliased < v.aliased && freeVisits < v.all
    && allowance v.all * v.all < 100 * (mostVisits - manyVisits) * v.aliased

end Visits

/-! ## Scalars -/

/-- what reading knows: the named nodes, and the aliases it is inside of -/
structure Scope where
  named : List (Nat × Yaml.Node)
  inside : List Nat := []

/-- what has been met so far -/
structure Progress where
  visits : Visits := {}
  /-- last one first -/
  mismatches : List Mismatch := []

/-- reading fails as a whole, or goes on with what has been met -/
abbrev Reading := StateT Progress Option

/-- counts a visit -/
def count (scope : Scope) : Reading Unit := do
  let p ← get
  let visits := p.visits.add !scope.inside.isEmpty
  if visits.excessive then failure
  set { p with visits }

/-- visits a node, and the node that it stands for if it is an alias; fails inside of the alias itself -/
def visit (scope : Scope) (n : Yaml.Node) : Reading (Yaml.Node × Scope) := do
  count scope
  match n with
  | .alias place target =>
    if scope.inside.contains place then failure
    else
      match scope.named.lookup target with
      | some n =>
        let scope := { scope with inside := place :: scope.inside }
        count scope
        return (n, scope)
      | none => failure
  | n => return (n, scope)

def note (line : Nat) (tag text : List Char) (expected : String) : Reading Unit :=
  modify fun p => { p with mismatches := ⟨line, tag, text, expected⟩ :: p.mismatches }

/-- the tag and the value of a scalar -/
def scalarValue (tag : List Char) (implicit : Bool) (text : List Char) : Reading (List Char × Value) :=
  match resolve? tag implicit text with
  | some v => pure v
  | none => failure

/-- reads a visited scalar with a function; everything else is a mismatch -/
def convertScalar {α : Type} (expected : String) (old : α) (convert : Value → List Char → Option α) :
    Yaml.Node → Reading (α × Bool)
  | .scalar line tag implicit text => do
    let (kind, v) ← scalarValue tag implicit text
    match convert v text with
    | some a => return (a, true)
    | none =>
      note line kind text expected
      return (old, false)
  | .sequence line _ => do
    note line (standardTag "seq") [] expected
    return (old, false)
  | .mapping line _ => do
    note line (standardTag "map") [] expected
    return (old, false)
  | .alias _ _ => failure

/-- reads a scalar with a function; everything else is a mismatch -/
def scalarOf {α : Type} (expected : String) (old : α) (convert : Value → List Char → Option α)
    (scope : Scope) (n : Yaml.Node) : Reading (α × Bool) := do
  convertScalar expected old convert (← visit scope n).1

/-- any scalar as it is written; null is empty, and binary data is decoded -/
def textOf (v : Value) (text : List Char) : Option RawText :=
  match v with
  | .null => some {}
  | .binary bytes => some (.ofBytes bytes)
  | _ => some (.ofString (String.ofList text))

/-- the whole part of a number that is not above 2^63. What does not fit 64 bits becomes the lowest number that does. -/
def wholePart? : Binary64 → Option Int
  | .infinite negative => if negative then some (-(Word.signedLimit : Int)) else none
  | .finite u =>
    let n := Int.tdiv u Binary64.one
    if (Word.signedLimit : Int) * Binary64.one < u then none
    else some (if Word.holds n then n else -(Word.signedLimit : Int))

/-- a whole number, or the whole part of any number -/
def intOf (v : Value) (_text : List Char) : Option Int :=
  match v with
  | .null => some 0
  | .int n => if n < Word.signedLimit then some n else none
  | .float v => wholePart? v
  | _ => none

/-- whether a scalar unsets a truth value -/
def unsets (tag : List Char) (implicit : Bool) (text : List Char) : Bool :=
  tag = standardTag "null"
    || (tag.isEmpty && (text = "null".toList || text = ['~'] || (text.isEmpty && implicit)))

/-- a truth value that may be unset. Other spellings of null set it to false. -/
def flagOf (old : Option Bool) (scope : Scope) (n : Yaml.Node) : Reading (Option Bool) := do
  let (n, _) ← visit scope n
  let unset := match n with
    | .scalar _ tag implicit text => unsets tag implicit text
    | _ => false
  let convert (v : Value) (_ : List Char) : Option (Option Bool) :=
    match v with
    | .null => some (if unset then none else some false)
    | .bool b => some (some b)
    | _ => none
  return (← convertScalar (if unset then "*bool" else "bool") old convert n).1

/-! ## Records -/

/-- how the keys of a record are read on top of it -/
structure RecordType (α : Type) where
  name : String
  empty : α
  field : String → Option (α → Scope → Yaml.Node → Reading α)

/-- whether a key takes over the keys of other mappings -/
def isMerge : Yaml.Node → Bool
  | .scalar _ tag implicit text => text = ['<', '<'] && (implicit || tag = standardTag "merge")
  | _ => false

mutual

/-- reads pairs into a record -/
def pairsInto {α : Type} (t : RecordType α) (scope : Scope) : (fuel : Nat) → List (Yaml.Node × Yaml.Node) → α → Reading α
  | 0, _, _ => failure
  | _ + 1, [], a => pure a
  | fuel + 1, (k, v) :: rest, a => do
    if isMerge k then
      let a ← match v with
        | .sequence _ items => mergeAll t scope fuel items.reverse a
        | _ => mergeOne t scope fuel v a
      pairsInto t scope fuel rest a
    else
      let (name, good) ← scalarOf "string" {} textOf scope k
      match if good then t.field name.shown else none with
      | some read => pairsInto t scope fuel rest (← read a scope v)
      | none => pairsInto t scope fuel rest a

/-- reads the keys of another mapping, given as it is or by an alias -/
def mergeOne {α : Type} (t : RecordType α) (scope : Scope) : (fuel : Nat) → Yaml.Node → α → Reading α
  | 0, _, _ => failure
  | fuel + 1, n, a => do
    match ← visit scope n with
    | (.mapping _ pairs, scope) => pairsInto t scope fuel pairs a
    | _ => failure

def mergeAll {α : Type} (t : RecordType α) (scope : Scope) : (fuel : Nat) → List Yaml.Node → α → Reading α
  | 0, _, _ => failure
  | _ + 1, [], a => pure a
  | fuel + 1, n :: rest, a => do mergeAll t scope fuel rest (← mergeOne t scope fuel n a)

end

/-- reads a node into a record: a mapping key by key, null as the empty record -/
def recordInto {α : Type} (t : RecordType α) (fuel : Nat) (a : α) (scope : Scope) (n : Yaml.Node) : Reading α := do
  match ← visit scope n with
  | (.mapping _ pairs, scope) => pairsInto t scope fuel pairs a
  | (n, _) => return (← convertScalar t.name a (fun v _ => if v = .null then some t.empty else none) n).1

def loggerType : RecordType LoggerConfig where
  name := "config.Logger"
  empty := {}
  field
    | "level" => some fun c scope n => do
      return { c with level := (← scalarOf "string" c.level textOf scope n).1 }
    | "disable_time" => some fun c scope n => do return { c with disableTime := ← flagOf c.disableTime scope n }
    | "json_format" => some fun c scope n => do return { c with jsonFormat := ← flagOf c.jsonFormat scope n }
    | "include_location" => some fun c scope n => do
      return { c with includeLocation := ← flagOf c.includeLocation scope n }
    | _ => none

def auditType : RecordType AuditConfig where
  name := "config.Audit"
  empty := {}
  field
    | "threads" => some fun c scope n => do return { c with threads := (← scalarOf "int" c.threads intOf scope n).1 }
    | "format" => some fun c scope n => do
      return { c with format := (← scalarOf "string" c.format textOf scope n).1 }
    | _ => none

def configType (fuel : Nat) : RecordType Config where
  name := "config.Config"
  empty := {}
  field
    | "logger" => some fun c scope n => do return { c with logger := ← recordInto loggerType fuel c.logger scope n }
    | "audit" => some fun c scope n => do return { c with audit := ← recordInto auditType fuel c.audit scope n }
    | _ => none

/-! ## Documents -/

/-- why there is no configuration in a document -/
inductive ReadError where
  | malformed
  | mismatches (ms : List Mismatch)
deriving DecidableEq, Repr

def ReadError.text : ReadError → String
  | malformed => "yaml: malformed document"
  | mismatches ms => "yaml: unmarshal errors:" ++ String.join (ms.map fun m => "\n  " ++ m.message)

/-- the configuration in the bytes of a file, before defaults -/
def read (bytes : List UInt8) : Except ReadError Config :=
  match document? (tokens (source bytes)) with
  | none => .error .malformed
  | some none => .ok {}
  | some (some d) =>
    let fuel := (bytes.length + 2) * (bytes.length + 2)
    -- the document itself counts as visited
    match (recordInto (configType fuel) fuel {} { named := d.named } d.root).run { visits := { all := 1 } } with
    | none => .error .malformed
    | some (c, p) => if p.mismatches.isEmpty then .ok c else .error (.mismatches p.mismatches.reverse)

end Config

end AppAudit
