/-
The nodes of a YAML document: scalars, sequences, mappings and aliases.

A node may be given a name by an anchor, and an alias stands for the node that had the name last. A node may lie inside
itself that way, so aliases do not hold their node but its number in a table of all named nodes. Only the first document
of a stream is read, up to the token that ends it. Content that is left out is an empty scalar, which means null.
-/
import AppAudit.Yaml.Token

namespace AppAudit.Yaml

inductive Node where
  /-- `implicit` says that the text decides what the scalar is: it is plain and has no tag, or the tag `!` -/
  | scalar (line : Nat) (tag : List Char) (implicit : Bool) (text : List Char)
  | sequence (line : Nat) (items : List Node)
  | mapping (line : Nat) (pairs : List (Node × Node))
  /-- `place` tells aliases apart, `target` is the number of the named node -/
  | alias (place target : Nat)

/-- the root of a document and its named nodes by number -/
structure Document where
  root : Node
  named : List (Nat × Node)

/-- what is known while a document is read -/
structure Composer where
  tokens : List Token
  /-- starts of tags by their handles -/
  handles : List (List Char × List Char) := []
  /-- the numbers of names, latest first -/
  anchors : List (List Char × Nat) := []
  named : List (Nat × Node) := []
  /-- how many aliases and names there have been -/
  count : Nat := 0

/-- reading fails as a whole, or goes on with what is known then -/
abbrev Compose := StateT Composer Option

namespace Compose

/-! ## Tokens -/

/-- the next token -/
def peek : Compose Token := do
  match (← get).tokens with
  | t :: _ => pure t
  | [] => failure

def advance : Compose Unit := modify fun s => { s with tokens := s.tokens.drop 1 }

/-- whether the next token is one of some kinds -/
def next (kinds : List TokenKind) : Compose Bool := do return kinds.contains (← peek).kind

/-- passes a token over, if it is of a kind -/
def accept (kind : TokenKind) : Compose Bool := do
  if ← next [kind] then
    advance
    return true
  else return false

def empty : Compose Node := do return .scalar (← peek).line [] true []

/-! ## Names and tags -/

def fresh : Compose Nat := modifyGet fun s => (s.count, { s with count := s.count + 1 })

/-- gives the node that follows a number under a name -/
def declare (name : List Char) : Compose Nat := do
  let number ← fresh
  modify fun s => { s with anchors := (name, number) :: s.anchors }
  return number

/-- enters a node into the table -/
def enter (number? : Option Nat) (n : Node) : Compose Node := do
  if let some number := number? then modify fun s => { s with named := (number, n) :: s.named }
  return n

def aliasNode (name : List Char) : Compose Node := do
  match (← get).anchors.lookup name with
  | some target => return .alias (← fresh) target
  | none => failure

/-- the tag with a handle and a suffix -/
def tagOf (handle suffix : List Char) : Compose (List Char) := do
  if handle.isEmpty then return suffix
  match (← get).handles.lookup handle with
  | some start => return start ++ suffix
  | none => failure

/-- what may stand before a node: a name and a tag, in any order -/
structure Properties where
  number? : Option Nat := none
  tag : List Char := []
  /-- where they start -/
  line? : Option Nat := none

def anchorProperty (p : Properties) : Compose Properties := do
  let t ← peek
  match t.kind with
  | .anchor name =>
    advance
    return { p with number? := some (← declare name), line? := some (p.line?.getD t.line) }
  | _ => return p

def tagProperty (p : Properties) : Compose Properties := do
  let t ← peek
  match t.kind with
  | .tag handle suffix =>
    advance
    return { p with tag := ← tagOf handle suffix, line? := some (p.line?.getD t.line) }
  | _ => return p

def properties : Compose Properties := do
  let p ← anchorProperty {}
  let p ← tagProperty p
  if p.number?.isSome then return p else anchorProperty p

/-! ## Nodes -/

mutual

/-- a node. Blocks are nodes only outside of brackets (`block`), and the value of a key may be a sequence that is not
indented (`indentless`). -/
def node (block indentless : Bool) : (fuel : Nat) → Compose Node
  | 0 => failure
  | fuel + 1 => do
    if let .alias name := (← peek).kind then
      advance
      return ← aliasNode name
    let p ← properties
    let t ← peek
    let line := p.line?.getD t.line
    match t.kind with
    | .scalar text plain =>
      advance
      enter p.number? (.scalar line p.tag (p.tag = ['!'] || (p.tag.isEmpty && plain)) text)
    | .flowSequenceStart =>
      advance
      enter p.number? (.sequence line (← flowItems true fuel))
    | .flowMappingStart =>
      advance
      enter p.number? (.mapping line (← flowPairs true fuel))
    | kind =>
      if indentless && kind = .item then enter p.number? (.sequence line (← indentlessItems fuel))
      else if block && kind = .sequenceStart then
        advance
        enter p.number? (.sequence line (← blockItems fuel))
      else if block && kind = .mappingStart then
        advance
        enter p.number? (.mapping line (← blockPairs fuel))
      else if p.line?.isSome then enter p.number? (.scalar line p.tag p.tag.isEmpty [])
      else failure

/-- a node, unless one of some tokens follows -/
def nodeOr (kinds : List TokenKind) (block indentless : Bool) (fuel : Nat) : Compose Node :=
  match fuel with
  | 0 => failure
  | fuel + 1 => do if ← next kinds then empty else node block indentless fuel

def blockItems : (fuel : Nat) → Compose (List Node)
  | 0 => failure
  | fuel + 1 => do
    if ← accept .blockEnd then return []
    if ← accept .item then
      let n ← nodeOr [.item, .blockEnd] true false fuel
      return n :: (← blockItems fuel)
    failure

def indentlessItems : (fuel : Nat) → Compose (List Node)
  | 0 => failure
  | fuel + 1 => do
    if ← accept .item then
      let n ← nodeOr [.item, .key, .value, .blockEnd] true false fuel
      return n :: (← indentlessItems fuel)
    return []

def blockPairs : (fuel : Nat) → Compose (List (Node × Node))
  | 0 => failure
  | fuel + 1 => do
    if ← accept .blockEnd then return []
    if ← accept .key then
      let k ← nodeOr [.key, .value, .blockEnd] true true fuel
      let v ← if ← accept .value then nodeOr [.key, .value, .blockEnd] true true fuel else empty
      return (k, v) :: (← blockPairs fuel)
    failure

/-- the items between brackets; a pair with a key is a mapping of its own -/
def flowItems (first : Bool) : (fuel : Nat) → Compose (List Node)
  | 0 => failure
  | fuel + 1 => do
    if ← accept .flowSequenceEnd then return []
    unless first do
      unless ← accept .comma do failure
      if ← accept .flowSequenceEnd then return []
    let line := (← peek).line
    if ← accept .key then
      let k ← if ← next [.value, .comma, .flowSequenceEnd] then do
          let k ← empty
          advance
          pure k
        else node false false fuel
      let v ← if ← accept .value then nodeOr [.comma, .flowSequenceEnd] false false fuel else empty
      return .mapping line [(k, v)] :: (← flowItems false fuel)
    let n ← node false false fuel
    return n :: (← flowItems false fuel)

def flowPairs (first : Bool) : (fuel : Nat) → Compose (List (Node × Node))
  | 0 => failure
  | fuel + 1 => do
    if ← accept .flowMappingEnd then return []
    unless first do
      unless ← accept .comma do failure
      if ← accept .flowMappingEnd then return []
    if ← accept .key then
      let k ← nodeOr [.value, .comma, .flowMappingEnd] false false fuel
      let v ← if ← accept .value then nodeOr [.comma, .flowMappingEnd] false false fuel else empty
      return (k, v) :: (← flowPairs false fuel)
    let k ← node false false fuel
    let v ← empty
    return (k, v) :: (← flowPairs false fuel)

end

/-! ## Documents -/

/-- handles that every document has -/
def defaultHandles : List (List Char × List Char) := [(['!'], ['!']), (['!', '!'], "tag:yaml.org,2002:".toList)]

/-- reads directives: the version may be given once and has to be 1.1, a handle once each -/
def directives (version : Bool) (handles : List (List Char × List Char)) : (fuel : Nat) → Compose Unit
  | 0 => failure
  | fuel + 1 => do
    match (← peek).kind with
    | .version major minor =>
      if version || major ≠ 1 || minor ≠ 1 then failure
      advance
      directives true handles fuel
    | .tagHandle handle start =>
      if (handles.lookup handle).isSome then failure
      advance
      directives version ((handle, start) :: handles) fuel
    | _ => modify fun s => { s with handles := handles ++ defaultHandles }

/-- the first document; none in an empty stream -/
def document (fuel : Nat) : Compose (Option Node) := do
  if ← next [.streamEnd] then return none
  let given := match (← peek).kind with
    | .version _ _ | .tagHandle _ _ | .documentStart => true
    | _ => false
  directives false [] fuel
  let root ←
    if given then
      unless ← accept .documentStart do failure
      match (← peek).kind with
      | .version _ _ | .tagHandle _ _ | .documentStart | .documentEnd | .streamEnd => empty
      | _ => node true false fuel
    else node true false fuel
  discard peek
  return some root

end Compose

/-- the first document of a token stream: none inside for an empty stream, none at all when it is malformed -/
def document? (tokens : List Token) : Option (Option Document) :=
  match (Compose.document (4 * tokens.length + 4)).run { tokens } with
  | some (root?, s) =>
    if s.tokens.head?.any fun t => t.kind = .malformed then none
    else some (root?.map fun root => { root, named := s.named })
  | none => none

end AppAudit.Yaml
