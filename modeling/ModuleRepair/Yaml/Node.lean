import ModuleRepair.Yaml.Scanner

/-!
# From tokens to nodes

A node is a scalar, a sequence or a mapping. A reference stands for the node whose anchor it names:
a mapping keeps its identity. Where the tokens end early, the fault that ended them is reported.
-/
namespace ModuleRepair.Yaml

/-- A node of a document. -/
inductive Node where
  | scalar (tag : Option String) (text : String) (plain : Bool)
  | sequence (tag : Option String) (items : List Node)
  | mapping (tag : Option String) (entries : List (Node × Node)) (identity : Nat)
  deriving Repr

namespace Node

/-- The node that is there when nothing is written. -/
def empty : Node := .scalar none "" true

/-- What reading nodes goes on. -/
structure Source where
  tokens : List Token
  /-- The fault behind the last token. -/
  fault : Fault
  anchors : List (String × Node) := []
  /-- The identity of the next mapping. -/
  next : Nat := 0

/-- Reads nodes. -/
abbrev Reader := StateT Source (Except Fault)

/-- The next token. -/
def peek : Reader Token := do
  let s ← get
  match s.tokens with
  | t :: _ => return t
  | [] => throw s.fault

/-- Passes over the next token. -/
def drop : Reader Unit :=
  modify fun s => { s with tokens := s.tokens.drop 1 }

/-- Passes over the next token if it is the given one. -/
def take (t : Token) : Reader Bool := do
  if (← peek) == t then
    drop
    return true
  return false

/-- Whether the next token is one of the given ones. -/
def isNext (ts : List Token) : Reader Bool := do
  return ts.contains (← peek)

/-- The anchor and the tag in front of a node, in any order. -/
def properties : Nat → Option String × Option String → Reader (Option String × Option String)
  | 0, found => return found
  | n + 1, (anchor, tag) => do
    match ← peek with
    | .anchor name =>
      if anchor.isSome then return (anchor, tag)
      drop
      properties n (some name, tag)
    | .tag text =>
      if tag.isSome then return (anchor, tag)
      drop
      properties n (anchor, some text)
    | _ => return (anchor, tag)

/-- A new identity. -/
def fresh : Reader Nat :=
  modifyGet fun s => (s.next, { s with next := s.next + 1 })

def remember (anchor : Option String) (node : Node) : Reader Node := do
  if let some name := anchor then
    if ((← get).anchors.lookup name).isSome then throw .composer
    modify fun s => { s with anchors := (name, node) :: s.anchors }
  return node

mutual

/-- A node. `block` allows blocks, and `indentless` sequences without an indentation of their
own. The first argument bounds the depth and the number of nodes. -/
def node : Nat → Bool → Bool → Reader Node
  | 0, _, _ => throw .parser
  | n + 1, block, indentless => do
    match ← peek with
    | .reference name =>
      drop
      match (← get).anchors.lookup name with
      | some found => return found
      | none => throw .composer
    | _ =>
      let (anchor, tag) ← properties 3 (none, none)
      let content ← do
        match ← peek with
        | .entry =>
          if indentless then pure (.sequence tag (← entries n [.key, .value]))
          else if anchor.isSome || tag.isSome then pure (.scalar tag "" true)
          else throw .parser
        | .scalar text plain =>
          drop
          pure (.scalar tag text plain)
        | .flowSequenceStart =>
          drop
          pure (.sequence tag (← flowItems n true))
        | .flowMappingStart =>
          drop
          pure (.mapping tag (← flowEntries n true) (← fresh))
        | t =>
          if block && t == .sequenceStart then
            drop
            let items ← entries n []
            if !(← take .blockEnd) then throw .parser
            pure (.sequence tag items)
          else if block && t == .mappingStart then
            drop
            let pairs ← pairs n
            if !(← take .blockEnd) then throw .parser
            pure (.mapping tag pairs (← fresh))
          else if anchor.isSome || tag.isSome then pure (.scalar tag "" true)
          else throw .parser
      remember anchor content

/-- The entries of a block sequence. The second argument holds the tokens, apart from the end of
the block, in front of which an entry is empty. -/
def entries : Nat → List Token → Reader (List Node)
  | 0, _ => throw .parser
  | n + 1, stops => do
    if !(← take .entry) then return []
    let item ← if ← isNext ([.entry, .blockEnd] ++ stops) then pure empty else node n true false
    return item :: (← entries n stops)

/-- A key or a value of a block mapping. -/
def part : Nat → Reader Node
  | 0 => throw .parser
  | n + 1 => do
    if ← isNext [.key, .value, .blockEnd] then return empty
    node n true true

/-- The pairs of a block mapping. -/
def pairs : Nat → Reader (List (Node × Node))
  | 0 => throw .parser
  | n + 1 => do
    if !(← take .key) then return []
    let key ← part n
    let value ← if ← take .value then part n else pure empty
    return (key, value) :: (← pairs n)

/-- The value of a pair in a flow collection. -/
def flowValue : Nat → Token → Reader Node
  | 0, _ => throw .parser
  | n + 1, stop => do
    if !(← take .value) then return empty
    if ← isNext [.flowEntry, stop] then return empty
    node n false false

/-- The key of a pair in a flow collection. -/
def flowKey : Nat → Token → Reader Node
  | 0, _ => throw .parser
  | n + 1, stop => do
    if ← isNext [.value, .flowEntry, stop] then return empty
    node n false false

/-- The items of a flow sequence with its end. A pair is a mapping of its own. -/
def flowItems : Nat → Bool → Reader (List Node)
  | 0, _ => throw .parser
  | n + 1, first => do
    if ← take .flowSequenceEnd then return []
    if !first then
      if !(← take .flowEntry) then throw .parser
    if ← take .flowSequenceEnd then return []
    let item ←
      if ← take .key then
        let key ← flowKey n .flowSequenceEnd
        pure (.mapping none [(key, ← flowValue n .flowSequenceEnd)] (← fresh))
      else node n false false
    return item :: (← flowItems n false)

/-- The pairs of a flow mapping with its end. -/
def flowEntries : Nat → Bool → Reader (List (Node × Node))
  | 0, _ => throw .parser
  | n + 1, first => do
    if ← take .flowMappingEnd then return []
    if !first then
      if !(← take .flowEntry) then throw .parser
    if ← take .flowMappingEnd then return []
    let pair ←
      if ← take .key then
        let key ← flowKey n .flowMappingEnd
        pure (key, ← flowValue n .flowMappingEnd)
      else pure (← node n false false, empty)
    return pair :: (← flowEntries n false)

end

/-- Passes over tokens as long as they are the given one. -/
def dropAll (t : Token) : Nat → Reader Unit
  | 0 => pure ()
  | n + 1 => do
    if ← take t then dropAll t n

/-- The root of the only document, if there is one. -/
def document (bound : Nat) : Reader (Option Node) := do
  if ← take .streamEnd then return none
  let root ←
    if ← isNext [.directive, .documentStart] then
      dropAll .directive bound
      if !(← take .documentStart) then throw .parser
      if ← isNext [.directive, .documentStart, .documentEnd, .streamEnd] then pure empty
      else node bound true false
    else node bound true false
  dropAll .documentEnd bound
  if ← take .streamEnd then return some root
  dropAll .directive bound
  throw (if ← take .documentStart then .composer else .parser)

/-- The root of a text, if the text holds a document. -/
def ofText (s : List Char) : Except Fault (Option Node) :=
  let (tokens, fault) := scan s
  ((document (4 * tokens.length + 16)).run
    { tokens, fault := fault.getD .parser }).map (·.1)

end Node

end ModuleRepair.Yaml
