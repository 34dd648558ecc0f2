import TableSink.Yaml.Token

/-!
# YAML documents

The tree that a text holds, and the nodes in it that have an anchor. An alias is a leaf of the tree
and names such a node by a number. The number of an anchor is the count of the different names that
were given to anchors before it; where a name is given again, that is the number that the next new
name gets as well. Of several nodes with one number the last one counts, even for an alias in front
of it.

A text has to hold exactly one document.
-/

namespace TableSink.Yaml

/-- A value in a document. -/
inductive Node where
  /-- A text, how it is written, and its tag. -/
  | scalar (text : String) (style : Style) (tag : Option (List UInt8))
  | sequence (items : List Node) (tag : Option (List UInt8))
  /-- Keys with their values, as they are written. -/
  | mapping (entries : List (Node × Node)) (tag : Option (List UInt8))
  /-- An alias for the node whose anchor has this number. -/
  | alias (number : Nat)
deriving Repr, Inhabited

/-- What a text holds. -/
structure Document where
  root : Node
  /-- The nodes with an anchor behind the numbers of their anchors, in the order in which the nodes
  begin. -/
  marked : List (Nat × Node)
deriving Repr, Inhabited

namespace Node

/-- The node where nothing is written. -/
def empty : Node := .scalar "" .plain none

/-- What is left to read, and what was read for use further on. -/
structure Source where
  tokens : List Token
  /-- The names of anchors so far, and for each of them the number of its last anchor. -/
  anchors : List (String × Nat) := []
  /-- The nodes with an anchor so far; one that was only begun is empty. -/
  marked : Array (Nat × Node) := #[]
  /-- The starts of tags that handles stand for. -/
  handles : List (String × List UInt8) :=
    [("!", "!".toUTF8.data.toList), ("!!", "tag:yaml.org,2002:".toUTF8.data.toList)]

/-- Reads something off the tokens that are left. -/
abbrev Reader := StateT Source Option

namespace Reader

/-- The next token. -/
def peek : Reader (Option Token) := return (← get).tokens.head?

/-- Leave a token behind. -/
def pop : Reader Unit := modify fun s ↦ { s with tokens := s.tokens.tail }

/-- Whether the next token is one of these. -/
def atAny (tokens : List Token) : Reader Bool := return (← peek).any tokens.contains

/-- Leave the next token behind if it is this one, and say whether it was. -/
def accept (token : Token) : Reader Bool := do
  if ← atAny [token] then
    pop
    return true
  else return false

/-- Leave this token behind. -/
def expect (token : Token) : Reader Unit := do
  unless ← accept token do failure

/-! ## Properties of a node -/

/-- The tag of a handle and what is behind it. -/
def resolveTag (handle : String) (suffix : List UInt8) : Reader (List UInt8) := do
  if handle = "" then return suffix
  let some start := (← get).handles.lookup handle | failure
  return start ++ suffix

/-- An anchor and a tag in either order, each of them only if it is there. -/
def properties : Reader (Option String × Option (List UInt8)) := do
  match ← peek with
  | some (.anchor name) =>
    pop
    if let some (.tag handle suffix) ← peek then
      pop
      return (some name, some (← resolveTag handle suffix))
    return (some name, none)
  | some (.tag handle suffix) =>
    pop
    let mut anchor := none
    if let some (.anchor name) ← peek then
      pop
      anchor := some name
    return (anchor, some (← resolveTag handle suffix))
  | _ => return (none, none)

/-- The alias for an anchor that was met before. -/
def aliasOf (name : String) : Reader Node := do
  let some number := (← get).anchors.lookup name | failure
  return .alias number

/-- Give the node that `read` reads to an anchor, which is met before what is in the node. -/
def anchored (anchor : Option String) (read : Reader Node) : Reader Node :=
  match anchor with
  | none => read
  | some name => do
    let s ← get
    let number := s.anchors.length
    let place := s.marked.size
    set { s with
      anchors := (name, number) :: s.anchors.filter (·.1 ≠ name)
      marked := s.marked.push (number, .empty) }
    let node ← read
    modify fun s ↦ { s with marked := s.marked.setIfInBounds place (number, node) }
    return node

/-! ## Nodes -/

/-- Where a node stands. -/
inductive Place where
  /-- Among the lines of a block. -/
  | block
  /-- Behind a key of a block, where the dashes of a sequence need no indentation of their own. -/
  | behindKey
  /-- In a flow collection. -/
  | flow
deriving DecidableEq

mutual

/-- A node. -/
def node : (fuel : Nat) → Place → Reader Node
  | 0, _ => failure
  | fuel + 1, place => do
    if let some (.alias name) ← peek then
      pop
      return ← aliasOf name
    let (anchor, tag) ← properties
    anchored anchor do
      match ← peek, place with
      | some .entry, .behindKey => return .sequence (← looseItems fuel) tag
      | some (.scalar text style), _ =>
        pop
        return .scalar text style tag
      | some .flowSequence, _ =>
        pop
        return .sequence (← flowItems fuel true) tag
      | some .flowMapping, _ =>
        pop
        return .mapping (← flowEntries fuel true) tag
      | some .blockSequence, .block | some .blockSequence, .behindKey =>
        pop
        return .sequence (← blockItems fuel) tag
      | some .blockMapping, .block | some .blockMapping, .behindKey =>
        pop
        return .mapping (← blockEntries fuel) tag
      | _, _ =>
        if anchor.isSome || tag.isSome then return .scalar "" .plain tag else failure

/-- A node, or nothing in front of one of these tokens. -/
def nodeUnless : (fuel : Nat) → List Token → Place → Reader Node
  | 0, _, _ => failure
  | fuel + 1, stops, place => do
    if ← atAny stops then return .empty else node fuel place

/-- The items of a sequence in lines, up to its end. -/
def blockItems : (fuel : Nat) → Reader (List Node)
  | 0 => failure
  | fuel + 1 => do
    if ← accept .entry then
      let item ← nodeUnless fuel [.entry, .blockEnd] .block
      return item :: (← blockItems fuel)
    else
      expect .blockEnd
      return []

/-- The items of a sequence that is as deep as the mapping around it. -/
def looseItems : (fuel : Nat) → Reader (List Node)
  | 0 => failure
  | fuel + 1 => do
    if ← accept .entry then
      let item ← nodeUnless fuel [.entry, .key, .value, .blockEnd] .block
      return item :: (← looseItems fuel)
    else return []

/-- The entries of a mapping in lines, up to its end. -/
def blockEntries : (fuel : Nat) → Reader (List (Node × Node))
  | 0 => failure
  | fuel + 1 => do
    if ← accept .key then
      let stops := [Token.key, .value, .blockEnd]
      let key ← nodeUnless fuel stops .behindKey
      let value ← if ← accept .value then nodeUnless fuel stops .behindKey else pure .empty
      return (key, value) :: (← blockEntries fuel)
    else
      expect .blockEnd
      return []

/-- The items of a sequence between brackets, up to the closing one. A pair of key and value is a
mapping of its own. -/
def flowItems : (fuel : Nat) → (first : Bool) → Reader (List Node)
  | 0, _ => failure
  | fuel + 1, first => do
    if ← accept .flowSequenceEnd then return []
    unless first do expect .flowEntry
    if ← accept .flowSequenceEnd then return []
    let stops := [Token.flowEntry, .flowSequenceEnd]
    let item ← if ← accept .key then do
        let keyless ← atAny (.value :: stops)
        if keyless then pop
        let key ← if keyless then pure .empty else node fuel .flow
        let value ← if ← accept .value then nodeUnless fuel stops .flow else pure .empty
        pure (.mapping [(key, value)] none)
      else node fuel .flow
    return item :: (← flowItems fuel false)

/-- The entries of a mapping between braces, up to the closing one. -/
def flowEntries : (fuel : Nat) → (first : Bool) → Reader (List (Node × Node))
  | 0, _ => failure
  | fuel + 1, first => do
    if ← accept .flowMappingEnd then return []
    unless first do expect .flowEntry
    if ← accept .flowMappingEnd then return []
    let stops := [Token.flowEntry, .flowMappingEnd]
    let entry ← if ← accept .key then do
        let key ← nodeUnless fuel (.value :: stops) .flow
        let value ← if ← accept .value then nodeUnless fuel stops .flow else pure .empty
        pure (key, value)
      else do
        let key ← node fuel .flow
        pure (key, .empty)
    return entry :: (← flowEntries fuel false)

end

/-! ## Documents -/

/-- The directives in front of a document: at most one version, which has to be known, and a new
start for every handle at most once. -/
def directives : (fuel : Nat) → (versioned : Bool) → (renamed : List String) → Reader Unit
  | 0, _, _ => failure
  | fuel + 1, versioned, renamed => do
    match ← peek with
    | some (.version major minor) =>
      if versioned || major ≠ 1 || !(minor = 1 || minor = 2) then failure
      pop
      directives fuel true renamed
    | some (.tagHandle handle start) =>
      if renamed.contains handle then failure
      pop
      modify fun s ↦ { s with handles := (handle, start) :: s.handles }
      directives fuel versioned (handle :: renamed)
    | _ => return ()

/-- Whether a document is opened by a line of its own or by directives. -/
def isPrologue : Token → Bool
  | .version _ _ | .tagHandle _ _ | .documentStart => true
  | _ => false

/-- The only document. -/
def document (fuel : Nat) : Reader Node := do
  let some first ← peek | failure
  let root ← if isPrologue first then do
      directives fuel false []
      expect .documentStart
      let some next ← peek | pure .empty
      if isPrologue next || next == .documentEnd then pure .empty else node fuel .block
    else node fuel .block
  modify fun s ↦ { s with tokens := s.tokens.dropWhile (· = .documentEnd) }
  unless (← peek).isNone do failure
  return root

end Reader

end Node

/-- The document that a text holds. -/
def Document.parse? (text : String) : Option Document := do
  let tokens ← Token.ofText? text
  let (root, s) ← (Node.Reader.document (3 * tokens.length + 3)).run { tokens }
  return { root, marked := s.marked.toList }

end TableSink.Yaml
