import CallContract.Yaml.Node
import CallContract.Yaml.Token

/-!
# Nodes from tokens

`Document.ofTokens?` reads the only document of a list of tokens by recursive descent. A node that is missing where
one could stand is an empty scalar; a token that cannot follow ends the reading without a result.

Anchors are numbered as they are met: the number of a new one is the count of the names known so far, an alias means
the number that its name has at that place, and of several nodes with one number the one that starts last counts.
-/

namespace CallContract.Yaml

/-- A node with the number of its anchor, and its place among all anchored nodes in the order in which they start. -/
structure Anchored where
  place : Nat
  id : Nat
  node : Node

/-- What reading has left and has learnt: the tokens ahead, the tag expansions by handle, the anchor numbers by name,
the anchored nodes with a count of those started, and the number of events. -/
structure Reading where
  tokens : List Token
  handles : List (String × String)
  names : List (String × Nat) := []
  started : Nat := 0
  anchored : List Anchored := []
  events : Nat := 0

/-- A step of reading, which may fail. -/
abbrev Reader := StateT Reading Option

namespace Reader

/-! ## Tokens -/

/-- The next token. -/
def peek : Reader (Option Token) := do
  return (← get).tokens.head?

/-- Passes the next token. -/
def skip : Reader Unit :=
  modify fun r => { r with tokens := r.tokens.drop 1 }

/-- Passes the next token if it is the given one, and says whether it was. -/
def accept (token : Token) : Reader Bool := do
  if (← peek) = some token then
    skip
    return true
  else return false

/-- Passes the next token, which has to be the given one. -/
def require (token : Token) : Reader Unit := do
  if !(← accept token) then failure

/-- Whether one of some tokens is next. -/
def isNext (tokens : List Token) : Reader Bool := do
  return (← peek).any tokens.contains

/-! ## Properties -/

/-- An anchor, if one is next. -/
def anchor? : Reader (Option String) := do
  match ← peek with
  | some (.anchor name) =>
    skip
    return some name
  | _ => return none

/-- A tag with its handle expanded, if one is next; the handle has to be known. -/
def tag? : Reader (Option String) := do
  match ← peek with
  | some (.tag handle suffix) =>
    skip
    if handle.isEmpty then return some suffix
    match (← get).handles.lookup handle with
    | some expansion => return some (expansion ++ suffix)
    | none => failure
  | _ => return none

/-- The number of an anchor and the place of its node. -/
def start (name : String) : Reader (Nat × Nat) :=
  modifyGet fun r =>
    let id := r.names.length
    ((r.started, id), { r with names := (name, id) :: r.names.filter (·.1 != name), started := r.started + 1 })

/-- What stands before a node: an anchor and a tag in either order. -/
structure Properties where
  anchor : Option (Nat × Nat)
  tag : Option String

/-- The properties in front of a node. -/
def properties : Reader Properties := do
  match ← anchor? with
  | some name =>
    let tag ← tag?
    return { anchor := some (← start name), tag }
  | none =>
    match ← tag? with
    | some tag =>
      match ← anchor? with
      | some name => return { anchor := some (← start name), tag := some tag }
      | none => return { anchor := none, tag := some tag }
    | none => return { anchor := none, tag := none }

/-! ## Nodes -/

/-- A finished node of some events, kept under its anchor. -/
def finish (props : Properties) (events : Nat) (node : Node) : Reader Node := do
  modify fun r => { r with
    events := r.events + events
    anchored := match props.anchor with
      | some (place, id) => ⟨place, id, node⟩ :: r.anchored
      | none => r.anchored }
  return node

/-- A scalar that is written; a tag of one exclamation mark says nothing about it. -/
def scalar (props : Properties) (plain : Bool) (text : String) : Reader Node :=
  finish props 1 (.scalar (props.tag.filter (· != "!")) plain text)

/-- The scalar of properties that stand alone; without properties there is no node. -/
def bare (props : Properties) : Reader Node :=
  if props.anchor.isNone && props.tag.isNone then failure else finish props 1 (.scalar props.tag true "")

/-- An empty scalar. -/
def absent : Reader Node :=
  finish ⟨none, none⟩ 1 .empty

/-- An alias, whose name has to be known. -/
def aliasNode (name : String) : Reader Node := do
  skip
  match (← get).names.lookup name with
  | some id => finish ⟨none, none⟩ 1 (.aliasOf id)
  | none => failure

/-- A sequence. -/
def sequence (props : Properties) (items : List Node) : Reader Node :=
  finish props 2 (.sequence props.tag items)

/-- A mapping. -/
def mapping (props : Properties) (pairs : List (Node × Node)) : Reader Node :=
  finish props 2 (.mapping props.tag pairs)

/-! ## Descent

The first argument of every function bounds the depth of the descent. Each level passes a token or is followed by one
that does. -/

mutual

/-- A node. Only in a block may it be a block; directly below a key it may be a sequence without an indentation of
its own. -/
def node : Nat → (inBlock belowKey : Bool) → Reader Node
  | 0, _, _ => failure
  | fuel + 1, inBlock, belowKey => do
    match ← peek with
    | some (.aliasOf name) => aliasNode name
    | _ =>
      let props ← properties
      match ← peek with
      | some (.scalar plain text) =>
        skip
        scalar props plain text
      | some .flowSequenceStart =>
        skip
        sequence props (← flowItems fuel true)
      | some .flowMappingStart =>
        skip
        mapping props (← flowPairs fuel true)
      | some .blockEntry => if belowKey then sequence props (← unindentedItems fuel) else bare props
      | some .blockSequenceStart =>
        if inBlock then
          skip
          sequence props (← blockItems fuel)
        else bare props
      | some .blockMappingStart =>
        if inBlock then
          skip
          mapping props (← blockPairs fuel)
        else bare props
      | _ => bare props

/-- A node, or an empty scalar in front of one of some tokens. -/
def nodeBefore : Nat → (ends : List Token) → (inBlock belowKey : Bool) → Reader Node
  | 0, _, _, _ => failure
  | fuel + 1, ends, inBlock, belowKey => do
    if ← isNext ends then absent else node fuel inBlock belowKey

/-- The value of a key, or an empty scalar where there is none. -/
def value : Nat → (ends : List Token) → (inBlock : Bool) → Reader Node
  | 0, _, _ => failure
  | fuel + 1, ends, inBlock => do
    if ← accept .value then nodeBefore fuel ends inBlock inBlock else absent

/-- The items of a block sequence, with its end. -/
def blockItems : Nat → Reader (List Node)
  | 0 => failure
  | fuel + 1 => do
    if ← accept .blockEntry then
      let item ← nodeBefore fuel [.blockEntry, .blockEnd] true false
      return item :: (← blockItems fuel)
    else
      require .blockEnd
      return []

/-- The items of a sequence without an indentation of its own. -/
def unindentedItems : Nat → Reader (List Node)
  | 0 => failure
  | fuel + 1 => do
    if ← accept .blockEntry then
      let item ← nodeBefore fuel [.blockEntry, .key, .value, .blockEnd] true false
      return item :: (← unindentedItems fuel)
    else return []

/-- The pairs of a block mapping, with its end. -/
def blockPairs : Nat → Reader (List (Node × Node))
  | 0 => failure
  | fuel + 1 => do
    if ← accept .key then
      let ends := [.key, .value, .blockEnd]
      let k ← nodeBefore fuel ends true true
      let v ← value fuel ends true
      return (k, v) :: (← blockPairs fuel)
    else
      require .blockEnd
      return []

/-- The items of a flow sequence, with its end. An item marked as a key is a mapping of one pair; where its key is
missing, the token in its place is passed. -/
def flowItems : Nat → (first : Bool) → Reader (List Node)
  | 0, _ => failure
  | fuel + 1, first => do
    if ← accept .flowSequenceEnd then return []
    if !first then require .flowEntry
    if ← accept .key then
      let k ← if ← isNext [.value, .flowEntry, .flowSequenceEnd] then do skip; absent else node fuel false false
      let v ← value fuel [.flowEntry, .flowSequenceEnd] false
      let item ← mapping ⟨none, none⟩ [(k, v)]
      return item :: (← flowItems fuel false)
    else if ← accept .flowSequenceEnd then return []
    else
      let item ← node fuel false false
      return item :: (← flowItems fuel false)

/-- The pairs of a flow mapping, with its end. A node without a colon is a key with an empty value. -/
def flowPairs : Nat → (first : Bool) → Reader (List (Node × Node))
  | 0, _ => failure
  | fuel + 1, first => do
    if ← accept .flowMappingEnd then return []
    if !first then require .flowEntry
    if ← accept .key then
      let k ← nodeBefore fuel [.value, .flowEntry, .flowMappingEnd] false false
      let v ← value fuel [.flowEntry, .flowMappingEnd] false
      return (k, v) :: (← flowPairs fuel false)
    else if ← accept .flowMappingEnd then return []
    else
      let k ← node fuel false false
      let v ← absent
      return (k, v) :: (← flowPairs fuel false)

end

/-! ## Documents -/

/-- What the directives in front of a document say: whether a version was named, and the expansions of handles. -/
structure Directives where
  versioned : Bool := false
  handles : List (String × String) := []

/-- One more directive: the version, 1.1 or 1.2, is named once and every handle is expanded once. -/
def Directives.add (d : Directives) : Token → Option Directives
  | .version major minor =>
    if d.versioned || major != 1 || !(minor == 1 || minor == 2) then none else some { d with versioned := true }
  | .tagShorthand handle expansion =>
    if (d.handles.lookup handle).isSome then none
    else some { d with handles := d.handles ++ [(handle, expansion)] }
  | _ => none

/-- The handles that are known in every document. -/
def commonHandles : List (String × String) :=
  [("!", "!"), ("!!", "tag:yaml.org,2002:")]

/-- A directive. -/
def isDirective : Token → Bool
  | .version .. | .tagShorthand .. => true
  | _ => false

/-- The root of a document, whose start has been passed if it is marked. -/
def root (fuel : Nat) (marked : Bool) : Reader Node := do
  match ← peek with
  | none => if marked then absent else failure
  | some .documentStart | some .documentEnd => if marked then absent else failure
  | some token => if isDirective token then absent else node fuel true false

/-- The root of a document, and after it only marks of its end. -/
def whole (fuel : Nat) (marked : Bool) : Reader Node := do
  let node ← root fuel marked
  if (← get).tokens.all (· == .documentEnd) then return node else failure

end Reader

namespace Document

/-- The document of a root and of what reading has learnt. -/
def ofReading (root : Node) (r : Reading) : Document where
  root := root
  anchored := (r.anchored.mergeSort fun a b => decide (b.place ≤ a.place)).map fun a => (a.id, a.node)
  events := r.events

/-- The document of a list of tokens: failure when they hold anything else than one document, and nothing when there
is none. -/
def ofTokens? (tokens : List Token) : Option (Option Document) := do
  if tokens.isEmpty then return none
  let directives ← (tokens.takeWhile Reader.isDirective).foldlM Reader.Directives.add {}
  let rest := tokens.dropWhile Reader.isDirective
  let marked := rest.head? == some .documentStart
  if !marked && (tokens.head?.any Reader.isDirective) then none
  else
    let (root, reading) ← (Reader.whole (4 * tokens.length + 4) marked).run {
      tokens := if marked then rest.drop 1 else rest, handles := directives.handles ++ Reader.commonHandles }
    return some (ofReading root reading)

end Document

end CallContract.Yaml
