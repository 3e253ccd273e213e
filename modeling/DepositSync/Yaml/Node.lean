import DepositSync.Yaml.Lexer

/-!
# DepositSync.Yaml.Node

What a YAML text says: a tree of scalars, sequences and mappings. A node that was named may stand
in several places, even inside itself; so an alias stays in the tree, as a number, and is looked up
when the tree is read.

A text is read only if it holds one document or none.
-/

namespace DepositSync.Yaml

/-- What a node is, apart from its content. -/
structure Mark where
  /-- The number by which aliases mean the node. -/
  anchor : Option Nat
  /-- The full tag. -/
  tag : Option String
  deriving DecidableEq, Repr, Inhabited

/-- A node. -/
inductive Node where
  | scalar (mark : Mark) (style : Style) (text : String)
  | sequence (mark : Mark) (items : List Node)
  | mapping (mark : Mark) (entries : List (Node × Node))
  | alias (id : Nat)
  deriving Repr, Inhabited

/-- The nodes that aliases can mean. -/
abbrev Anchors := List (Nat × Node)

namespace Node

/-- The entry of a node for aliases. -/
def entry (mark : Mark) (n : Node) : Anchors :=
  mark.anchor.toList.map fun id => (id, n)

mutual

/-- The named nodes of a tree in the order in which they begin. -/
def anchors : Node → Anchors
  | .scalar mark style text => entry mark (.scalar mark style text)
  | .sequence mark items => entry mark (.sequence mark items) ++ itemAnchors items
  | .mapping mark entries => entry mark (.mapping mark entries) ++ entryAnchors entries
  | .alias _ => []

/-- The named nodes of the items of a sequence. -/
def itemAnchors : List Node → Anchors
  | [] => []
  | n :: rest => n.anchors ++ itemAnchors rest

/-- The named nodes of the entries of a mapping. -/
def entryAnchors : List (Node × Node) → Anchors
  | [] => []
  | (k, v) :: rest => k.anchors ++ v.anchors ++ entryAnchors rest

end

/-- An empty place counts as an empty plain scalar. -/
def blank : Node :=
  .scalar ⟨none, none⟩ .plain ""

end Node

/-! ### Nodes from tokens -/

/-- What a handle stands for. -/
abbrev Handles := List (String × String)

/-- The handles of every document. -/
def standardHandles : Handles :=
  [("!", "!"), ("!!", "tag:yaml.org,2002:")]

/-- The full tag. -/
def ShortTag.full? (handles : Handles) (t : ShortTag) : Option String :=
  if t.handle.isEmpty then some t.rest
  else (handles.lookup t.handle).map (· ++ t.rest)

/-- What has been read of a document: the tokens still to come, and the names given so far with the
numbers they stand for. -/
structure Reader where
  tokens : List Token
  names : List (String × Nat)
  deriving Repr, Inhabited

/-- A step of reading, which may fail. -/
abbrev Reading := StateT Reader Option

namespace Reading

/-- The next token. -/
def peek : Reading (Option Token) := do
  return (← get).tokens.head?

/-- Passes over the next token. -/
def advance : Reading Unit :=
  modify fun r => { r with tokens := r.tokens.drop 1 }

/-- Passes over the next token if it is this one, and tells whether it was. -/
def accept (t : Token) : Reading Bool := do
  if (← peek) = some t then
    advance
    return true
  return false

/-- Is the next token one of these? -/
def nextIs (ts : List Token) : Reading Bool := do
  return (← peek).any ts.contains

/-- Passes over the next token, which has to be this one. -/
def expect (t : Token) : Reading Unit := do
  if !(← accept t) then failure

/-- Gives a name to the node that begins here. Its number is how many names there were before it,
so a name that is given again may share the number of a later one. -/
def giveName (name : String) : Reading Nat := do
  let r ← get
  let id := r.names.length
  set ({ r with names := r.names.filter (fun n => n.1 != name) ++ [(name, id)] } : Reader)
  return id

/-- The anchor and the tag before a node, in either order. -/
def properties (handles : Handles) : Reading Mark := do
  let anchor : Reading (Option String) := do
    match ← peek with
    | some (.anchor name) => do
      advance
      return some name
    | _ => return none
  let tag : Reading (Option ShortTag) := do
    match ← peek with
    | some (.tag t) => do
      advance
      return some t
    | _ => return none
  let first ← anchor
  let short ← tag
  let name ← match first with
    | some name => pure (some name)
    | none => anchor
  let full ← match short with
    | some t => (t.full? handles).map some
    | none => pure none
  let id ← match name with
    | some name => do
      let id ← giveName name
      pure (some id)
    | none => pure none
  return ⟨id, full⟩

/-- Where a node stands. -/
inductive Position where
  /-- Inside a flow collection. -/
  | flow
  /-- Inside a block collection, or as the whole document. -/
  | block
  /-- As a key or value of a block mapping, where a sequence need not be indented. -/
  | blockPair
  deriving DecidableEq, Repr

/-- A node of which there is nothing but an anchor or a tag. -/
def emptyNode (mark : Mark) : Reading Node :=
  if mark.anchor.isSome || mark.tag.isSome then pure (.scalar mark .plain "") else failure

/-- A node, unless one of the tokens shows that the place is empty. -/
def orBlank (ends : List Token) (read : Reading Node) : Reading Node := do
  if ← nextIs ends then return .blank
  read

mutual

/-- The node at the front of the tokens. -/
def node (handles : Handles) (position : Position) : (fuel : Nat) → Reading Node
  | 0 => failure
  | fuel + 1 => do
    if let some (.alias name) := ← peek then
      advance
      let id ← (← get).names.lookup name
      return .alias id
    let mark ← properties handles
    match ← peek with
    | some .blockEntry =>
      if position = .blockPair then return .sequence mark (← bareItems handles fuel)
      else emptyNode mark
    | some (.scalar style text) => do
      advance
      return .scalar mark style text
    | some .flowSequenceStart => do
      advance
      return .sequence mark (← flowItems handles true fuel)
    | some .flowMappingStart => do
      advance
      return .mapping mark (← flowEntries handles true fuel)
    | some .blockSequenceStart =>
      if position = .flow then emptyNode mark
      else do
        advance
        return .sequence mark (← blockItems handles fuel)
    | some .blockMappingStart =>
      if position = .flow then emptyNode mark
      else do
        advance
        return .mapping mark (← blockEntries handles fuel)
    | _ => emptyNode mark

/-- The items of a block sequence. -/
def blockItems (handles : Handles) : (fuel : Nat) → Reading (List Node)
  | 0 => failure
  | fuel + 1 => do
    if ← accept .blockEntry then
      let item ← orBlank [.blockEntry, .blockEnd] (node handles .block fuel)
      return item :: (← blockItems handles fuel)
    expect .blockEnd
    return []

/-- The items of a block sequence that is not indented. -/
def bareItems (handles : Handles) : (fuel : Nat) → Reading (List Node)
  | 0 => failure
  | fuel + 1 => do
    if ← accept .blockEntry then
      let item ← orBlank [.blockEntry, .key, .value, .blockEnd] (node handles .block fuel)
      return item :: (← bareItems handles fuel)
    return []

/-- The entries of a block mapping. -/
def blockEntries (handles : Handles) : (fuel : Nat) → Reading (List (Node × Node))
  | 0 => failure
  | fuel + 1 => do
    if ← accept .blockEnd then return []
    expect .key
    let ends : List Token := [.key, .value, .blockEnd]
    let k ← orBlank ends (node handles .blockPair fuel)
    let v ← if ← accept .value then orBlank ends (node handles .blockPair fuel) else pure .blank
    return (k, v) :: (← blockEntries handles fuel)

/-- The items of a flow sequence; `first` tells that no comma is due. An item may be a mapping of
one pair; where its key is empty, the token in the key's place is passed over. -/
def flowItems (handles : Handles) (first : Bool) : (fuel : Nat) → Reading (List Node)
  | 0 => failure
  | fuel + 1 => do
    if ← accept .flowSequenceEnd then return []
    if !first then
      expect .flowEntry
      if ← accept .flowSequenceEnd then return []
    let item ← if ← accept .key then do
        let k ← if ← nextIs [.value, .flowEntry, .flowSequenceEnd] then do
            advance
            pure .blank
          else node handles .flow fuel
        let v ← if ← accept .value then
            orBlank [.flowEntry, .flowSequenceEnd] (node handles .flow fuel)
          else pure .blank
        pure (.mapping ⟨none, none⟩ [(k, v)])
      else node handles .flow fuel
    return item :: (← flowItems handles false fuel)

/-- The entries of a flow mapping; `first` tells that no comma is due. -/
def flowEntries (handles : Handles) (first : Bool) : (fuel : Nat) → Reading (List (Node × Node))
  | 0 => failure
  | fuel + 1 => do
    if ← accept .flowMappingEnd then return []
    if !first then
      expect .flowEntry
      if ← accept .flowMappingEnd then return []
    let pair ← if ← accept .key then do
        let k ← orBlank [.value, .flowEntry, .flowMappingEnd] (node handles .flow fuel)
        let v ← if ← accept .value then
            orBlank [.flowEntry, .flowMappingEnd] (node handles .flow fuel)
          else pure .blank
        pure (k, v)
      else do
        let k ← node handles .flow fuel
        pure (k, Node.blank)
    return pair :: (← flowEntries handles false fuel)

end

/-! ### Documents -/

/-- Is the version one that is understood? -/
def isKnownVersion (major minor : Nat) : Bool :=
  major == 1 && (minor == 1 || minor == 2)

/-- The handles that the directives before a document give it. -/
def directives (version : Bool) (handles : Handles) : (fuel : Nat) → Reading Handles
  | 0 => failure
  | fuel + 1 => do
    match ← peek with
    | some (.version major minor) =>
      if version || !isKnownVersion major minor then failure
      advance
      directives true handles fuel
    | some (.tagHandle handle beginning) =>
      if handles.any (·.1 == handle) then failure
      advance
      directives version (handles ++ [(handle, beginning)]) fuel
    | _ => return handles

/-- Does a document begin without a line of hyphens? -/
def isBare : Token → Bool
  | .version .. | .tagHandle .. | .documentStart => false
  | _ => true

/-- Does the token end the document before it? -/
def endsDocument : Token → Bool
  | .version .. | .tagHandle .. | .documentStart | .documentEnd => true
  | _ => false

/-- The document at the front of the tokens. -/
def document (fuel : Nat) : Reading Node := do
  if (← peek).any isBare then node standardHandles .block fuel
  else
    let handles ← directives false [] fuel
    expect .documentStart
    if (← peek).all endsDocument then return .blank
    node (handles ++ standardHandles) .block fuel

end Reading

/-- The document of a list of tokens, if they are those of one document; `some none` if they are
those of none. -/
def documentOf? (tokens : List Token) : Option (Option Node) :=
  if tokens.isEmpty then some none
  else do
    let (n, rest) ← (Reading.document (2 * tokens.length + 2)).run ⟨tokens, []⟩
    if rest.tokens.all (· = .documentEnd) then some (some n) else none

/-- The document of a text; `some none` if the text has none. -/
def document? (s : String) : Option (Option Node) := do
  documentOf? (← tokens? s)

end DepositSync.Yaml
