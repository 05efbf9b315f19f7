import LayeredConfig.Yaml.Resolution
import LayeredConfig.Yaml.TokenStream

/-!
The nodes of a source as a graph: an alias leads to the node of its anchor, which may enclose it.
Nodes are built in the order of the tokens, so the first fault in that order is the one reported.
-/

namespace LayeredConfig.Yaml

/-- The content of a node; parts are numbers of nodes. -/
inductive Content
  | scalar (text : List Letter)
  | sequence (items : List Nat)
  | mapping (pairs : List (Nat × Nat))
  deriving Repr

structure Node where
  tag : Tag
  content : Content
  deriving Repr

structure Graph where
  nodes : Array Node
  root : Nat
  deriving Repr

/-- What is at hand while nodes are built: the tokens to come, the fault behind them, the handles of
tags, the anchors so far and the nodes so far. -/
structure Composer where
  tokens : List Token
  failure : Option Failure
  handles : List (List Char × List Char)
  anchors : List (List Char × Nat)
  nodes : Array Node

abbrev Compose := StateT Composer (Except Failure)

namespace Compose

def refuse (refusal : Refusal) : Compose α :=
  throw (.refused refusal)

/-- The next token. Behind the last one stands the fault that ended the tokens. -/
def peek : Compose Token := do
  let s ← get
  match s.tokens with
  | token :: _ => return token
  | [] =>
    match s.failure with
    | some failure => throw failure
    | none => return .streamEnd

def next : Compose Unit :=
  modify fun s => { s with tokens := s.tokens.drop 1 }

/-- Adds a node. -/
def addNode (tag : Tag) (content : Content) : Compose Nat := do
  let s ← get
  set { s with nodes := s.nodes.push ⟨tag, content⟩ }
  return s.nodes.size

def setContent (number : Nat) (content : Content) : Compose Unit :=
  modify fun s => { s with nodes := s.nodes.modify number ({ · with content := content }) }

/-- A scalar without characters that is not written at all. -/
def emptyScalar : Compose Nat :=
  addNode (.ofPlain []) (.scalar [])

/-- Notes the anchor of a node. -/
def anchorAt (anchor : Option (List Char)) (number : Nat) : Compose Unit :=
  match anchor with
  | some name => modify fun s => { s with anchors := (name, number) :: s.anchors }
  | none => return

/-- An anchor may not be given twice. -/
def checkAnchor (anchor : Option (List Char)) : Compose Unit := do
  match anchor with
  | some name => if ((← get).anchors.lookup name).isSome then refuse .references
  | none => return

/-- The full name of a tag. -/
def tagName (handle : Option (List Char)) (suffix : List Char) : Compose (List Char) := do
  match handle with
  | none => return suffix
  | some handle =>
    match (← get).handles.lookup handle with
    | some expansion => return expansion ++ suffix
    | none => refuse .grammar

/-- The anchor and the name of the tag in front of a node, in either order. -/
def properties : Compose (Option (List Char) × Option (List Char)) := do
  match ← peek with
  | .anchor anchor =>
    next
    match ← peek with
    | .tag handle suffix =>
      next
      return (some anchor, some (← tagName handle suffix))
    | _ => return (some anchor, none)
  | .tag handle suffix =>
    next
    match ← peek with
    | .anchor anchor =>
      next
      return (some anchor, some (← tagName handle suffix))
    | _ => return (none, some (← tagName handle suffix))
  | _ => return (none, none)

/-- The tag of a collection; the bare sign leaves the choice to the kind of the node. -/
def collectionTag (usual : Tag) (name : Option (List Char)) : Tag :=
  match name with
  | some name => if name == ['!'] then usual else .ofName name
  | none => usual

/-- The tag of a scalar. Without a tag a plain one is known by its form and others are texts; the bare
sign makes any scalar one that is known by its form. -/
def scalarTag (text : List Letter) (plain : Bool) (name : Option (List Char)) : Tag :=
  let text := text.map Letter.shown
  match name with
  | some name => if name == ['!'] then .ofPlain text else .ofName name
  | none => if plain then .ofPlain text else .str

mutual

/-- A node. Block collections may be confined to some places, and a sequence as a value of a mapping
may do without indentation. -/
def node (block indentless : Bool) : Nat → Compose Nat
  | 0 => refuse .grammar
  | fuel + 1 => do
    if let .alias name ← peek then
      next
      match (← get).anchors.lookup name with
      | some number => return number
      | none => refuse .references
    let (anchor, name) ← properties
    let token ← peek
    let collection (usual : Tag) (read : Compose Content) : Compose Nat := do
      checkAnchor anchor
      let number ← addNode (collectionTag usual name) (.sequence [])
      anchorAt anchor number
      setContent number (← read)
      return number
    let scalar (text : List Letter) (plain : Bool) : Compose Nat := do
      checkAnchor anchor
      let number ← addNode (scalarTag text plain name) (.scalar text)
      anchorAt anchor number
      return number
    match token with
    | .blockEntry =>
      if indentless then
        collection .seq (.sequence <$> indentlessItems fuel)
      else if anchor.isSome || name.isSome then scalar [] true
      else refuse .grammar
    | .scalar text plain =>
      next
      scalar text plain
    | .flowSequenceStart => collection .seq (do next; .sequence <$> flowItems true fuel)
    | .flowMappingStart => collection .map (do next; .mapping <$> flowPairs true fuel)
    | token =>
      if block && token == .blockSequenceStart then
        collection .seq (do next; .sequence <$> blockItems fuel)
      else if block && token == .blockMappingStart then
        collection .map (do next; .mapping <$> blockPairs fuel)
      else if anchor.isSome || name.isSome then scalar [] true
      else refuse .grammar

/-- The items of a block sequence. -/
def blockItems : Nat → Compose (List Nat)
  | 0 => refuse .grammar
  | fuel + 1 => do
    match ← peek with
    | .blockEntry =>
      next
      let item ←
        match ← peek with
        | .blockEntry | .blockEnd => emptyScalar
        | _ => node true false fuel
      return item :: (← blockItems fuel)
    | .blockEnd =>
      next
      return []
    | _ => refuse .grammar

/-- The items of a sequence that is not indented; the first other token ends it. -/
def indentlessItems : Nat → Compose (List Nat)
  | 0 => refuse .grammar
  | fuel + 1 => do
    match ← peek with
    | .blockEntry =>
      next
      let item ←
        match ← peek with
        | .blockEntry | .key | .value | .blockEnd => emptyScalar
        | _ => node true false fuel
      return item :: (← indentlessItems fuel)
    | _ => return []

/-- The pairs of a block mapping. -/
def blockPairs : Nat → Compose (List (Nat × Nat))
  | 0 => refuse .grammar
  | fuel + 1 => do
    match ← peek with
    | .key =>
      next
      let key ←
        match ← peek with
        | .key | .value | .blockEnd => emptyScalar
        | _ => node true true fuel
      let value ←
        match ← peek with
        | .value =>
          next
          match ← peek with
          | .key | .value | .blockEnd => emptyScalar
          | _ => node true true fuel
        | _ => emptyScalar
      return (key, value) :: (← blockPairs fuel)
    | .blockEnd =>
      next
      return []
    | _ => refuse .grammar

/-- The items of a flow sequence. A pair among them is a mapping of its own. -/
def flowItems (first : Bool) : Nat → Compose (List Nat)
  | 0 => refuse .grammar
  | fuel + 1 => do
    if (← peek) != .flowSequenceEnd && !first then
      if (← peek) == .flowEntry then next else refuse .grammar
    match ← peek with
    | .flowSequenceEnd =>
      next
      return []
    | .key =>
      let number ← addNode .map (.mapping [])
      next
      let key ←
        match ← peek with
        | .value | .flowEntry | .flowSequenceEnd => emptyScalar
        | _ => node false false fuel
      let value ←
        match ← peek with
        | .value =>
          next
          match ← peek with
          | .flowEntry | .flowSequenceEnd => emptyScalar
          | _ => node false false fuel
        | _ => emptyScalar
      let _ ← peek
      setContent number (.mapping [(key, value)])
      return number :: (← flowItems false fuel)
    | _ =>
      let item ← node false false fuel
      return item :: (← flowItems false fuel)

/-- The pairs of a flow mapping. A key without a colon has an empty value. -/
def flowPairs (first : Bool) : Nat → Compose (List (Nat × Nat))
  | 0 => refuse .grammar
  | fuel + 1 => do
    if (← peek) != .flowMappingEnd && !first then
      if (← peek) == .flowEntry then next else refuse .grammar
    match ← peek with
    | .flowMappingEnd =>
      next
      return []
    | .key =>
      next
      let key ←
        match ← peek with
        | .value | .flowEntry | .flowMappingEnd => emptyScalar
        | _ => node false false fuel
      let value ←
        match ← peek with
        | .value =>
          next
          match ← peek with
          | .flowEntry | .flowMappingEnd => emptyScalar
          | _ => node false false fuel
        | _ => emptyScalar
      return (key, value) :: (← flowPairs false fuel)
    | _ =>
      let key ← node false false fuel
      let _ ← peek
      let value ← emptyScalar
      return (key, value) :: (← flowPairs false fuel)

end

/-- The handles that every document has. -/
def usualHandles : List (List Char × List Char) :=
  [(['!'], ['!']), (['!', '!'], Tag.commonSpace)]

/-- The directives in front of a document. Versions other than 1 are refused, and so is a second
directive about the same thing. -/
def directives (version : Bool) (handles : List (List Char × List Char)) :
    Nat → Compose (List (List Char × List Char))
  | 0 => return handles
  | fuel + 1 => do
    match ← peek with
    | .directive content =>
      next
      match content with
      | .version major _ =>
        if version || major != 1 then refuse .grammar
        directives true handles fuel
      | .tag handle expansion =>
        if (handles.lookup handle).isSome then refuse .grammar
        directives version ((handle, expansion) :: handles) fuel
      | .other => directives version handles fuel
    | _ => return handles

def skipDocumentEnds : Nat → Compose Unit
  | 0 => return
  | fuel + 1 => do
    if (← peek) == .documentEnd then
      next
      skipDocumentEnds fuel

/-- The explicit start of a document; gives whether there is one before the stream ends. -/
def documentStart (fuel : Nat) : Compose Bool := do
  skipDocumentEnds fuel
  if (← peek) == .streamEnd then return false
  let handles ← directives false [] fuel
  if (← peek) != .documentStart then refuse .grammar
  next
  modify fun s => { s with handles := handles ++ usualHandles }
  return true

/-- The content of a document after its explicit start. -/
def documentContent (fuel : Nat) : Compose Nat := do
  match ← peek with
  | .directive _ | .documentStart | .documentEnd | .streamEnd => emptyScalar
  | _ => node true false fuel

/-- The only document of a stream, if there is one. -/
def document (fuel : Nat) : Compose (Option Nat) := do
  let _ ← peek
  next
  let root? ←
    match ← peek with
    | .directive _ | .documentStart | .streamEnd =>
      if ← documentStart fuel then some <$> documentContent fuel else pure none
    | _ => some <$> node true false fuel
  match root? with
  | none => return none
  | some root =>
    if (← peek) == .documentEnd then next
    if ← documentStart fuel then refuse .references
    return some root

end Compose

/-- The graph of the only document of a source; an empty source has none. -/
def Graph.ofTokens? (stream : TokenStream) : Except Failure (Option Graph) := do
  let fuel := 4 * stream.tokens.length + 8
  let start : Composer :=
    { tokens := stream.tokens, failure := stream.failure, handles := Compose.usualHandles
      anchors := [], nodes := #[] }
  let (root?, s) ← (Compose.document fuel).run start
  return root?.map fun root => ⟨s.nodes, root⟩

end LayeredConfig.Yaml
