import PackageScaffold.Yaml.Graph
import PackageScaffold.Yaml.Outline

/-!
# The grammar of nodes

The graph of a document is read off its tokens by recursive descent.  An alias leads to the node
that it names, which can be a collection that is still being read.

## Main definitions

* `Reader`: what is known while the tokens are read — the tokens to come, the tag handles, the
  anchors, and the graph so far;
* `readNode`: the grammar of nodes;
* `Tokens.document?`: the only document of a text.
-/

namespace PackageScaffold.Yaml

open Text

/-! ## Reading -/

/-- What is known while tokens are read. -/
structure Reader where
  tokens : List Token
  fault : Option Fault
  handles : List (String × String) := []
  anchors : List (String × NodeId) := []
  graph : Graph := {}
  /-- How many collections are being read. -/
  depth : Nat := 0

/-- A step of reading. -/
abbrev Reading := StateT Reader (Except Fault)

/-- Ends with a breach of the rules. -/
def fail {α : Type} (defect : Defect) : Reading α :=
  throw (.malformed defect)

/-- The token to come; none at the end of the document. -/
def peek : Reading (Option Token) := do
  let r ← get
  match r.tokens, r.fault with
  | token :: _, _ => return some token
  | [], some fault => throw fault
  | [], none => return none

/-- Passes the token to come. -/
def pass : Reading Unit :=
  modify fun r => { r with tokens := r.tokens.tail }

/-- Passes the token to come if it is the given one. -/
def passIf (token : Token) : Reading Bool := do
  if (← peek) == some token then
    pass
    return true
  else return false

/-- Whether the token to come is one of the given ones. -/
def isNext (tokens : List Token) : Reading Bool := do
  match ← peek with
  | some token => return tokens.contains token
  | none => return false

/-- The full text of a tag, its handle expanded. -/
def expandTag (tag : TagText) : Reading String := do
  match tag.handle with
  | none => return tag.suffix
  | some handle =>
    match (← get).handles.lookup handle with
    | some expansion => return expansion ++ tag.suffix
    | none => fail (.unknownHandle handle)

/-- Reads the anchor and the tag in front of a node, in either order. -/
def readProperties : Reading (Option String × Option String) := do
  match ← peek with
  | some (.anchor name) =>
    pass
    match ← peek with
    | some (.tag tag) =>
      pass
      return (some name, some (← expandTag tag))
    | _ => return (some name, none)
  | some (.tag tag) =>
    pass
    match ← peek with
    | some (.anchor name) =>
      pass
      return (some name, some (← expandTag tag))
    | _ => return (none, some (← expandTag tag))
  | _ => return (none, none)

/-- Remembers what an anchor names. -/
def remember (anchor : Option String) (id : NodeId) : Reading Unit := do
  match anchor with
  | none => return ()
  | some name => modify fun r => { r with anchors := (name, id) :: r.anchors }

/-- Adds a node to the graph. -/
def addNode (node : Node) : Reading NodeId := do
  let id := (← get).graph.next
  modify fun r => { r with graph := r.graph.add node }
  return id

/-- Adds the node for a value that is left out. -/
def leaveOut : Reading NodeId :=
  addNode .empty

/-- Makes sure that an anchor is new. -/
def checkAnchor (anchor : Option String) : Reading Unit := do
  match anchor with
  | none => return ()
  | some name =>
    if ((← get).anchors.lookup name).isSome then fail (.repeatedAnchor name) else return ()

/-- The meaning of a collection with the given tag. -/
def collectionTag (default : Tag) (tag : Option String) : Tag :=
  match tag with
  | none | some "!" => default
  | some uri => Tag.ofUri uri

/-- The meaning of a text with the given tag.  Without a tag, plain text has the meaning that it
shows; with the tag `!`, every text has. -/
def textTag (wording : Wording) (isPlain : Bool) (tag : Option String) : Tag :=
  let shown : Tag := match wording with
    | .text text => Tag.ofPlain text.toList
    | .broken _ => .text
  match tag with
  | none => if isPlain then shown else .text
  | some "!" => shown
  | some uri => Tag.ofUri uri

/-- Adds a text to the graph. -/
def addText (anchor : Option String) (tag : Tag) (wording : Wording) : Reading NodeId := do
  let id ← addNode ⟨tag, .text wording⟩
  remember anchor id
  return id

/-- The most collections that are read inside each other. -/
def mostNested : Nat := 485

/-- Adds a collection to the graph, and fills it with what is read.  Its anchor names it already
while it is read. -/
def addCollection {α : Type} (anchor : Option String) (tag : Tag) (body : List α → Body)
    (read : Reading (List α)) : Reading NodeId := do
  let id ← addNode ⟨tag, body []⟩
  remember anchor id
  if mostNested ≤ (← get).depth then throw (.unbuildable .tooDeep)
  modify fun r => { r with depth := r.depth + 1 }
  let content ← read
  modify fun r => { r with depth := r.depth - 1, graph := r.graph.setBody id (body content) }
  return id

mutual

/-- Reads a node.  `inBlock` says whether a block collection may begin here, and `afterKey` whether
a list may begin without being indented, as it may directly below its key. -/
def readNode (inBlock afterKey : Bool) : Nat → Reading NodeId
  | 0 => fail .nesting
  | fuel + 1 => do
    if let some (.alias name) ← peek then
      pass
      match (← get).anchors.lookup name with
      | some id => return id
      | none => fail (.unknownAnchor name)
    else
      let (anchor, tag) ← readProperties
      let asList := collectionTag .list tag
      let asMapping := collectionTag .mapping tag
      let token ← peek
      checkAnchor anchor
      match token, inBlock, afterKey with
      | some (.text wording isPlain), _, _ =>
        pass
        addText anchor (textTag wording isPlain tag) wording
      | some .flowList, _, _ =>
        pass
        addCollection anchor asList .list (readFlowItems true fuel)
      | some .flowMapping, _, _ =>
        pass
        addCollection anchor asMapping .mapping (readFlowEntries true fuel)
      | some .blockEntry, _, true => addCollection anchor asList .list (readHangingItems fuel)
      | some .blockList, true, _ =>
        pass
        addCollection anchor asList .list (readBlockItems fuel)
      | some .blockMapping, true, _ =>
        pass
        addCollection anchor asMapping .mapping (readBlockEntries fuel)
      | _, _, _ =>
        if anchor.isSome || tag.isSome then addText anchor (textTag (.text "") true tag) (.text "")
        else fail .missingNode

/-- Reads the items of an indented block list, and its end. -/
def readBlockItems : Nat → Reading (List NodeId)
  | 0 => fail .nesting
  | fuel + 1 => do
    if ← passIf .blockEntry then
      let item ←
        if ← isNext [.blockEntry, .blockEnd] then leaveOut
        else readNode true false fuel
      return item :: (← readBlockItems fuel)
    else if ← passIf .blockEnd then return []
    else fail .unclosedBlock

/-- Reads the items of a list that hangs below its key without being indented. -/
def readHangingItems : Nat → Reading (List NodeId)
  | 0 => fail .nesting
  | fuel + 1 => do
    if ← passIf .blockEntry then
      let item ←
        if ← isNext [.blockEntry, .key, .value, .blockEnd] then leaveOut
        else readNode true false fuel
      return item :: (← readHangingItems fuel)
    else return []

/-- Reads the entries of a block mapping, and its end. -/
def readBlockEntries : Nat → Reading (List (NodeId × NodeId))
  | 0 => fail .nesting
  | fuel + 1 => do
    if ← passIf .key then
      let key ←
        if ← isNext [.key, .value, .blockEnd] then leaveOut
        else readNode true true fuel
      let value ←
        if ← passIf .value then
          if ← isNext [.key, .value, .blockEnd] then leaveOut
          else readNode true true fuel
        else leaveOut
      return (key, value) :: (← readBlockEntries fuel)
    else if ← passIf .blockEnd then return []
    else fail .unclosedBlock

/-- Reads the items of a flow list, and its end.  An item can be a single pair. -/
def readFlowItems (first : Bool) : Nat → Reading (List NodeId)
  | 0 => fail .nesting
  | fuel + 1 => do
    if ← passIf .flowListEnd then return []
    if !first then
      unless ← passIf .flowEntry do fail .unclosedList
    if ← passIf .key then
      let item ← addCollection none .mapping .mapping (readFlowPair fuel)
      return item :: (← readFlowItems false fuel)
    else if ← passIf .flowListEnd then return []
    else
      let item ← readNode false false fuel
      return item :: (← readFlowItems false fuel)

/-- Reads a single pair in a flow list, behind the mark of its key. -/
def readFlowPair : Nat → Reading (List (NodeId × NodeId))
  | 0 => fail .nesting
  | fuel + 1 => do
    let key ←
      if ← isNext [.value, .flowEntry, .flowListEnd] then leaveOut
      else readNode false false fuel
    let value ←
      if ← passIf .value then
        if ← isNext [.flowEntry, .flowListEnd] then leaveOut
        else readNode false false fuel
      else leaveOut
    return [(key, value)]

/-- Reads the entries of a flow mapping, and its end. -/
def readFlowEntries (first : Bool) : Nat → Reading (List (NodeId × NodeId))
  | 0 => fail .nesting
  | fuel + 1 => do
    if ← passIf .flowMappingEnd then return []
    if !first then
      unless ← passIf .flowEntry do fail .unclosedMapping
    if ← passIf .key then
      let key ←
        if ← isNext [.value, .flowEntry, .flowMappingEnd] then leaveOut
        else readNode false false fuel
      let value ←
        if ← passIf .value then
          if ← isNext [.flowEntry, .flowMappingEnd] then leaveOut
          else readNode false false fuel
        else leaveOut
      return (key, value) :: (← readFlowEntries false fuel)
    else if ← passIf .flowMappingEnd then return []
    else
      let key ← readNode false false fuel
      return (key, ← leaveOut) :: (← readFlowEntries false fuel)

end

/-! ## The document -/

/-- The tag handles that every document knows. -/
def standardHandles : List (String × String) :=
  [("!", "!"), ("!!", "tag:yaml.org,2002:")]

/-- Reads the directives in front of a document, and remembers the tag handles that they define. -/
def readDirectives (hasVersion : Bool) : Nat → Reading Unit
  | 0 => return ()
  | fuel + 1 => do
    match ← peek with
    | some (.directive directive) =>
      pass
      match directive with
      | .version major _ =>
        if hasVersion then fail .repeatedDirective
        if major != 1 then fail .version
        readDirectives true fuel
      | .handle handle expansion =>
        if ((← get).handles.lookup handle).isSome then fail .repeatedDirective
        modify fun r => { r with handles := (handle, expansion) :: r.handles }
        readDirectives hasVersion fuel
      | .other _ => readDirectives hasVersion fuel
    | _ => return ()

/-- Passes the lines that end a document. -/
def passDocumentEnds : Nat → Reading Unit
  | 0 => return ()
  | fuel + 1 => do
    if ← passIf .documentEnd then passDocumentEnds fuel

/-- Reads the directives and the first line of a document that is announced by them. -/
def readAnnouncement (fuel : Nat) : Reading Unit := do
  modify fun r => { r with handles := [] }
  readDirectives false fuel
  unless ← passIf .documentStart do fail .missingDocumentStart
  modify fun r => { r with handles := r.handles ++ standardHandles }

/-- Reads the root of a document that is announced. -/
def readAnnounced (fuel : Nat) : Reading NodeId := do
  readAnnouncement fuel
  match ← peek with
  | none | some (.directive _) | some .documentStart | some .documentEnd => leaveOut
  | some _ => readNode true false fuel

/-- Reads the root of the only document, if there is one.  A second document is refused at its first
line. -/
def readRoot (fuel : Nat) : Reading (Option NodeId) := do
  match ← peek with
  | none => return none
  | some token =>
    let root ← match token with
      | .directive _ | .documentStart => readAnnounced fuel
      | _ => do
        modify fun r => { r with handles := standardHandles }
        readNode true false fuel
    passDocumentEnds fuel
    match ← peek with
    | none => return some root
    | some _ =>
      readAnnouncement fuel
      fail .secondDocument

/-- A document: its graph, and the node that everything hangs on. -/
structure Document where
  graph : Graph
  root : NodeId
  deriving Repr

/-- The only document of a text, if there is one. -/
def Tokens.document? (t : Tokens) : Except Fault (Option Document) := do
  let (root?, reader) ←
    (readRoot (4 * t.tokens.length + 4)).run { tokens := t.tokens, fault := t.fault }
  return root?.map fun root => { graph := reader.graph, root }

end PackageScaffold.Yaml
