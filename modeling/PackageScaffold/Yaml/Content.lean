import PackageScaffold.Yaml.Grammar
import PackageScaffold.Yaml.Scalar.Value

/-!
# Contents of nodes

What a node of a document holds once its meaning is carried out: a value, or, for a collection, the
nodes in it.  A node is carried out once, however many places it is in.  Collections wait, empty,
until their turn comes, the outermost first; so of several faults, the outermost counts, and of
those on one level the first.

## Main definitions

* `Content`;
* `build`, `fill`: carry out a node, and the inside of a collection;
* `Document.contents`: what all nodes of a document hold.
-/

namespace PackageScaffold.Yaml

open Text

/-- What a node holds. -/
inductive Content where
  | plain (value : Value)
  /-- The number that is none, by its usual word. -/
  | noNumber
  | list (items : List NodeId)
  | pairs (items : List (NodeId × NodeId))
  | map (entries : List (NodeId × NodeId))
  | set (members : List NodeId)
  deriving Inhabited

/-- What a collection with the given meaning holds before it is filled; a meaning that is not one of
collections holds nothing. -/
def Tag.emptyContent? : Tag → Option Content
  | .list => some (.list [])
  | .orderedMapping | .pairs => some (.pairs [])
  | .mapping => some (.map [])
  | .set => some (.set [])
  | _ => none

/-- Whether a node that holds this can be a key. -/
def Content.isKey : Content → Bool
  | .plain _ | .noNumber => true
  | _ => false

/-- The text of a node; of a mapping, the text of its plain value. -/
def Graph.wording (g : Graph) : Nat → NodeId → Except Fault Wording
  | 0, _ => unbuildable .tooDeep
  | fuel + 1, id =>
    match (g.node id).body with
    | .text wording => .ok wording
    | .list _ => .error (.malformed .shape)
    | .mapping entries =>
      match entries.find? fun (key, _) => (g.node key).tag == .value with
      | some (_, value) => g.wording fuel value
      | none => .error (.malformed .shape)

/-- Whether values with the given meaning are written as texts. -/
def Tag.isWritten : Tag → Bool
  | .null | .bool | .int | .float | .bytes | .moment | .text => true
  | _ => false

/-- What a node holds whose meaning is not one of collections.  A moment has to be a text itself. -/
def Graph.written (g : Graph) (id : NodeId) : Except Fault Content := do
  let node := g.node id
  if !node.tag.isWritten then return .plain (← valueOfText node.tag "")
  let wording ← g.wording (g.nodes.size + 1) id
  match node.tag, node.body, wording with
  | .moment, .mapping _, _ => unbuildable .notText
  | .float, _, .text text =>
    if isNoNumber text.toList then return .noNumber
    else return .plain (← valueOfText .float text)
  | tag, _, wording => return .plain (← valueOfWording tag wording)

/-- What is known while nodes are carried out. -/
structure Builder where
  graph : Graph
  /-- What each node holds, as far as it has been come across. -/
  contents : Array (Option Content)
  /-- The collections that have been come across, in order. -/
  collections : Array NodeId := #[]

/-- What a node holds, if it has been come across. -/
def Builder.content? (b : Builder) (id : NodeId) : Option Content :=
  b.contents.getD id none

/-- Notes what a node holds. -/
def Builder.set (id : NodeId) (content : Content) (b : Builder) : Builder :=
  { b with contents := b.contents.setIfInBounds id (some content) }

/-- Whether two nodes are the same key.  The number that is none is the same key as itself. -/
def Builder.sameKey (b : Builder) (first second : NodeId) : Bool :=
  first == second ||
    match b.content? first, b.content? second with
    | some (.plain a), some (.plain c) => a.sameKey c
    | some .noNumber, some .noNumber => true
    | _, _ => false

/-- Binds a key.  A key that is bound already keeps its place. -/
def Builder.put (b : Builder) (key value : NodeId) :
    List (NodeId × NodeId) → List (NodeId × NodeId)
  | [] => [(key, value)]
  | (k, v) :: rest =>
    if b.sameKey k key then (k, value) :: rest else (k, v) :: b.put key value rest

/-- A step of carrying out. -/
abbrev Building := StateT Builder (Except Fault)

/-- Carries out a node.  A collection is left empty, and has to be filled later. -/
def build (id : NodeId) : Building Content := do
  let b ← get
  match b.content? id with
  | some content => return content
  | none =>
    match (b.graph.node id).tag.emptyContent? with
    | some empty =>
      modify fun b => { b.set id empty with collections := b.collections.push id }
      return empty
    | none =>
      let content ← b.graph.written id
      modify (Builder.set id content)
      return content

/-- Carries out the entries of a mapping. -/
def buildEntries (entries : List (NodeId × NodeId)) : Building (List (NodeId × NodeId)) :=
  entries.foldlM (fun bound (key, value) => do
    unless (← build key).isKey do throw (.malformed .collectionAsKey)
    discard (build value)
    return (← get).put key value bound) []

/-- Carries out a pair, which is written as a mapping with one entry. -/
def buildPair (id : NodeId) : Building (NodeId × NodeId) := do
  match ((← get).graph.node id).body with
  | .mapping [(key, value)] =>
    discard (build key)
    discard (build value)
    return (key, value)
  | _ => throw (.malformed .shape)

/-- Carries out the merge keys of a mapping, and then its entries. -/
def buildMapping (count : Nat) (id : NodeId) : Building (List (NodeId × NodeId)) := do
  let graph ← (← get).graph.merge count id
  modify fun b => { b with graph }
  buildEntries (graph.entries id)

/-- Fills a collection, in a graph of at most `count` entries. -/
def fill (count : Nat) (id : NodeId) : Building Unit := do
  let node := (← get).graph.node id
  let content ← match node.tag, node.body with
    | .list, .list items => do
      items.forM fun item => discard (build item)
      pure (.list items)
    | .orderedMapping, .list items | .pairs, .list items =>
      pure (.pairs (← items.mapM buildPair))
    | .mapping, .mapping _ => pure (.map (← buildMapping count id))
    | .set, .mapping _ => pure (.set ((← buildMapping count id).map (·.1)))
    | _, _ => throw (.malformed .shape)
  modify (Builder.set id content)

/-- Fills the collections from the given one on, in the order in which they are come across. -/
def fillFrom (count : Nat) : Nat → Nat → Building Unit
  | 0, _ => return ()
  | fuel + 1, index => do
    match (← get).collections[index]? with
    | none => return ()
    | some id =>
      fill count id
      fillFrom count fuel (index + 1)

/-- What all nodes of a document hold. -/
def Document.contents (d : Document) : Except Fault (Array (Option Content)) := do
  let size := d.graph.nodes.size
  let building : Building Unit := do
    discard (build d.root)
    fillFrom d.graph.entryCount size 0
  let (_, b) ← building.run { graph := d.graph, contents := Array.replicate size none }
  return b.contents

end PackageScaffold.Yaml
