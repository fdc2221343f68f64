import PackageScaffold.Text.Wording
import PackageScaffold.Yaml.Fault
import PackageScaffold.Yaml.Resolution

/-!
# Graphs of nodes

A document is a graph of nodes: texts, lists and mappings, each with a meaning.  An alias leads to
the node that it names, so that one node can be in several places, and a collection inside itself.
Nodes are known by their numbers, which the items of a list and the entries of a mapping hold.

A merge key brings the entries of other mappings into its own.  Merging changes the graph: the merge
keys of a mapping vanish, and what they bring stands in front of the other entries, wherever the
mapping is looked at afterwards.

## Main definitions

* `Node`, `Graph`;
* `Graph.merge`: carries out the merge keys of a mapping.
-/

namespace PackageScaffold.Yaml

open Text

/-- The number of a node. -/
abbrev NodeId := Nat

/-- What a node consists of. -/
inductive Body where
  | text (wording : Wording)
  | list (items : List NodeId)
  | mapping (entries : List (NodeId × NodeId))
  deriving DecidableEq, Repr

/-- A node of a document. -/
structure Node where
  tag : Tag
  body : Body
  deriving DecidableEq, Repr

/-- The node for a value that is left out. -/
def Node.empty : Node :=
  ⟨.null, .text (.text "")⟩

instance : Inhabited Node := ⟨.empty⟩

/-- The nodes of a document, each at the place of its number. -/
structure Graph where
  nodes : Array Node := #[]
  deriving Repr

namespace Graph

/-- The node with the given number. -/
def node (g : Graph) (id : NodeId) : Node :=
  g.nodes.getD id .empty

/-- The number that the next node gets. -/
def next (g : Graph) : NodeId :=
  g.nodes.size

/-- Adds a node. -/
def add (node : Node) (g : Graph) : Graph :=
  ⟨g.nodes.push node⟩

/-- Changes what a node consists of. -/
def setBody (id : NodeId) (body : Body) (g : Graph) : Graph :=
  ⟨g.nodes.modify id fun node => { node with body }⟩

/-- Changes the meaning of a node. -/
def setTag (id : NodeId) (tag : Tag) (g : Graph) : Graph :=
  ⟨g.nodes.modify id fun node => { node with tag }⟩

/-- The entries of a mapping; other nodes have none. -/
def entries (g : Graph) (id : NodeId) : List (NodeId × NodeId) :=
  match (g.node id).body with
  | .mapping entries => entries
  | _ => []

/-- How many entries all mappings have together. -/
def entryCount (g : Graph) : Nat :=
  g.nodes.foldl (fun count node =>
    match node.body with
    | .mapping entries => count + entries.length
    | _ => count) 0

/-! ## Merging -/

/-- To a mapping, the key for its plain value is an ordinary text. -/
def plainKeys (keys : List NodeId) (g : Graph) : Graph :=
  keys.foldl (fun g key => if (g.node key).tag == .value then g.setTag key .text else g) g

/-- Carries out the merge keys of a mapping behind its first `index` entries, where `brought` are
the entries that the merge keys so far have brought in.  A mapping whose entries are brought in has
its own merge keys carried out first.  Of several mappings under one merge key, the last comes
first.

Every step takes a merge key out of the graph and none comes in, so as many steps as there are
entries are enough, even where mappings bring in each other. -/
def mergeFrom : Nat → NodeId → Nat → List (NodeId × NodeId) → Graph → Except Fault Graph
  | 0, _, _, _, _ => .error (.unbuildable .tooDeep)
  | fuel + 1, id, index, brought, g =>
    let entries := g.entries id
    let isPlain (entry : NodeId × NodeId) : Bool := (g.node entry.1).tag != .merge
    let passed := (entries.drop index).takeWhile isPlain
    let g := g.plainKeys (passed.map (·.1))
    match entries.drop (index + passed.length) with
    | [] => .ok (if brought.isEmpty then g else g.setBody id (.mapping (brought ++ entries)))
    | (_, source) :: rest => do
      let index := index + passed.length
      let g := g.setBody id (.mapping (entries.take index ++ rest))
      match (g.node source).body with
      | .mapping _ =>
        let g ← mergeFrom fuel source 0 [] g
        mergeFrom fuel id index (brought ++ g.entries source) g
      | .list items =>
        let bring (state : List (NodeId × NodeId) × Graph) (item : NodeId) :
            Except Fault (List (NodeId × NodeId) × Graph) :=
          match (state.2.node item).body with
          | .mapping _ => do
            let g ← mergeFrom fuel item 0 [] state.2
            return (g.entries item ++ state.1, g)
          | _ => .error (.malformed .merge)
        let (more, g) ← items.foldlM bring ([], g)
        mergeFrom fuel id index (brought ++ more) g
      | .text _ => .error (.malformed .merge)

/-- Carries out the merge keys of a mapping, in a graph of at most `count` entries. -/
def merge (count : Nat) (id : NodeId) (g : Graph) : Except Fault Graph :=
  mergeFrom (count + 1) id 0 [] g

end Graph

end PackageScaffold.Yaml
