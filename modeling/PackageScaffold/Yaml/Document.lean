import PackageScaffold.Yaml.Content

/-!
# Values of documents

A document is a graph, and its value is a tree.  A node in several places is a value in each of
them; a collection inside itself is written out down to where it comes again.

## Main definitions

* `valueAt`: the value that a node stands for;
* `read`: the value of a text.
-/

namespace PackageScaffold.Yaml

/-- The value of a node that holds no other nodes. -/
def Content.self? : Content → Option Value
  | .plain value => some value
  | .noNumber => some (.float (0.0 / 0.0))
  | _ => none

/-- The shape of a collection. -/
def Content.shape : Content → Shape
  | .map _ => .map
  | _ => .list

/-- The values of nodes that lead back to no collection around them. -/
abbrev Known := Array (Option Value)

/-- The value that a node stands for inside the collections of `path`, and whether it leads back to
none of them, nor to itself.  If so, it stands for the same value everywhere.  Each step inwards
takes one off the fuel; a collection that comes again begins anew when it is looked into. -/
def valueAt (contents : Array (Option Content)) :
    Nat → List NodeId → NodeId → StateM Known (Value × Bool)
  | 0, _, _ => return (.null, true)
  | fuel + 1, path, id => do
    let known ← get
    let content := (contents.getD id none).getD (.plain .null)
    match (known.getD id none).or content.self? with
    | some value => return (value, true)
    | none =>
      if path.contains id then
        let anew (_ : Unit) : Value := ((valueAt contents fuel [] id).run known).run.1.1
        return (.again content.shape anew, false)
      let pair (entry : NodeId × NodeId) : StateM Known ((Value × Value) × Bool) := do
        let (first, isFirstFree) ← valueAt contents fuel (id :: path) entry.1
        let (second, isSecondFree) ← valueAt contents fuel (id :: path) entry.2
        return ((first, second), isFirstFree && isSecondFree)
      let (value, isFree) ← match content with
        | .map entries => do
          let entries ← entries.mapM pair
          pure (Value.map (entries.map (·.1)), entries.all (·.2))
        | .pairs items => do
          let items ← items.mapM pair
          pure (Value.list (items.map fun item => .pair item.1.1 item.1.2), items.all (·.2))
        | .set members => do
          let members ← members.mapM (valueAt contents fuel (id :: path))
          pure (Value.set (members.map (·.1)), members.all (·.2))
        | .list items => do
          let items ← items.mapM (valueAt contents fuel (id :: path))
          pure (Value.list (items.map (·.1)), items.all (·.2))
        | .plain _ | .noNumber => pure (.null, true)
      if isFree then modify fun known => known.setIfInBounds id (some value)
      return (value, isFree)

/-- How many collections that come again can be looked into, one inside the other. -/
def mostRounds : Nat := 6

/-- The value of a node in a document.  Of a mapping, every entry is a value by itself, in which the
mapping can come again. -/
def valueOf (contents : Array (Option Content)) (root : NodeId) : Value :=
  let fuel := mostRounds * (contents.size + 1)
  let value (id : NodeId) : StateM Known Value := do
    let (value, _) ← valueAt contents fuel [] id
    return value
  let entry (nodes : NodeId × NodeId) : StateM Known (Value × Value) := do
    let first ← value nodes.1
    let second ← value nodes.2
    return (first, second)
  let whole : StateM Known Value := do
    match contents.getD root none with
    | some (.map entries) => return .map (← entries.mapM entry)
    | _ => value root
  (whole.run (Array.replicate contents.size none)).run.1

/-- The value of the only document of a text.  A text without a document has the value null. -/
def read (text : String) : Except Fault Value := do
  match ← (Tokens.ofText text.toList).document? with
  | none => return .null
  | some document => return valueOf (← document.contents) document.root

end PackageScaffold.Yaml
