import PackageScaffold.Template.Node
import PackageScaffold.Value.Display

/-!
# Expansion

A tree is expanded against a chain of scopes, innermost first.  A variable is replaced by the text
of its value.  The body of a section is written once for a value that counts as true, once for a
mapping, which is put in front of the scopes, and once for every item of a list; an item that is no
mapping is bound to the dot.

## Main definitions

* `Scopes.get?`: the value of a name in the first scope that binds it;
* `bodyScopes`: the chains of scopes that the body of a section is written in, one for each time;
* `expand`, `expandStrict`: the text of a template; the strict form refuses what the other leaves
  as it is written.
-/

namespace PackageScaffold.Template

/-- Mappings that names are looked up in, innermost first. -/
abbrev Scopes := List Entries

/-- The value of a name in the first scope that binds it. -/
def Scopes.get? (scopes : Scopes) (name : String) : Option Value :=
  match scopes with
  | [] => none
  | scope :: outer =>
    match Entries.get? scope name with
    | some value => some value
    | none => Scopes.get? outer name

/-- The text of a value that can stand for a variable: a truth value, a number or a text. -/
def scalarText? : Value → Option String
  | .bool true => some "true"
  | .bool false => some "false"
  | .text value => some value
  | .int value => some (Value.wholeText value)
  | .float value => some (Decimal.text value)
  | _ => none

/-- Whether a value counts as true: zero and what is empty do not. -/
def isTruthy : Value → Bool
  | .null => false
  | .bool value => value
  | .int value => value != 0
  | .float value => !(value == 0.0)
  | .text value => !value.isEmpty
  | .list items => !items.isEmpty
  | .map entries => !entries.isEmpty
  | .bytes value => !value.isEmpty
  | .set members => !members.isEmpty
  | .brokenText codes => !codes.isEmpty
  | .date _ | .moment _ | .pair _ _ | .again _ _ => true

/-- The scope that an item of a list opens. -/
def itemScope (item : Value) : Entries :=
  match item.entries? with
  | some entries => entries
  | none => [(.text ".", item)]

/-- The chains of scopes that the body of a section is written in, one for each time. -/
def bodyScopes (scopes : Scopes) : Option Value → List Scopes
  | none => []
  | some value =>
    match value.items?, value.entries? with
    | some items, _ => items.map fun item => itemScope item :: scopes
    | none, some entries => [entries :: scopes]
    | none, none => if isTruthy value then [scopes] else []

mutual

/-- The text of a node.  A variable without a text stays as it is written. -/
def Node.expand (scopes : Scopes) : Node → String
  | .literal text => text
  | .variable name source => ((Scopes.get? scopes name).bind scalarText?).getD source
  | .block name children _ _ =>
    String.join ((bodyScopes scopes (Scopes.get? scopes name)).map fun inner =>
      Node.expandAll inner children)

/-- The text of a sequence of nodes. -/
def Node.expandAll (scopes : Scopes) : List Node → String
  | [] => ""
  | node :: nodes => node.expand scopes ++ Node.expandAll scopes nodes

end

mutual

/-- The text of a node.  A variable without a text is a fault. -/
def Node.expandStrict (scopes : Scopes) : Node → Except Fault String
  | .literal text => .ok text
  | .variable name _ =>
    match (Scopes.get? scopes name).bind scalarText? with
    | some text => .ok text
    | none => .error (.unresolved name)
  | .block name children _ _ => do
    let texts ← (bodyScopes scopes (Scopes.get? scopes name)).mapM fun inner =>
      Node.expandAllStrict inner children
    return String.join texts

/-- The text of a sequence of nodes, or the first fault in it. -/
def Node.expandAllStrict (scopes : Scopes) : List Node → Except Fault String
  | [] => .ok ""
  | node :: nodes => do
    let text ← node.expandStrict scopes
    let texts ← Node.expandAllStrict scopes nodes
    return text ++ texts

end

/-- The text of a template under the given bindings; what cannot be resolved stays as it is
written. -/
def expand (template : String) (bindings : Entries) : String :=
  Node.expandAll [bindings] (parse template)

/-- The text of a template under the given bindings, if its markers are well nested and all of its
variables that are reached have a text. -/
def expandStrict (template : String) (bindings : Entries) : Except Fault String := do
  Node.expandAllStrict [bindings] (← parseStrict template)

/-- The text of a template, strictly or not. -/
def expandWith (strict : Bool) (template : String) (bindings : Entries) : Except Fault String :=
  if strict then expandStrict template bindings else .ok (expand template bindings)

end PackageScaffold.Template
