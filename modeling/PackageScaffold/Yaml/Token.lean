import PackageScaffold.Text.Wording
import PackageScaffold.Yaml.Cursor

/-!
# Tokens of a document

The pieces of a document: its separators and directives, the beginnings and ends of collections,
the indicators between their items, the properties of nodes, and text.  The beginnings and ends of
block collections are not written; the indentation of lines stands for them.
-/

namespace PackageScaffold.Yaml

/-- A line that says how the document behind it is to be read. -/
inductive Directive where
  | version (major minor : Nat)
  | handle (handle expansion : String)
  | other (name : String)
  deriving DecidableEq, Repr

/-- A tag as it is written: a handle, which directives expand, and the rest. -/
structure TagText where
  handle : Option String
  suffix : String
  deriving DecidableEq, Repr

/-- A piece of a document. -/
inductive Token where
  | directive (directive : Directive)
  | documentStart
  | documentEnd
  | blockList
  | blockMapping
  | blockEnd
  | flowList
  | flowListEnd
  | flowMapping
  | flowMappingEnd
  /-- The hyphen in front of an item of a block list. -/
  | blockEntry
  /-- The comma between the items of a flow collection. -/
  | flowEntry
  /-- What follows is a key. -/
  | key
  /-- What follows is the value of a key. -/
  | value
  | anchor (name : String)
  | alias (name : String)
  | tag (tag : TagText)
  | text (wording : Text.Wording) (isPlain : Bool)
  deriving DecidableEq, Repr

end PackageScaffold.Yaml
