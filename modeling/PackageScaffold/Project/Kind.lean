import PackageScaffold.Failure
import PackageScaffold.Text.Blank
import PackageScaffold.Text.Case
import PackageScaffold.Value.Display

/-!
# Project kinds

A project is an application, a plugin (a library with native parts), or a pure package.
-/

namespace PackageScaffold

/-- The kinds of projects. -/
inductive Kind where
  | application
  | plugin
  | package
  deriving DecidableEq, Repr, Inhabited

namespace Kind

/-- All kinds. -/
def all : List Kind := [.application, .plugin, .package]

/-- The full name of a kind. -/
def text : Kind → String
  | .application => "application"
  | .plugin => "library-component"
  | .package => "pure-library"

/-- The short name of a kind. -/
def shortName : Kind → String
  | .application => "app"
  | .plugin => "plugin"
  | .package => "package"

/-- The kind in a sentence. -/
def label : Kind → String
  | .application => "application"
  | .plugin => "plugin"
  | .package => "package"

/-- The kind with the given short or full name. -/
def ofName? (name : String) : Option Kind :=
  all.find? fun kind => kind.shortName == name || kind.text == name

/-- The kind that a value names.  Case and blanks around it do not count. -/
def ofValue (value : Value) : Except Misconfiguration Kind :=
  match ofName? (Text.lower (Text.trim value.display)) with
  | some kind => .ok kind
  | none => .error (.unknownKind value.display)

/-- The kind of an existing project by its metadata: a plugin section makes a plugin, any other
sign of Flutter an application. -/
def ofMetadata (metadata : Entries) : Kind :=
  let flutter := (Entries.get? metadata "flutter").getD .null
  let dependencies := (Entries.get? metadata "dependencies").getD .null
  if (flutter.get? "plugin").isSome then .plugin
  else
    match flutter with
    | .null => if (dependencies.get? "flutter").isSome then .application else .package
    | _ => .application

end Kind

end PackageScaffold
