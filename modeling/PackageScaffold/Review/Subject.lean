import PackageScaffold.Files.Disk
import PackageScaffold.Metadata
import PackageScaffold.Plan.Layout

/-!
# The package under review

What the rules need to know about a package: its metadata, and what follows from them — its name,
its kind, its platforms, and the layout that missing files are made with.

## Main definitions

* `Subject`;
* `Subject.ofDisk`: reads the package at a path.
-/

namespace PackageScaffold

/-- The name that files are made with where the metadata have no valid one. -/
def fallbackName : String := "package_name"

/-- A package under review. -/
structure Subject where
  root : Path
  strict : Bool
  /-- The metadata, if they are there and can be read. -/
  metadata : Option Entries
  /-- Why the metadata cannot be read. -/
  defect : Option String
  /-- The name of the package, if the metadata have a valid one. -/
  name : Option String
  kind : Kind
  platforms : List Platform
  /-- The layout that missing files are made with. -/
  layout : Layout

namespace Subject

/-- The name that metadata give to their package, if it is a valid one. -/
def nameIn (metadata : Entries) : Option String :=
  match Entries.get? metadata "name" with
  | some (.text name) => if Name.isPackageName name then some name else none
  | _ => none

/-- The description that metadata give, if it is a text that is not empty, or a broken one. -/
def descriptionIn (metadata : Entries) : Value :=
  match Entries.get? metadata "description" with
  | some (.text description) => .text description
  | some (.brokenText codes) => .brokenText codes
  | _ => .null

/-- The Android package that plugin metadata declare. -/
def androidPackageIn (metadata : Entries) : Option String := do
  let flutter ← Entries.get? metadata "flutter"
  let plugin ← flutter.get? "plugin"
  let platforms ← plugin.get? "platforms"
  let android ← platforms.get? "android"
  match android.get? "package" with
  | some (.text package) => some package
  | _ => none

/-- The text without the given ending, if it has it. -/
def withoutEnding (ending text : List Char) : List Char :=
  if ending.isSuffixOf text then text.take (text.length - ending.length) else text

/-- The organization that plugin metadata declare: the Android package, without the name of the
package at its end. -/
def organizationIn (metadata : Entries) (name : String) : Option String := do
  let package ← androidPackageIn metadata
  let organization := String.ofList (withoutEnding ('.' :: name.toList) package.toList)
  if Name.isOrganization organization then some organization else none

/-- The model that missing files are made from.  What the metadata declare is used if it makes a
valid model, and the defaults otherwise. -/
def modelFor (settings : Settings) (root : Path) (metadata : Entries) : Except Failure Model :=
  let name := (nameIn metadata).getD fallbackName
  let kind := Value.text (Kind.ofMetadata metadata).text
  let declared := Platform.declaredIn metadata
  let request : Request := {
    kind
    name := .text name
    description := descriptionIn metadata
    organization := organizationIn metadata name
    platforms := if declared.isEmpty then none else some (.list (declared.map Platform.text))
    outputRoot := .text root.text }
  match Model.ofRequest settings request with
  | .ok model => .ok model
  | .error _ =>
    Model.ofRequest .standard { kind, name := .text name, outputRoot := .text root.text }

/-- The metadata of the package at a path, or why they cannot be read; nothing if there are none. -/
def readMetadata (disk : Disk) (root : Path) :
    Except Failure (Option (Except String Entries)) := do
  let file := root.extend metadataFile
  if !(← disk.exists? file) then return none
  match disk.read file >>= Metadata.parse with
  | .ok metadata => return some (.ok metadata)
  | .error failure =>
    if failure.isExpected then return some (.error failure.message) else throw failure

/-- Reads the package at a path. -/
def ofDisk (settings : Settings) (today : Date) (strict : Bool) (root : Path) (disk : Disk) :
    Except Failure Subject := do
  let found ← readMetadata disk root
  let metadata? := found.bind Except.toOption
  let metadata := metadata?.getD []
  let model ← modelFor settings root metadata
  return {
    root, strict
    metadata := metadata?
    defect := match found with
      | some (.error reason) => some reason
      | _ => none
    name := nameIn metadata
    kind := Kind.ofMetadata metadata
    platforms := Platform.declaredIn metadata
    layout := model.layout today }

/-- A path inside the package. -/
def inside (subject : Subject) (path : String) : Path :=
  subject.root.extend path

/-- What the metadata say about a field; nothing if there are none. -/
def field? (subject : Subject) (name : String) : Option Value :=
  subject.metadata.bind (Entries.get? · name)

end Subject

end PackageScaffold
