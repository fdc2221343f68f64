import PackageScaffold.Path
import PackageScaffold.Project.Kind
import PackageScaffold.Project.Name
import PackageScaffold.Project.Platform
import PackageScaffold.Settings.Basic

/-!
# Project models

A model says everything about a project that its files depend on.  It is built from a request and
the settings, or directly from fields; both ways check names and texts.

## Main definitions

* `Variety`: the kind of a project together with its platforms, which a package has none of;
* `Model.ofRequest`: the model of a request, with defaults for what the request leaves out;
* `Model.ofFields`: the model with the given fields, every violation reported.
-/

namespace PackageScaffold

/-- The kind of a project, with the platforms of those kinds that have some. -/
inductive Variety where
  | application (platforms : List Platform)
  | plugin (platforms : List Platform)
  | package
  deriving DecidableEq, Repr, Inhabited

/-- The kind without its platforms. -/
def Variety.kind : Variety → Kind
  | .application _ => .application
  | .plugin _ => .plugin
  | .package => .package

/-- The platforms of a project; a package has none. -/
def Variety.platforms : Variety → List Platform
  | .application platforms | .plugin platforms => platforms
  | .package => []

/-- A kind with platforms. -/
def Variety.of (kind : Kind) (platforms : List Platform) : Variety :=
  match kind with
  | .application => .application platforms
  | .plugin => .plugin platforms
  | .package => .package

/-- Everything about a project that its files depend on. -/
structure Model where
  variety : Variety
  name : String
  description : String
  author : String
  organization : String
  /-- The directory that the project is written to. -/
  outputRoot : Path
  /-- Existing files may be overwritten. -/
  force : Bool
  deriving DecidableEq, Repr, Inhabited

/-- The kind of the project. -/
def Model.kind (m : Model) : Kind := m.variety.kind

/-- The platforms of the project. -/
def Model.platforms (m : Model) : List Platform := m.variety.platforms

/-- The description of a project that is given none. -/
def Kind.standardDescription : Kind → String
  | .application => "A new Flutter application."
  | .plugin => "A new Flutter plugin."
  | .package => "A new Dart package."

/-! ## Models from fields -/

/-- A required field. -/
def requiredField {α : Type} (entries : Entries) (name : String)
    (read : Value → Except Complaint α) : Checked α :=
  match Entries.get? entries name with
  | some value => Checked.ofField name (read value)
  | none => .error [⟨[name], .missing⟩]

/-- A text that satisfies a test. -/
def readTextWhere (test : String → Bool) (value : Value) : Except Complaint String := do
  let s ← Conversion.readText 0 value
  if test s then .ok s else .error .valueRefused

/-- A path. -/
def readPath : Value → Except Complaint Path
  | .text value => .ok (Path.ofString value)
  | _ => .error .pathExpected

/-- The platforms that the items of a list name exactly. -/
def readPlatformItems : Nat → List Value → Checked (List Platform)
  | _, [] => .ok []
  | index, item :: items =>
    let platform? := match item with
      | .text tag => Platform.ofTag? tag
      | _ => none
    match platform?, readPlatformItems (index + 1) items with
    | some platform, .ok platforms => .ok (platform :: platforms)
    | some _, .error violations => .error violations
    | none, rest =>
      .error (⟨["platforms", String.ofList (Nat.toDigits 10 index)], .unknownChoice⟩ ::
        Checked.violations rest)

/-- The platforms field: the standard platforms if it is absent, else a list with at least the
given number of items. -/
def readPlatformsField (least : Nat) (entries : Entries) : Checked (List Platform) :=
  match Entries.get? entries "platforms" with
  | none => .ok Platform.standard
  | some (.list items) =>
    match readPlatformItems 0 items with
    | .ok platforms =>
      if platforms.length < least then .error [⟨["platforms"], .tooFewItems⟩] else .ok platforms
    | .error violations => .error violations
  | some _ => .error [⟨["platforms"], .tupleExpected⟩]

/-- The kind field, which may only repeat the kind that is built. -/
def readKindField (kind : Kind) (entries : Entries) : Checked Unit :=
  match Entries.get? entries "kind" with
  | none => .ok ()
  | some (.text asked) => if asked == kind.text then .ok () else .error [⟨["kind"], .wrongKind⟩]
  | some _ => .error [⟨["kind"], .wrongKind⟩]

/-- A model of the given kind with the given fields.  All violations are reported together. -/
def Model.ofFields (kind : Kind) (entries : Entries) : Checked Model :=
  let name := requiredField entries "name" (readTextWhere Name.isPackageName)
  let description := requiredField entries "description" (Conversion.readText 1)
  let author := requiredField entries "author" (Conversion.readText 1)
  let organization := requiredField entries "organization" (readTextWhere Name.isOrganization)
  let outputRoot := requiredField entries "output_root" readPath
  let force := Settings.plainField entries "force" false Conversion.readTruth
  let kindField := readKindField kind entries
  let platforms : Checked (List Platform) := match kind with
    | .application => readPlatformsField 0 entries
    | .plugin => readPlatformsField 1 entries
    | .package => .ok []
  match name, description, author, organization, outputRoot, force, kindField, platforms with
  | .ok name, .ok description, .ok author, .ok organization, .ok outputRoot, .ok force, .ok (),
    .ok platforms =>
    .ok { variety := Variety.of kind platforms, name, description, author, organization,
          outputRoot, force }
  | _, _, _, _, _, _, _, _ =>
    .error (name.violations ++ description.violations ++ author.violations ++
      organization.violations ++ outputRoot.violations ++ force.violations ++
      kindField.violations ++ platforms.violations)

/-! ## Models from requests -/

/-- The platforms that a request asks for: tags in one text, or a list of tags. -/
inductive PlatformRequest where
  | text (tags : String)
  | list (tags : List String)
  deriving DecidableEq, Repr

/-- The platforms that are asked for. -/
def PlatformRequest.platforms : PlatformRequest → Except Misconfiguration (List Platform)
  | .text tags => Platform.ofText tags
  | .list tags => Platform.ofList tags

/-- What a user asks for.  Absent and empty options take their defaults. -/
structure Request where
  kind : Value
  name : Value
  description : Value := .null
  author : Value := .null
  organization : Option String := none
  platforms : Option PlatformRequest := none
  outputRoot : Value := .null
  force : Value := .bool false

/-- The value, unless it is empty. -/
def valueOr (default : String) (value : Value) : Value :=
  match value with
  | .null | .bool false | .text "" | .list [] | .map [] => .text default
  | .int n => if n == 0 then .text default else value
  | .float x => if x == 0.0 then .text default else value
  | _ => value

/-- The platforms of the requested project.  An application without any takes the standard ones, a
plugin needs at least one, and a package has none whatever is asked for. -/
def Request.selectPlatforms (request : Request) (settings : Settings) (kind : Kind) :
    Except Misconfiguration (List Platform) := do
  match kind with
  | .package => return []
  | .application =>
    let platforms ← (request.platforms.getD (.list settings.platforms)).platforms
    return if platforms.isEmpty then Platform.standard else platforms
  | .plugin =>
    let platforms ← (request.platforms.getD (.list settings.platforms)).platforms
    if platforms.isEmpty then throw .noPlatforms
    return platforms

/-- The organization that a request names, or that of the settings. -/
def Request.organizationOr (request : Request) (settings : Settings) : String :=
  match request.organization with
  | none | some "" => settings.organization
  | some organization => organization

/-- The valid name of the requested project. -/
def Request.validName (request : Request) : Except Failure String :=
  match request.name with
  | .text name =>
    if Name.isPackageName name then .ok name else .error (.misconfigured (.invalidName name))
  | .brokenText codes => .error (.misconfigured (.invalidName (Text.legible codes)))
  | _ => .error .mistyped

/-- Where the requested project is written to; without a place, to a directory of its name. -/
def Request.place (request : Request) (name : String) : Except Failure Path :=
  match request.outputRoot with
  | .null => .ok (Path.ofString name)
  | .text place => .ok (Path.ofString place)
  | _ => .error .mistyped

/-- The model of a request: the kind is looked at first, then the name, the organization, the place
and the platforms. -/
def Model.ofRequest (settings : Settings) (request : Request) : Except Failure Model := do
  let kind ← (Kind.ofValue request.kind).mapError .misconfigured
  let name ← request.validName
  let organization := request.organizationOr settings
  if !Name.isOrganization organization then
    throw (.misconfigured (.invalidOrganization organization))
  let outputRoot ← request.place name
  let platforms ← (request.selectPlatforms settings kind).mapError .misconfigured
  let description := Checked.ofField "description"
    (Conversion.readText 1 (valueOr kind.standardDescription request.description))
  let author := Checked.ofField "author"
    (Conversion.readText 1 (valueOr settings.author request.author))
  let force := Checked.ofField "force" (Conversion.readTruth request.force)
  match description, author, force with
  | .ok description, .ok author, .ok force =>
    return { variety := Variety.of kind platforms
             name, description, author, organization, outputRoot, force }
  | _, _, _ =>
    throw (.misconfigured <| .invalidModel <|
      description.violations ++ author.violations ++ force.violations)

end PackageScaffold
