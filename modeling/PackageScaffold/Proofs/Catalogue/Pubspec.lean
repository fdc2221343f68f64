import PackageScaffold.Plan.Layout
import PackageScaffold.Proofs.Catalogue.Rendering
import PackageScaffold.Proofs.Template.Strict

/-!
# The text of metadata

What the metadata templates are rendered to, for every project, strictly or not.

* `Model.applicationMetadata`, `Model.pluginMetadata`, `Model.packageMetadata`: the texts of the
  metadata of the three kinds;
* `Catalogue.render_metadata`: these texts are what the templates are rendered to.
-/

namespace PackageScaffold

/-! ## The text of the metadata -/

namespace Model

/-- The text of the metadata of an application. -/
def applicationMetadata (m : Model) : String :=
  "name: " ++ m.name ++ "\ndescription: " ++ Json.quote m.description ++
  "\npublish_to: none\nversion: " ++ m.kind.firstVersion ++
  "+1\n\nenvironment:\n  sdk: " ++ sdkConstraint ++
  "\n  flutter: \"" ++ flutterConstraint ++
  "\"\n\ndependencies:\n  flutter:\n    sdk: flutter\n  cupertino_icons: ^1.0.8\n" ++
  "\ndev_dependencies:\n  flutter_test:\n    sdk: flutter\n  flutter_lints: ^5.0.0\n" ++
  "\nflutter:\n  uses-material-design: true\n" ++ "  assets:\n" ++ "    - " ++ "assets/images/" ++
  "\n"

/-- What the metadata of a plugin say of one of its platforms. -/
def platformMetadata (m : Model) (platform : Platform) : String :=
  "      " ++ platform.text ++ ":\n" ++
  (if platform = .android then "        package: " ++ m.androidPackage ++ "\n" else "") ++
  "        pluginClass: " ++ platform.pluginClass m.pascalName ++ "\n" ++
  (if platform = .web then "        fileName: " ++ m.name ++ "_web.dart" ++ "\n" else "")

/-- The text of the metadata of a plugin. -/
def pluginMetadata (m : Model) : String :=
  "name: " ++ m.name ++ "\ndescription: " ++ Json.quote m.description ++
  "\nversion: " ++ m.kind.firstVersion ++
  "\nhomepage: " ++ m.repository ++ "\nrepository: " ++ m.repository ++
  "\nissue_tracker: " ++ m.repository ++ "/issues" ++
  "\ndocumentation: " ++ "https://pub.dev/documentation/" ++ m.name ++ "/latest/" ++
  "\n\nenvironment:\n  sdk: " ++ sdkConstraint ++
  "\n  flutter: \"" ++ flutterConstraint ++
  "\"\n\ndependencies:\n  flutter:\n    sdk: flutter\n  plugin_platform_interface: ^2.1.8\n" ++
  (if .web ∈ m.platforms then "  flutter_web_plugins:\n    sdk: flutter\n  web: ^1.1.0\n" else "") ++
  "\ndev_dependencies:\n  flutter_test:\n    sdk: flutter\n  flutter_lints: ^5.0.0\n" ++
  "\nflutter:\n  plugin:\n    platforms:\n" ++
  String.join (m.platforms.map m.platformMetadata)

/-- The text of the metadata of a pure package. -/
def packageMetadata (m : Model) : String :=
  "name: " ++ m.name ++ "\ndescription: " ++ Json.quote m.description ++
  "\nversion: " ++ m.kind.firstVersion ++
  "\nhomepage: " ++ m.repository ++ "\nrepository: " ++ m.repository ++
  "\nissue_tracker: " ++ m.repository ++ "/issues" ++
  "\ndocumentation: " ++ "https://pub.dev/documentation/" ++ m.name ++ "/latest/" ++
  "\n\nenvironment:\n  sdk: " ++ sdkConstraint ++
  "\n\ndependencies:\n  meta: ^1.15.0\n" ++ "\ndev_dependencies:\n  lints: ^5.0.0\n  test: ^1.25.0\n"

/-- The text of the metadata of a project. -/
def metadataText (m : Model) : String :=
  match m.kind with
  | .application => m.applicationMetadata
  | .plugin => m.pluginMetadata
  | .package => m.packageMetadata

end Model

namespace Catalogue

open Template

/-- A variable as it stands in a template. -/
def variableNode (name : String) : Node :=
  .variable name (var name)

/-- A section as it stands in a template. -/
def sectionNode (name : String) (children : List Node) : Node :=
  .block name children (opens name) (closes name)

/-- The tree of a section for further dependencies. -/
def dependencyNode (name : String) : Node :=
  sectionNode name
    [.literal "  ", variableNode "name", .literal ": ", variableNode "version", .literal "\n"]

/-- The tree of the metadata template of applications. -/
def applicationPubspecNodes : List Node :=
  [.literal "name: ", variableNode "project_name",
   .literal "\ndescription: ", variableNode "description_yaml",
   .literal "\npublish_to: none\nversion: ", variableNode "version",
   .literal "+1\n\nenvironment:\n  sdk: ", variableNode "sdk_constraint",
   .literal "\n  flutter: \"", variableNode "flutter_constraint",
   .literal "\"\n\ndependencies:\n  flutter:\n    sdk: flutter\n  cupertino_icons: ^1.0.8\n",
   dependencyNode "dependencies",
   .literal "\ndev_dependencies:\n  flutter_test:\n    sdk: flutter\n  flutter_lints: ^5.0.0\n",
   dependencyNode "dev_dependencies",
   .literal "\nflutter:\n  uses-material-design: true\n",
   sectionNode "has_assets"
    [.literal "  assets:\n",
     sectionNode "assets" [.literal "    - ", variableNode "path", .literal "\n"]]]

/-- The tree of the part of the metadata that is about one platform. -/
def platformNodes : List Node :=
  [.literal "      ", variableNode "platform", .literal ":\n",
   sectionNode "android"
    [.literal "        package: ", variableNode "package", .literal "\n"],
   .literal "        pluginClass: ", variableNode "plugin_class", .literal "\n",
   sectionNode "web" [.literal "        fileName: ", variableNode "file_name", .literal "\n"]]

/-- The tree of the metadata template of plugins. -/
def pluginPubspecNodes : List Node :=
  [.literal "name: ", variableNode "project_name",
   .literal "\ndescription: ", variableNode "description_yaml",
   .literal "\nversion: ", variableNode "version",
   .literal "\nhomepage: ", variableNode "homepage",
   .literal "\nrepository: ", variableNode "repository",
   .literal "\nissue_tracker: ", variableNode "issue_tracker",
   .literal "\ndocumentation: ", variableNode "documentation",
   .literal "\n\nenvironment:\n  sdk: ", variableNode "sdk_constraint",
   .literal "\n  flutter: \"", variableNode "flutter_constraint",
   .literal
    "\"\n\ndependencies:\n  flutter:\n    sdk: flutter\n  plugin_platform_interface: ^2.1.8\n",
   sectionNode "has_web" [.literal "  flutter_web_plugins:\n    sdk: flutter\n  web: ^1.1.0\n"],
   dependencyNode "dependencies",
   .literal "\ndev_dependencies:\n  flutter_test:\n    sdk: flutter\n  flutter_lints: ^5.0.0\n",
   dependencyNode "dev_dependencies",
   .literal "\nflutter:\n  plugin:\n    platforms:\n",
   sectionNode "platforms" platformNodes]

/-- The tree of the metadata template of packages. -/
def packagePubspecNodes : List Node :=
  [.literal "name: ", variableNode "project_name",
   .literal "\ndescription: ", variableNode "description_yaml",
   .literal "\nversion: ", variableNode "version",
   .literal "\nhomepage: ", variableNode "homepage",
   .literal "\nrepository: ", variableNode "repository",
   .literal "\nissue_tracker: ", variableNode "issue_tracker",
   .literal "\ndocumentation: ", variableNode "documentation",
   .literal "\n\nenvironment:\n  sdk: ", variableNode "sdk_constraint",
   .literal "\n\ndependencies:\n  meta: ^1.15.0\n",
   dependencyNode "dependencies",
   .literal "\ndev_dependencies:\n  lints: ^5.0.0\n  test: ^1.25.0\n",
   dependencyNode "dev_dependencies"]

/-- Whether tokens are those of a tree. -/
def isTree (nodes : List Node) (tokens : List Token) : Bool :=
  tokens == Node.lineTokensAll nodes

/-- The metadata templates with their trees. -/
def pubspecTrees : List (String × List Node) :=
  [(applicationPubspec, applicationPubspecNodes),
   (pluginPubspec, pluginPubspecNodes),
   (packagePubspec, packagePubspecNodes)]

theorem isTree_of_mem_pubspecTrees {template : String} {nodes : List Node}
    (h : (template, nodes) ∈ pubspecTrees) : isTree nodes (tokenize template) = true := by
  simp only [pubspecTrees, List.mem_cons, Prod.mk.injEq, List.not_mem_nil, or_false] at h
  rcases h with ⟨rfl, rfl⟩ | ⟨rfl, rfl⟩ | ⟨rfl, rfl⟩
  all_goals apply checked_of_chars
  any_goals unfold applicationPubspec
  any_goals unfold pluginPubspec
  any_goals unfold packagePubspec
  -- the characters come first, line by line, and then what is scanned from them
  all_goals
    repeat' with_reducible first
      | exact toList_lines_nil
      | apply toList_lines_cons
      | apply toList_var
      | apply toList_opens
      | apply toList_closes
      | apply toList_append_of
      | exact String.toList_ofList
  all_goals decide +kernel

/-- The metadata templates are spelled by their trees. -/
theorem spells_of_mem_pubspecTrees {template : String} {nodes : List Node}
    (h : (template, nodes) ∈ pubspecTrees) : Spells (tokenize template) nodes := by
  rw [show tokenize template = _ from beq_iff_eq.mp (isTree_of_mem_pubspecTrees h)]
  exact Node.spells_lineTokensAll _

/-! ## What it is rendered to -/

variable (m : Model) (today : Date)

theorem writes_applicationPubspecNodes (hkind : m.kind = .application) :
    Writes [m.bindings today] applicationPubspecNodes m.applicationMetadata := by
  have hassets : Scopes.get? [m.bindings today] "has_assets" = some (.bool true) := by
    change some (Value.bool (m.kind == .application)) = _
    rw [hkind]
    rfl
  have hpaths : Scopes.get? [m.bindings today] "assets" = some (.list
      ((["assets/images/"].map fun path => [Model.textBinding "path" path]).map Value.map)) := by
    change some (Value.list ((if m.kind == .application then _ else []).map Value.map)) = _
    rw [hkind]
    rfl
  have hwrites : Writes [m.bindings today] applicationPubspecNodes _ :=
    .literal _ <| .value _ rfl <| .literal _ <| .value _ rfl <| .literal _ <| .value _ rfl <|
    .literal _ <| .value _ rfl <| .literal _ <| .value _ rfl <| .literal _ <| .unwritten rfl <|
    .literal _ <| .unwritten rfl <| .literal _ <|
    .switch hassets (.literal _ <| .records hpaths (fun _ _ => .literal _ <| .value _ rfl <|
      .literal _ .nil) .nil) .nil
  refine hwrites.of_eq ?_
  unfold Model.applicationMetadata
  simp [String.append_assoc, -String.reduceAppend]

theorem writes_platformNodes (platform : Platform) (outer : Scopes) :
    Writes (m.platformRecord platform :: outer) platformNodes (m.platformMetadata platform) := by
  have hwrites : Writes (m.platformRecord platform :: outer) platformNodes _ :=
    .literal _ <| .value _ rfl <| .literal _ <|
      .switch rfl (.literal _ <| .value _ rfl <| .literal _ .nil) <|
      .literal _ <| .value _ rfl <| .literal _ <|
      .switch rfl (.literal _ <| .value _ rfl <| .literal _ .nil) .nil
  refine hwrites.of_eq ?_
  unfold Model.platformMetadata
  cases platform <;> simp [String.append_assoc, -String.reduceAppend]

theorem writes_pluginPubspecNodes :
    Writes [m.bindings today] pluginPubspecNodes m.pluginMetadata := by
  have hwrites : Writes [m.bindings today] pluginPubspecNodes _ :=
    .literal _ <| .value _ rfl <| .literal _ <| .value _ rfl <| .literal _ <| .value _ rfl <|
    .literal _ <| .value _ rfl <| .literal _ <| .value _ rfl <| .literal _ <| .value _ rfl <|
    .literal _ <| .value _ rfl <| .literal _ <| .value _ rfl <| .literal _ <| .value _ rfl <|
    .literal _ <| .switch rfl (.literal _ .nil) <|
    .unwritten rfl <| .literal _ <| .unwritten rfl <| .literal _ <|
    .records rfl (fun platform _ => writes_platformNodes m platform _) .nil
  refine hwrites.of_eq ?_
  unfold Model.pluginMetadata
  simp [String.append_assoc, -String.reduceAppend]

theorem writes_packagePubspecNodes :
    Writes [m.bindings today] packagePubspecNodes m.packageMetadata := by
  have hwrites : Writes [m.bindings today] packagePubspecNodes _ :=
    .literal _ <| .value _ rfl <| .literal _ <| .value _ rfl <| .literal _ <| .value _ rfl <|
    .literal _ <| .value _ rfl <| .literal _ <| .value _ rfl <| .literal _ <| .value _ rfl <|
    .literal _ <| .value _ rfl <| .literal _ <| .value _ rfl <|
    .literal _ <| .unwritten rfl <| .literal _ <| .unwritten rfl .nil
  refine hwrites.of_eq ?_
  unfold Model.packageMetadata
  simp [String.append_assoc, -String.reduceAppend]

/-- What the metadata template of its kind is rendered to for a project. -/
theorem render_metadata (strict : Bool) :
    standard.render strict (Layout.metadataTemplate m.kind) (m.bindings today) =
      .ok m.metadataText := by
  unfold Model.metadataText
  cases hkind : m.kind with
  | application =>
      rw [Layout.metadataTemplate, render_of_lookup applicationPubspec rfl,
        expandWith_of_writes (spells_of_mem_pubspecTrees (by simp [pubspecTrees]))
          (writes_applicationPubspecNodes m today hkind)]
      rfl
  | plugin =>
      rw [Layout.metadataTemplate, render_of_lookup pluginPubspec rfl,
        expandWith_of_writes (spells_of_mem_pubspecTrees (by simp [pubspecTrees]))
          (writes_pluginPubspecNodes m today)]
      rfl
  | package =>
      rw [Layout.metadataTemplate, render_of_lookup packagePubspec rfl,
        expandWith_of_writes (spells_of_mem_pubspecTrees (by simp [pubspecTrees]))
          (writes_packagePubspecNodes m today)]
      rfl

end Catalogue

end PackageScaffold
