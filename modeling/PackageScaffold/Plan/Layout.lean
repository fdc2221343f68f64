import PackageScaffold.Plan.Bindings
import PackageScaffold.Plan.Entry
import PackageScaffold.Plan.PathTree

/-!
# The layout of a project

Which files a project consists of, and which of them an existing project is given or a repair
brings back.

## Main definitions

* `Layout`: a model with the bindings that its files are made with;
* `Layout.plan`: everything a new project consists of;
* `Layout.conventions`: the files that bring an existing project up to the toolkit's conventions;
* `Layout.describe`: the plan as a tree.
-/

namespace PackageScaffold

/-- A model with the bindings that its files are made with. -/
structure Layout where
  model : Model
  bindings : Entries

/-- The layout of a model on a date. -/
def Model.layout (today : Date) (m : Model) : Layout := ⟨m, m.bindings today⟩

/-- Which of the conventional files are wanted. -/
structure Conventions where
  analysis : Bool := true
  workflow : Bool := true
  documents : Bool := true
  tests : Bool := true
  deriving DecidableEq, Repr, Inhabited

namespace Layout

/-- A file with the bindings of the layout. -/
def file (l : Layout) (path template : String) : PlanEntry :=
  .rendered path template l.bindings

/-! ## Single files -/

/-- The library that users of the project import. -/
def libraryPath (m : Model) : String := "lib/" ++ m.name ++ ".dart"

/-- The native part of a plugin on a platform. -/
def pluginStubPath (m : Model) : Platform → String
  | .android =>
    "android/src/main/java/" ++ m.androidPackagePath ++ "/" ++ m.pascalName ++ "Plugin.java"
  | .ios => "ios/Classes/Swift" ++ m.pascalName ++ "Plugin.swift"
  | .web => "lib/" ++ m.name ++ "_web.dart"
  | .windows => "windows/" ++ m.name ++ "_plugin.cpp"
  | .linux => "linux/" ++ m.name ++ "_plugin.cc"
  | .macos => "macos/Classes/" ++ m.pascalName ++ "Plugin.swift"

/-- The runner of an application on a platform. -/
def runnerPath (m : Model) : Platform → String
  | .android => "android/app/src/main/kotlin/" ++ m.androidPackagePath ++ "/MainActivity.kt"
  | .ios => "ios/Runner/AppDelegate.swift"
  | .web => "web/index.html"
  | .windows => "windows/runner/main.cpp"
  | .linux => "linux/main.cc"
  | .macos => "macos/Runner/AppDelegate.swift"

/-- The native part of a plugin on a platform. -/
def pluginStub (l : Layout) (platform : Platform) : PlanEntry :=
  l.file (pluginStubPath l.model platform) ("native/plugin/" ++ platform.text)

/-- The runner of an application on a platform. -/
def runner (l : Layout) (platform : Platform) : PlanEntry :=
  l.file (runnerPath l.model platform) ("native/app/" ++ platform.text)

/-- The first test, or the test that stands in for it. -/
def test (l : Layout) (placeholder : Bool) : PlanEntry :=
  l.file ("test/" ++ l.model.name ++ "_test.dart")
    (if placeholder then "dart/test_placeholder" else "dart/test")

/-- The public library of a package and the library that implements it. -/
def library (l : Layout) : List PlanEntry :=
  let exporting := { l with
    bindings := Entries.put l.bindings (.text "exports")
      (.list (l.model.exportRecords.map Value.map)) }
  [exporting.file (libraryPath l.model) "dart/library",
   exporting.file ("lib/src/" ++ l.model.name ++ "_base.dart") "dart/base_class"]

/-- The interface of a plugin. -/
def platformInterface (l : Layout) : PlanEntry :=
  l.file ("lib/src/" ++ l.model.name ++ "_platform_interface.dart") "dart/platform_interface"

/-- The implementation of a plugin that calls native code. -/
def methodChannel (l : Layout) : PlanEntry :=
  l.file ("lib/src/" ++ l.model.name ++ "_method_channel.dart") "dart/method_channel"

/-! ## Plans -/

/-- The template of the metadata of a kind. -/
def metadataTemplate : Kind → String
  | .application => "pubspec/app"
  | .plugin => "pubspec/plugin"
  | .package => "pubspec/package"

/-- The files that projects of every kind have. -/
def commonFiles (l : Layout) : List PlanEntry :=
  [l.file "pubspec.yaml" (metadataTemplate l.model.kind),
   l.file "README.md" "docs/readme",
   l.file "CHANGELOG.md" "docs/changelog",
   l.file "LICENSE" "docs/license_mit",
   l.file "analysis_options.yaml" "config/analysis_options",
   l.file ".gitignore" "config/gitignore",
   l.file ".github/workflows/ci.yml" "config/ci_workflow"]

/-- The further files of an application. -/
def applicationFiles (l : Layout) : List PlanEntry :=
  [l.file "lib/main.dart" "dart/app_main",
   l.file (libraryPath l.model) "dart/app_library",
   l.test false] ++
  l.model.platforms.map l.runner

/-- The further files of a plugin. -/
def pluginFiles (l : Layout) : List PlanEntry :=
  [l.file (libraryPath l.model) "dart/plugin_library",
   l.platformInterface,
   l.methodChannel,
   l.test false,
   l.file "example/pubspec.yaml" "pubspec/example",
   l.file "example/lib/main.dart" "example/plugin_main",
   l.file "example/README.md" "example/plugin_readme"] ++
  l.model.platforms.map l.pluginStub

/-- The further files of a package. -/
def packageFiles (l : Layout) : List PlanEntry :=
  l.library ++
  [l.test false,
   l.file ("example/" ++ l.model.name ++ "_example.dart") "example/package_main"]

/-- Everything a new project consists of. -/
def plan (l : Layout) : List PlanEntry :=
  match l.model.kind with
  | .application => withDirectories (l.commonFiles ++ l.applicationFiles) ["assets/images"]
  | .plugin => withDirectories (l.commonFiles ++ l.pluginFiles) []
  | .package => withDirectories (l.commonFiles ++ l.packageFiles) []

/-- The files that bring an existing project up to the conventions.  The test needs the name of
the package; without one only its directory is planned. -/
def conventions (l : Layout) (wanted : Conventions) (named : Bool) : List PlanEntry :=
  let files :=
    (if wanted.analysis then [l.file "analysis_options.yaml" "config/analysis_options"] else []) ++
    (if wanted.workflow then [l.file ".github/workflows/ci.yml" "config/ci_workflow"] else []) ++
    (if wanted.documents then
      [l.file "README.md" "docs/readme",
       l.file "CHANGELOG.md" "docs/changelog",
       l.file "LICENSE" "docs/license_mit"]
     else []) ++
    (if wanted.tests && named then [l.test true] else []) ++
    [l.file ".gitignore" "config/gitignore"]
  withDirectories files (if wanted.tests && !named then ["test"] else [])

/-- The plan as a tree, below the name of the project. -/
def describe (l : Layout) : PathTree :=
  PathTree.ofPaths l.model.name <| l.plan.map fun entry =>
    if entry.isDirectory then entry.path ++ "/" else entry.path

end Layout

/-- A path with its markers replaced.  A marker without a value is refused. -/
def expandPath (path : String) (bindings : Entries) : Except Template.Fault String :=
  Template.expandStrict path bindings

end PackageScaffold
