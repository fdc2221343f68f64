import PackageScaffold.Json.Writer
import PackageScaffold.Project.Model

/-!
# Bindings of a project

What the templates of a project may refer to: its names and texts, the date, the switches of its
kind, and one record for each of its platforms.

## Main definitions

* `Model.bindings`: all bindings of a project on a date;
* `Model.platformRecord`: the bindings of one platform.
-/

namespace PackageScaffold

/-- The versions of the Dart tools that new projects ask for. -/
def sdkConstraint : String := "^3.7.0-0"

/-- The versions of Flutter that new projects ask for. -/
def flutterConstraint : String := ">=3.24.0"

/-- The first version of a project. -/
def Kind.firstVersion : Kind → String
  | .application => "1.0.0"
  | .plugin => "0.0.1"
  | .package => "1.0.0"

/-- What a new project of a kind offers. -/
def Kind.features : Kind → List String
  | .application =>
    ["Material 3 starter UI", "Widget test for the home page", "Continuous integration workflow"]
  | .plugin =>
    ["Federated platform interface", "Method channel default implementation",
     "Native stubs for every supported platform"]
  | .package =>
    ["Pure Dart, no Flutter dependency", "Public API separated from implementation",
     "Unit tests with package:test"]

/-- The class that implements a plugin on a platform. -/
def Platform.pluginClass (pascalName : String) : Platform → String
  | .android => pascalName ++ "Plugin"
  | .ios => "Swift" ++ pascalName ++ "Plugin"
  | .web => pascalName ++ "Web"
  | .windows => pascalName ++ "PluginCApi"
  | .linux => pascalName ++ "Plugin"
  | .macos => pascalName ++ "Plugin"

namespace Model

/-- The name of the project as the name of a class. -/
def pascalName (m : Model) : String := Name.pascalCase m.name

/-- The package of the Android sources: the organization and the name. -/
def androidPackage (m : Model) : String := m.organization ++ "." ++ m.name

/-- The directory of the Android sources. -/
def androidPackagePath (m : Model) : String :=
  String.ofList (m.androidPackage.toList.map fun c => if c == '.' then '/' else c)

/-- Where the project would be published. -/
def repository (m : Model) : String := "https://github.com/yourorg/" ++ m.name

/-- How the project is used. -/
def usageExample (m : Model) : String :=
  match m.kind with
  | .application =>
    "// Start the app\nvoid main() => runApp(const " ++ m.pascalName ++ "App());"
  | .plugin =>
    "import 'package:" ++ m.name ++ "/" ++ m.name ++ ".dart';\n\n" ++
      "final version = await " ++ m.pascalName ++ "().getPlatformVersion();"
  | .package =>
    "import 'package:" ++ m.name ++ "/" ++ m.name ++ ".dart';\n\n" ++
      "const instance = " ++ m.pascalName ++ "();\n" ++ "print(instance.hello());"

/-- A binding of a name to a text. -/
def textBinding (name value : String) : Value × Value := (.text name, .text value)

/-- A binding of a name to a switch. -/
def switchBinding (name : String) (value : Bool) : Value × Value := (.text name, .bool value)

/-- A binding of a name to a list. -/
def listBinding (name : String) (items : List Entries) : Value × Value :=
  (.text name, .list (items.map Value.map))

/-- The bindings of one platform: a switch that is on for this platform alone, and what the
metadata says about it. -/
def platformRecord (m : Model) (platform : Platform) : Entries :=
  (Platform.all.map fun other => switchBinding other.text (other == platform)) ++
    [textBinding "platform" platform.text,
     textBinding "plugin_class" (platform.pluginClass m.pascalName),
     textBinding "package" (if platform == .android then m.androidPackage else ""),
     textBinding "file_name" (if platform == .web then m.name ++ "_web.dart" else "")]

/-- The records of what a new project offers. -/
def featureRecords (m : Model) : List Entries :=
  m.kind.features.map fun feature => [textBinding "feature" feature]

/-- The record of the library that implements a package. -/
def exportRecords (m : Model) : List Entries :=
  [[textBinding "export" ("src/" ++ m.name ++ "_base.dart")]]

/-- The bindings of a project on a date. -/
def bindings (today : Date) (m : Model) : Entries :=
  let isApp := m.kind == .application
  let isPlugin := m.kind == .plugin
  let isPackage := m.kind == .package
  [textBinding "project_name" m.name,
   textBinding "pascal_name" m.pascalName,
   textBinding "camel_name" (Name.camelCase m.name),
   textBinding "upper_name" (Text.upper m.name),
   textBinding "description" m.description,
   textBinding "description_yaml" (Json.quote m.description),
   textBinding "author" m.author,
   textBinding "organization" m.organization,
   textBinding "version" m.kind.firstVersion,
   textBinding "year" (padded 0 today.year),
   textBinding "date" today.text,
   textBinding "kind_label" m.kind.label,
   switchBinding "is_app" isApp,
   switchBinding "is_plugin" isPlugin,
   switchBinding "is_package" isPackage,
   switchBinding "is_dart" isPackage,
   switchBinding "is_flutter" (!isPackage),
   switchBinding "is_library" (!isApp),
   switchBinding "has_web" (m.platforms.contains .web),
   switchBinding "has_assets" isApp,
   listBinding "assets" (if isApp then [[textBinding "path" "assets/images/"]] else []),
   textBinding "homepage" m.repository,
   textBinding "repository" m.repository,
   textBinding "issue_tracker" (m.repository ++ "/issues"),
   textBinding "documentation" ("https://pub.dev/documentation/" ++ m.name ++ "/latest/"),
   textBinding "sdk_constraint" sdkConstraint,
   textBinding "flutter_constraint" flutterConstraint,
   textBinding "lints_include"
     (if isPackage then "lints/recommended.yaml" else "flutter_lints/flutter.yaml"),
   textBinding "pub_command" (if isPackage then "dart" else "flutter"),
   textBinding "android_package" m.androidPackage,
   textBinding "android_package_path" m.androidPackagePath,
   listBinding "features" m.featureRecords,
   listBinding "dependencies" [],
   listBinding "dev_dependencies" [],
   listBinding "exports" (if isPackage then m.exportRecords else []),
   listBinding "platforms" (m.platforms.map m.platformRecord),
   textBinding "usage_example" m.usageExample]

end Model

end PackageScaffold
