import PackageScaffold.Plan.Layout

/-!
# Plans with templates for paths

The path of a planned file is written as a template, as its content is: what a project is made of is
the same for all projects of a kind with the same platforms, up to the names in its paths.  A name
that has no value is refused, so putting a plan together could fail.

## Main definitions

* `FileTemplate`: the templates for the path and the content of a file, and those of new projects;
* `Layout.fileAt`: a file whose path is made from its template;
* `Layout.assemble`: everything a new project consists of, made from these.
-/

namespace PackageScaffold

/-- A planned file: the template of its path, and the name of the template of its content. -/
abbrev FileTemplate := String × String

namespace FileTemplate

open Catalogue (var)

/-- The library that users of the project import. -/
def library (template : String) : FileTemplate :=
  ("lib/" ++ var "project_name" ++ ".dart", template)

/-- The first test. -/
def test : FileTemplate :=
  ("test/" ++ var "project_name" ++ "_test.dart", "dart/test")

/-- The native part of a plugin on a platform. -/
def pluginStub (platform : Platform) : FileTemplate :=
  (match platform with
    | .android =>
      "android/src/main/java/" ++ var "android_package_path" ++ "/" ++ var "pascal_name" ++ "Plugin.java"
    | .ios => "ios/Classes/Swift" ++ var "pascal_name" ++ "Plugin.swift"
    | .web => "lib/" ++ var "project_name" ++ "_web.dart"
    | .windows => "windows/" ++ var "project_name" ++ "_plugin.cpp"
    | .linux => "linux/" ++ var "project_name" ++ "_plugin.cc"
    | .macos => "macos/Classes/" ++ var "pascal_name" ++ "Plugin.swift",
   "native/plugin/" ++ platform.text)

/-- The runner of an application on a platform. -/
def runner (platform : Platform) : FileTemplate :=
  (match platform with
    | .android => "android/app/src/main/kotlin/" ++ var "android_package_path" ++ "/MainActivity.kt"
    | .ios => "ios/Runner/AppDelegate.swift"
    | .web => "web/index.html"
    | .windows => "windows/runner/main.cpp"
    | .linux => "linux/main.cc"
    | .macos => "macos/Runner/AppDelegate.swift",
   "native/app/" ++ platform.text)

/-- The files that projects of every kind have. -/
def common (kind : Kind) : List FileTemplate :=
  [("pubspec.yaml", Layout.metadataTemplate kind),
   ("README.md", "docs/readme"),
   ("CHANGELOG.md", "docs/changelog"),
   ("LICENSE", "docs/license_mit"),
   ("analysis_options.yaml", "config/analysis_options"),
   (".gitignore", "config/gitignore"),
   (".github/workflows/ci.yml", "config/ci_workflow")]

/-- The further files of an application. -/
def application (platforms : List Platform) : List FileTemplate :=
  [("lib/main.dart", "dart/app_main"), library "dart/app_library", test] ++ platforms.map runner

/-- The further files of a plugin. -/
def plugin (platforms : List Platform) : List FileTemplate :=
  [library "dart/plugin_library",
   ("lib/src/" ++ var "project_name" ++ "_platform_interface.dart", "dart/platform_interface"),
   ("lib/src/" ++ var "project_name" ++ "_method_channel.dart", "dart/method_channel"),
   test,
   ("example/pubspec.yaml", "pubspec/example"),
   ("example/lib/main.dart", "example/plugin_main"),
   ("example/README.md", "example/plugin_readme")] ++
  platforms.map pluginStub

/-- The public library of a package and the library that implements it. -/
def libraries : List FileTemplate :=
  [library "dart/library",
   ("lib/src/" ++ var "project_name" ++ "_base.dart", "dart/base_class")]

/-- The further files of a package. -/
def package : List FileTemplate :=
  [test, ("example/" ++ var "project_name" ++ "_example.dart", "example/package_main")]

end FileTemplate

namespace Layout

/-- A file with the bindings of the layout, or the fault in its path. -/
def fileAt (l : Layout) (file : FileTemplate) : Except Template.Fault PlanEntry := do
  return l.file (← expandPath file.1 l.bindings) file.2

/-- Files with the bindings of the layout, or the first fault in one of their paths. -/
def filesAt (l : Layout) (files : List FileTemplate) : Except Template.Fault (List PlanEntry) :=
  files.mapM l.fileAt

/-- The layout that the libraries of a package are made with. -/
def exporting (l : Layout) : Layout :=
  { l with
    bindings := Entries.put l.bindings (.text "exports")
      (.list (l.model.exportRecords.map Value.map)) }

/-- Everything a new project consists of, or the first fault in a path. -/
def assemble (l : Layout) : Except Template.Fault (List PlanEntry) := do
  let common ← l.filesAt (FileTemplate.common l.model.kind)
  match l.model.kind with
  | .application =>
    let files ← l.filesAt (FileTemplate.application l.model.platforms)
    return withDirectories (common ++ files) ["assets/images"]
  | .plugin =>
    let files ← l.filesAt (FileTemplate.plugin l.model.platforms)
    return withDirectories (common ++ files) []
  | .package =>
    let libraries ← l.exporting.filesAt FileTemplate.libraries
    let files ← l.filesAt FileTemplate.package
    return withDirectories (common ++ (libraries ++ files)) []

end Layout

end PackageScaffold
