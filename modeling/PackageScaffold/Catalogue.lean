import PackageScaffold.Catalogue.ApplicationStub
import PackageScaffold.Catalogue.DartSource
import PackageScaffold.Catalogue.Document
import PackageScaffold.Catalogue.PluginStub
import PackageScaffold.Catalogue.Pubspec
import PackageScaffold.Template.Expand

/-!
# The template catalogue

Every file that the toolkit writes is the expansion of a template with a name.

## Main definitions

* `Catalogue.standard`: the built-in templates;
* `Catalogue.render`: the text of a named template under bindings;
* `Catalogue.mentionedNames`: the names that a template mentions.
-/

namespace PackageScaffold

/-- Templates by name. -/
abbrev Catalogue := List (String × String)

namespace Catalogue

/-- The built-in templates. -/
def standard : Catalogue :=
  [("pubspec/app", applicationPubspec),
   ("pubspec/plugin", pluginPubspec),
   ("pubspec/package", packagePubspec),
   ("pubspec/example", examplePubspec),
   ("docs/readme", readme),
   ("docs/changelog", changelog),
   ("docs/license_mit", license),
   ("config/analysis_options", analysisOptions),
   ("config/gitignore", ignoredFiles),
   ("config/ci_workflow", workflow),
   ("dart/library", library),
   ("dart/base_class", baseClass),
   ("dart/app_main", applicationMain),
   ("dart/app_library", applicationLibrary),
   ("dart/plugin_library", pluginLibrary),
   ("dart/platform_interface", platformInterface),
   ("dart/method_channel", methodChannel),
   ("dart/test", test),
   ("dart/test_placeholder", testPlaceholder),
   ("example/plugin_main", pluginExample),
   ("example/plugin_readme", pluginExampleReadme),
   ("example/package_main", packageExample),
   ("native/app/android", androidRunner),
   ("native/app/ios", iosRunner),
   ("native/app/macos", macosRunner),
   ("native/app/web", webRunner),
   ("native/app/windows", windowsRunner),
   ("native/app/linux", linuxRunner),
   ("native/plugin/android", androidStub),
   ("native/plugin/ios", iosStub),
   ("native/plugin/macos", macosStub),
   ("native/plugin/web", webStub),
   ("native/plugin/windows", windowsStub),
   ("native/plugin/linux", linuxStub)]

/-- The template with the given name. -/
def find (catalogue : Catalogue) (name : String) : Except Template.Fault String :=
  match catalogue.lookup name with
  | some template => .ok template
  | none => .error (.unknown name)

/-- The text of a named template under bindings, strictly or not. -/
def render (catalogue : Catalogue) (strict : Bool) (name : String) (bindings : Entries) :
    Except Template.Fault String := do
  let template ← find catalogue name
  match Template.expandWith strict template bindings with
  | .ok text => .ok text
  | .error fault => .error (.within name fault)

/-- The names of the templates that start with the given text, sorted. -/
def namesFrom (catalogue : Catalogue) (start : String) : List String :=
  Text.sort ((catalogue.map Prod.fst).filter fun name => start.toList.isPrefixOf name.toList)

/-- The names that a template mentions, sorted. -/
def mentionedNames (catalogue : Catalogue) (name : String) :
    Except Template.Fault (List String) := do
  return Template.mentionedNames (← find catalogue name)

end Catalogue

end PackageScaffold
