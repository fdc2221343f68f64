import PackageScaffold.Catalogue.Line

/-!
# Package metadata

The metadata files of the three kinds of projects, and of a plugin's example.
-/

namespace PackageScaffold.Catalogue

/-- The metadata of an application. -/
def applicationPubspec : String :=
  lines [
    "name: " ++ var "project_name",
    "description: " ++ var "description_yaml",
    "publish_to: none",
    "version: " ++ var "version" ++ "+1",
    "",
    "environment:",
    "  sdk: " ++ var "sdk_constraint",
    "  flutter: \"" ++ var "flutter_constraint" ++ "\"",
    "",
    "dependencies:",
    "  flutter:",
    "    sdk: flutter",
    "  cupertino_icons: ^1.0.8",
    opens "dependencies",
    "  " ++ var "name" ++ ": " ++ var "version",
    closes "dependencies",
    "",
    "dev_dependencies:",
    "  flutter_test:",
    "    sdk: flutter",
    "  flutter_lints: ^5.0.0",
    opens "dev_dependencies",
    "  " ++ var "name" ++ ": " ++ var "version",
    closes "dev_dependencies",
    "",
    "flutter:",
    "  uses-material-design: true",
    opens "has_assets",
    "  assets:",
    opens "assets",
    "    - " ++ var "path",
    closes "assets",
    closes "has_assets"
  ]

/-- The metadata of a plugin, with a section for each of its platforms. -/
def pluginPubspec : String :=
  lines [
    "name: " ++ var "project_name",
    "description: " ++ var "description_yaml",
    "version: " ++ var "version",
    "homepage: " ++ var "homepage",
    "repository: " ++ var "repository",
    "issue_tracker: " ++ var "issue_tracker",
    "documentation: " ++ var "documentation",
    "",
    "environment:",
    "  sdk: " ++ var "sdk_constraint",
    "  flutter: \"" ++ var "flutter_constraint" ++ "\"",
    "",
    "dependencies:",
    "  flutter:",
    "    sdk: flutter",
    "  plugin_platform_interface: ^2.1.8",
    opens "has_web",
    "  flutter_web_plugins:",
    "    sdk: flutter",
    "  web: ^1.1.0",
    closes "has_web",
    opens "dependencies",
    "  " ++ var "name" ++ ": " ++ var "version",
    closes "dependencies",
    "",
    "dev_dependencies:",
    "  flutter_test:",
    "    sdk: flutter",
    "  flutter_lints: ^5.0.0",
    opens "dev_dependencies",
    "  " ++ var "name" ++ ": " ++ var "version",
    closes "dev_dependencies",
    "",
    "flutter:",
    "  plugin:",
    "    platforms:",
    opens "platforms",
    "      " ++ var "platform" ++ ":",
    opens "android",
    "        package: " ++ var "package",
    closes "android",
    "        pluginClass: " ++ var "plugin_class",
    opens "web",
    "        fileName: " ++ var "file_name",
    closes "web",
    closes "platforms"
  ]

/-- The metadata of a pure package. -/
def packagePubspec : String :=
  lines [
    "name: " ++ var "project_name",
    "description: " ++ var "description_yaml",
    "version: " ++ var "version",
    "homepage: " ++ var "homepage",
    "repository: " ++ var "repository",
    "issue_tracker: " ++ var "issue_tracker",
    "documentation: " ++ var "documentation",
    "",
    "environment:",
    "  sdk: " ++ var "sdk_constraint",
    "",
    "dependencies:",
    "  meta: ^1.15.0",
    opens "dependencies",
    "  " ++ var "name" ++ ": " ++ var "version",
    closes "dependencies",
    "",
    "dev_dependencies:",
    "  lints: ^5.0.0",
    "  test: ^1.25.0",
    opens "dev_dependencies",
    "  " ++ var "name" ++ ": " ++ var "version",
    closes "dev_dependencies"
  ]

/-- The metadata of the example application of a plugin. -/
def examplePubspec : String :=
  lines [
    "name: " ++ var "project_name" ++ "_example",
    "description: \"Demonstrates how to use the " ++ var "project_name" ++ " plugin.\"",
    "publish_to: none",
    "version: 1.0.0+1",
    "",
    "environment:",
    "  sdk: " ++ var "sdk_constraint",
    "",
    "dependencies:",
    "  flutter:",
    "    sdk: flutter",
    "  " ++ var "project_name" ++ ":",
    "    path: ../",
    "",
    "dev_dependencies:",
    "  flutter_test:",
    "    sdk: flutter",
    "  flutter_lints: ^5.0.0",
    "",
    "flutter:",
    "  uses-material-design: true"
  ]

end PackageScaffold.Catalogue
