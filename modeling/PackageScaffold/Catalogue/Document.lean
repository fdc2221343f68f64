import PackageScaffold.Catalogue.Line

/-!
# Documents and tool configuration

The files of a project that are no source code: documents, licence, linter and workflow.
-/

namespace PackageScaffold.Catalogue

/-- The first document a reader opens. -/
def readme : String :=
  lines [
    "# " ++ var "project_name",
    "",
    var "description",
    "",
    "## Features",
    "",
    opens "features",
    "- " ++ var "feature",
    closes "features",
    "",
    "## Getting started",
    "",
    opens "is_app",
    "1. Clone the repository",
    "2. Run `flutter pub get`",
    "3. Run `flutter run`",
    closes "is_app",
    opens "is_library",
    "Add this to your package's `pubspec.yaml` file:",
    "",
    "```yaml",
    "dependencies:",
    "  " ++ var "project_name" ++ ": ^" ++ var "version",
    "```",
    "",
    "Then run:",
    "",
    "```bash",
    var "pub_command" ++ " pub get",
    "```",
    closes "is_library",
    "",
    "## Usage",
    "",
    "```dart",
    var "usage_example",
    "```",
    "",
    "## Additional information",
    "",
    "This " ++ var "kind_label" ++ " was generated with FPD Toolkit. Run",
    "`fpd-toolkit validate .` to check it against the package quality rubric.",
    "",
    "## License",
    "",
    "This project is licensed under the MIT License - see the [LICENSE](LICENSE) " ++
      "file for details."
  ]

/-- The list of changes, with the first version in it. -/
def changelog : String :=
  lines [
    "# Changelog",
    "",
    "All notable changes to this project will be documented in this file.",
    "",
    "The format is based on [Keep a Changelog](https://keepachangelog.com/en/1.0.0/),",
    "and this project adheres to [Semantic " ++
      "Versioning](https://semver.org/spec/v2.0.0.html).",
    "",
    "## [Unreleased]",
    "",
    "## [" ++ var "version" ++ "] - " ++ var "date",
    "",
    "### Added",
    "- Initial version of " ++ var "project_name",
    opens "features",
    "- " ++ var "feature",
    closes "features"
  ]

/-- The licence. -/
def license : String :=
  lines [
    "MIT License",
    "",
    "Copyright (c) " ++ var "year" ++ " " ++ var "author",
    "",
    "Permission is hereby granted, free of charge, to any person obtaining a copy",
    "of this software and associated documentation files (the \"Software\"), to deal",
    "in the Software without restriction, including without limitation the rights",
    "to use, copy, modify, merge, publish, distribute, sublicense, and/or sell",
    "copies of the Software, and to permit persons to whom the Software is",
    "furnished to do so, subject to the following conditions:",
    "",
    "The above copyright notice and this permission notice shall be included in all",
    "copies or substantial portions of the Software.",
    "",
    "THE SOFTWARE IS PROVIDED \"AS IS\", WITHOUT WARRANTY OF ANY KIND, EXPRESS OR",
    "IMPLIED, INCLUDING BUT NOT LIMITED TO THE WARRANTIES OF MERCHANTABILITY,",
    "FITNESS FOR A PARTICULAR PURPOSE AND NONINFRINGEMENT. IN NO EVENT SHALL THE",
    "AUTHORS OR COPYRIGHT HOLDERS BE LIABLE FOR ANY CLAIM, DAMAGES OR OTHER",
    "LIABILITY, WHETHER IN AN ACTION OF CONTRACT, TORT OR OTHERWISE, ARISING FROM,",
    "OUT OF OR IN CONNECTION WITH THE SOFTWARE OR THE USE OR OTHER DEALINGS IN THE",
    "SOFTWARE."
  ]

/-- The rules of the linter. -/
def analysisOptions : String :=
  lines [
    "include: package:" ++ var "lints_include",
    "",
    "analyzer:",
    "  exclude:",
    "    - \"**/*.g.dart\"",
    "    - \"**/*.freezed.dart\"",
    "    - \"**/*.gr.dart\"",
    "    - build/**",
    "  errors:",
    "    invalid_annotation_target: ignore",
    "    missing_required_param: error",
    "    missing_return: error",
    "",
    "linter:",
    "  rules:",
    "    prefer_single_quotes: true",
    "    prefer_const_constructors: true",
    "    prefer_const_declarations: true",
    "    prefer_final_fields: true",
    "    prefer_final_locals: true",
    "    avoid_relative_lib_imports: true",
    "    camel_case_types: true",
    "    avoid_unnecessary_containers: true",
    "    unnecessary_new: true",
    opens "is_flutter",
    "    use_key_in_widget_constructors: true",
    "    sized_box_for_whitespace: true",
    "    sort_child_properties_last: true",
    closes "is_flutter"
  ]

/-- The files that version control leaves out. -/
def ignoredFiles : String :=
  lines [
    "# Miscellaneous",
    "*.class",
    "*.log",
    "*.pyc",
    "*.swp",
    ".DS_Store",
    ".atom/",
    ".buildlog/",
    ".history",
    ".svn/",
    "migrate_working_dir/",
    "",
    "# IntelliJ related",
    "*.iml",
    "*.ipr",
    "*.iws",
    ".idea/",
    "",
    "# VS Code related",
    ".vscode/",
    "",
    "# Flutter/Dart/Pub related",
    "**/doc/api/",
    "**/ios/Flutter/.last_build_id",
    ".dart_tool/",
    ".flutter-plugins",
    ".flutter-plugins-dependencies",
    ".packages",
    ".pub-cache/",
    ".pub/",
    "/build/",
    opens "is_library",
    "pubspec.lock",
    closes "is_library",
    "",
    "# Symbolication and obfuscation",
    "app.*.symbols",
    "app.*.map.json",
    "",
    "# Android Studio build artifacts",
    "/android/app/debug",
    "/android/app/profile",
    "/android/app/release",
    "",
    "# Coverage",
    "coverage/",
    "",
    "# Environment",
    ".env",
    ".env.local",
    ".env.*.local"
  ]

/-- The workflow that checks every change.  The expressions after a dollar sign belong to it and are
no markers. -/
def workflow : String :=
  lines [
    "name: CI",
    "",
    "on:",
    "  push:",
    "    branches: [ main, develop ]",
    "  pull_request:",
    "    branches: [ main ]",
    "",
    "jobs:",
    "  test:",
    "    runs-on: $\x7b\x7b matrix.os \x7d\x7d",
    "    strategy:",
    "      matrix:",
    "        os: [ubuntu-latest]",
    "",
    "    steps:",
    "      - uses: actions/checkout@v4",
    opens "is_flutter",
    "      - uses: subosito/flutter-action@v2",
    "        with:",
    "          flutter-version: '3.24.0'",
    "          cache: true",
    closes "is_flutter",
    opens "is_dart",
    "      - uses: dart-lang/setup-dart@v1",
    "        with:",
    "          sdk: '3.7.0'",
    closes "is_dart",
    "      - name: Install dependencies",
    "        run: " ++ var "pub_command" ++ " pub get",
    "      - name: Verify formatting",
    "        run: dart format --output=none --set-exit-if-changed .",
    "      - name: Analyze project source",
    "        run: " ++ var "pub_command" ++ " analyze",
    "      - name: Run tests",
    "        run: " ++ var "pub_command" ++ " test",
    "      - name: Summary",
    "        run: echo \"Checked $\x7b\x7b github.ref \x7d\x7d on $\x7b\x7b matrix.os " ++
      "\x7d\x7d\""
  ]

end PackageScaffold.Catalogue
