import PackageScaffold.CommandLine.Invocation
import PackageScaffold.CommandLine.Screen

/-!
# Help texts and plain text

What the program says about itself, and how it shows things on a screen without styles.
-/

namespace PackageScaffold.CommandLine

/-- The name and the version of the program. -/
def versionText : String := "fpd-toolkit 1.0.0"

/-- How the program is used. -/
def usage : String :=
  Text.join "\n" [
    "usage: fpd-toolkit [-h] [-v] [--version] [--config FILE] COMMAND ...",
    "",
    "Scaffold and validate Flutter/Dart packages",
    "",
    "  create KIND NAME      create a new app, plugin or package",
    "      -d TEXT, -a NAME, -o ORGANIZATION, -p PLATFORMS, --output DIRECTORY, -f, --dry-run",
    "  init [PATH]           add lint, CI, docs and tests to an existing project",
    "      -f, --no-analysis, --no-ci, --no-docs, --no-tests",
    "  validate [PATH]       validate a project against the quality rubric",
    "      -s, -f, --report FILE, --fail-on-error",
    "  templates [list]      list project kinds and templates",
    "  templates show KIND   show the file tree a kind produces",
    "      -p PLATFORMS, --name NAME",
    "  config                show the effective configuration",
    "      --save FILE"]

/-- What the program says when a command line is not carried out. -/
def Halt.text : Halt → String
  | .version => versionText
  | .help | .misused | .commandless => usage

/-! ## Plain text -/

/-- The styles in which things are shown. -/
def styles : List String :=
  ["bold", "bold green", "bold red", "bold yellow", "red", "yellow", "green", "cyan", "dim"]

/-- Drops the marks of styles from a text.  The next `passed` characters belong to a mark. -/
def dropStyles (passed : Nat) : List Char → List Char
  | [] => []
  | c :: cs =>
    match passed with
    | passed + 1 => dropStyles passed cs
    | 0 =>
      let marks := styles.flatMap fun style => ["[" ++ style ++ "]", "[/" ++ style ++ "]"]
      match marks.find? fun mark => mark.toList.isPrefixOf (c :: cs) with
      | some mark => dropStyles (mark.length - 1) cs
      | none => c :: dropStyles 0 cs

/-- A text without the marks of styles. -/
def unstyled (text : String) : String :=
  String.ofList (dropStyles 0 text.toList)

mutual

/-- The lines of a tree, indented by level. -/
def treeLines (indent : String) : PathTree → List String
  | .node _ label children => (indent ++ unstyled label) :: allLines (indent ++ "  ") children

/-- The lines of several trees. -/
def allLines (indent : String) : List PathTree → List String
  | [] => []
  | tree :: trees => treeLines indent tree ++ allLines indent trees

end

/-- What is shown, as lines of text. -/
def Shown.lines : Shown → List String
  | .line s | .errorLine s | .panel s => [unstyled s]
  | .tree t => treeLines "" t
  | .table title columns rows =>
    [title, Text.join " | " columns] ++ rows.map fun row => Text.join " | " (row.map unstyled)

/-- Whether something is shown as an error. -/
def Shown.isError : Shown → Bool
  | .errorLine _ => true
  | _ => false

/-! ## Places -/

/-- The places in the file system that a command is about. -/
def Command.places : Command → List String
  | .create o => ((o.output.getD o.name).text?).toList
  | .retrofit o => [o.path]
  | .review o => o.path :: o.report.toList
  | .listTemplates | .showSample _ => []
  | .showSettings save => save.toList

/-- The places in the file system that an invocation is about. -/
def Invocation.places (invocation : Invocation) : List String :=
  invocation.settingsFile.toList ++ invocation.command.places

end PackageScaffold.CommandLine
