import PackageScaffold.Plan.PathTree
import PackageScaffold.Review.Report

/-!
# What is shown

What commands show on the screen: lines of text with styles in square brackets, framed texts, trees
and tables.
-/

namespace PackageScaffold.CommandLine

/-- One thing that is shown. -/
inductive Shown where
  | line (text : String)
  | errorLine (text : String)
  | panel (text : String)
  | tree (tree : PathTree)
  | table (title : String) (columns : List String) (rows : List (List String))

/-- A text in a style. -/
def styled (style text : String) : String :=
  "[" ++ style ++ "]" ++ text ++ "[/" ++ style ++ "]"

namespace Shown

/-- A message of success. -/
def success (message : String) : Shown := .line (styled "bold green" message)

/-- A warning. -/
def warning (message : String) : Shown := .line (styled "bold yellow" message)

/-- A message of failure. -/
def failure (message : String) : Shown := .errorLine (styled "bold red" message)

/-- A table of names and values, with an empty line behind it. -/
def summary (title : String) (rows : List (String × String)) : List Shown :=
  [.table title ["Item", "Value"] (rows.map fun (name, value) => [name, value]), .line ""]

end Shown

/-! ## Reports -/

/-- A severity in its colour. -/
def styledSeverity (severity : Severity) : String :=
  styled (match severity with | .error => "red" | .warning => "yellow") severity.text

/-- The row of a finding. -/
def findingRow (finding : Finding) : List String :=
  [finding.category.title, styledSeverity finding.severity, finding.message, finding.subject,
    if finding.isFixable then "yes" else ""]

/-- A heading with the lines below it; nothing, if there are none. -/
def titled (style heading : String) (mark : String) (lines : List String) : List Shown :=
  if lines.isEmpty then []
  else
    .line ("\n" ++ styled style heading) ::
      lines.map fun line => .line ("  " ++ mark ++ " " ++ line)

/-- The frame in front of a report. -/
def reportPanel (report : Report) : Shown :=
  .panel (styled "bold" "Package Validation" ++ "\nProject: " ++ report.root ++ "\nKind: " ++
    report.kindText ++ "\nMode: " ++ report.modeText)

/-- The findings of a report. -/
def reportFindings (report : Report) : Shown :=
  if report.findings.isEmpty then .line (styled "green" "No issues found.")
  else
    .table "Findings" ["Category", "Severity", "Message", "Path", "Fix"]
      (report.findings.map findingRow)

/-- The score of a report. -/
def reportScore (report : Report) : Shown :=
  let number := Report.number
  .line ("\n" ++ styled "bold" "Score:" ++ " " ++
    styled report.rating.color (number report.score ++ "/130") ++ " " ++ report.rating.badge ++
    " " ++ report.rating.text ++ "  |  " ++ number (report.count .error) ++ " error(s), " ++
    number (report.count .warning) ++ " warning(s)\n")

/-- A report on the screen. -/
def showReport (report : Report) : List Shown :=
  let counted (before : String) (count : Nat) (behind : String) : String :=
    before ++ Report.number count ++ behind
  [reportPanel report, reportFindings report] ++
  titled "bold" (counted "Passed checks (" report.passed.length ")") (styled "green" "✓")
    (report.passed.map PassedCheck.message) ++
  titled "bold" (counted "Auto-fix wrote " report.filesWritten.length " path(s)")
    (styled "cyan" "+") report.filesWritten ++
  titled "bold red" (counted "Auto-fix failed for " report.fixErrors.length " finding(s)")
    (styled "red" "x") report.fixErrors ++
  [reportScore report]

end PackageScaffold.CommandLine
