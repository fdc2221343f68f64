import PackageScaffold.Calendar
import PackageScaffold.Json.Writer
import PackageScaffold.Project.Kind
import PackageScaffold.Review.Finding

/-!
# Reports

The result of a review, and the two forms in which it can be written: a page of Markdown for readers
and a JSON document for programs.

## Main definitions

* `Report`, with its score and rating;
* `Report.toMarkdown`, `Report.toJson`.
-/

namespace PackageScaffold

/-- The result of a review.  The findings are those before any repair. -/
structure Report where
  root : String
  strict : Bool := false
  autoFix : Bool := false
  kind : Option Kind := none
  name : Option String := none
  findings : List Finding := []
  passed : List PassedCheck := []
  filesWritten : List String := []
  fixErrors : List String := []
  timestamp : String
  deriving DecidableEq, Repr

namespace Report

/-- How many findings have a severity. -/
def count (report : Report) (severity : Severity) : Nat :=
  countOf severity (report.findings.map Finding.severity)

/-- The score of the package. -/
def score (report : Report) : Nat :=
  scoreOf (report.findings.map Finding.severity)

/-- The rating of the package. -/
def rating (report : Report) : Rating :=
  .ofScore report.score

/-- The findings of a category. -/
def findingsFor (report : Report) (category : Category) : List Finding :=
  report.findings.filter (·.category == category)

/-- The passed checks of a category. -/
def passedFor (report : Report) (category : Category) : List PassedCheck :=
  report.passed.filter (·.category == category)

/-- The kind of the package in words. -/
def kindText (report : Report) : String :=
  (report.kind.map Kind.text).getD "unknown"

/-- How strict the review was, in words. -/
def modeText (report : Report) : String :=
  if report.strict then "strict" else "standard"

/-! ## Markdown -/

/-- A number in decimal digits. -/
def number (n : Nat) : String :=
  String.ofList (Nat.toDigits 10 n)

/-- The heading of the page: the name of the package, or where it is. -/
def heading (report : Report) : String :=
  match report.name with
  | none | some "" => report.root
  | some name => name

/-- The lines of the summary. -/
def summaryLines (report : Report) : List String :=
  ["# Validation Report: " ++ report.heading,
   "",
   "| Item | Value |",
   "|------|-------|",
   "| Path | \x60" ++ report.root ++ "\x60 |",
   "| Kind | " ++ report.kindText ++ " |",
   "| Mode | " ++ report.modeText ++ " |",
   "| Generated | " ++ report.timestamp ++ " |",
   "| Score | **" ++ number report.score ++ "/130** " ++ report.rating.badge ++ " " ++
     report.rating.text ++ " |",
   "| Errors | " ++ number (report.count .error) ++ " |",
   "| Warnings | " ++ number (report.count .warning) ++ " |",
   ""]

/-- The line of a finding. -/
def findingLine (finding : Finding) : String :=
  "- **" ++ finding.severity.label ++ "** " ++ finding.message ++ " (\x60" ++
    finding.subject ++ "\x60)" ++ (if finding.isFixable then " _auto-fixable_" else "")

/-- The line of a passed check. -/
def passedLine (check : PassedCheck) : String :=
  "- OK " ++ check.message

/-- The lines of a category; none if there is nothing to say about it. -/
def categoryLines (report : Report) (category : Category) : List String :=
  let lines :=
    (report.findingsFor category).map findingLine ++ (report.passedFor category).map passedLine
  if lines.isEmpty then [] else ["## " ++ category.title, ""] ++ lines ++ [""]

/-- The lines of a list under a heading; none if the list is empty. -/
def listLines (title : String) (lines : List String) : List String :=
  if lines.isEmpty then [] else ["## " ++ title, ""] ++ lines

/-- The report as a page of Markdown. -/
def toMarkdown (report : Report) : String :=
  let lines :=
    report.summaryLines ++
    Category.all.flatMap report.categoryLines ++
    listLines "Auto-fix" (report.filesWritten.map fun path => "- \x60" ++ path ++ "\x60") ++
    listLines "Failed fixes" (report.fixErrors.map fun error => "- " ++ error)
  String.join (lines.map (· ++ "\n"))

/-! ## JSON -/

/-- A finding as a record. -/
def findingRecord (finding : Finding) : Value :=
  .map [
    (.text "category", .text finding.category.text),
    (.text "severity", .text finding.severity.text),
    (.text "message", .text finding.message),
    (.text "subject_path", .text finding.subject),
    (.text "auto_fixable", .bool finding.isFixable)]

/-- A passed check as a record. -/
def passedRecord (check : PassedCheck) : Value :=
  .map [(.text "category", .text check.category.text), (.text "message", .text check.message)]

/-- A text, or null. -/
def textOrNull : Option String → Value
  | some text => .text text
  | none => .null

/-- The report as a record. -/
def record (report : Report) : Entries := [
  (.text "root", .text report.root),
  (.text "strict", .bool report.strict),
  (.text "auto_fix", .bool report.autoFix),
  (.text "project_kind", textOrNull (report.kind.map Kind.text)),
  (.text "project_name", textOrNull report.name),
  (.text "findings", .list (report.findings.map findingRecord)),
  (.text "passed", .list (report.passed.map passedRecord)),
  (.text "files_written", .list (report.filesWritten.map Value.text)),
  (.text "fix_errors", .list (report.fixErrors.map Value.text)),
  (.text "timestamp", .text report.timestamp),
  (.text "error_count", .int (report.count .error)),
  (.text "warning_count", .int (report.count .warning)),
  (.text "score", .int report.score),
  (.text "rating", .text report.rating.text)]

/-- The report as a JSON document. -/
def toJson (report : Report) : String :=
  Json.write 0 (.map report.record)

end Report

end PackageScaffold
