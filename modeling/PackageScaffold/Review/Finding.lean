/-!
# Findings

What a review of a package reports: findings, which are errors or warnings of some category, and the
checks that were passed.  A package starts with 130 points and loses some for each finding.
-/

namespace PackageScaffold

/-- How grave a finding is. -/
inductive Severity where
  | error
  | warning
  deriving DecidableEq, Repr

/-- The severity in one word. -/
def Severity.text : Severity → String
  | .error => "error"
  | .warning => "warning"

/-- The severity in capitals. -/
def Severity.label : Severity → String
  | .error => "ERROR"
  | .warning => "WARNING"

/-- What a check is about. -/
inductive Category where
  | requiredFiles
  | metadata
  | version
  | publish
  | layout
  | documentation
  | lint
  deriving DecidableEq, Repr

namespace Category

/-- All categories, in the order of a report. -/
def all : List Category :=
  [.requiredFiles, .metadata, .version, .publish, .layout, .documentation, .lint]

/-- The short name of a category. -/
def text : Category → String
  | .requiredFiles => "required-files"
  | .metadata => "metadata"
  | .version => "version"
  | .publish => "publish"
  | .layout => "structure"
  | .documentation => "documentation"
  | .lint => "lint"

/-- The heading of a category. -/
def title : Category → String
  | .requiredFiles => "Required files"
  | .metadata => "Metadata fields"
  | .version => "Version format"
  | .publish => "Publish guard"
  | .layout => "Directory structure"
  | .documentation => "Documentation"
  | .lint => "Lint configuration"

end Category

/-- One reported issue, with the path of what it is about and whether it can be repaired. -/
structure Finding where
  category : Category
  severity : Severity
  message : String
  subject : String
  isFixable : Bool := false
  deriving DecidableEq, Repr

/-- A check that found nothing to report. -/
structure PassedCheck where
  category : Category
  message : String
  deriving DecidableEq, Repr

/-! ## Scores -/

/-- The score of a package without findings. -/
def highestScore : Nat := 130

/-- How many points a finding costs. -/
def Severity.penalty : Severity → Nat
  | .error => 20
  | .warning => 5

/-- How many findings have a severity. -/
def countOf (severity : Severity) (severities : List Severity) : Nat :=
  severities.count severity

/-- How many points findings of the given severities cost together. -/
def totalPenalty : List Severity → Nat
  | [] => 0
  | severity :: rest => severity.penalty + totalPenalty rest

/-- The score of a package with findings of the given severities; it never falls below zero. -/
def scoreOf (severities : List Severity) : Nat :=
  highestScore - totalPenalty severities

/-- What a score amounts to. -/
inductive Rating where
  | excellent
  | good
  | needsWork
  deriving DecidableEq, Repr

namespace Rating

/-- The rating of a score. -/
def ofScore (score : Int) : Rating :=
  if 100 ≤ score then .excellent
  else if 80 ≤ score then .good
  else .needsWork

/-- The rating in words. -/
def text : Rating → String
  | .excellent => "excellent"
  | .good => "good"
  | .needsWork => "needs work"

/-- The sign of a rating. -/
def badge : Rating → String
  | .excellent => "🟢"
  | .good => "🟡"
  | .needsWork => "🔴"

/-- The colour in which a score with this rating is shown. -/
def color : Rating → String
  | .excellent => "green"
  | .good => "yellow"
  | .needsWork => "red"

end Rating

end PackageScaffold
