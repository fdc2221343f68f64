import PackageScaffold.Plan.Ledger
import PackageScaffold.Review.Report
import PackageScaffold.Review.Rule
import PackageScaffold.Settings.Basic

/-!
# Reviews

A review reads a package once, runs every rule on it, and reports what was found.  It can mend what
can be mended: the plan of each repairable finding is carried out in turn, without touching what is
there already.

## Main definitions

* `review`: reviews the package at a path, and mends it if asked to;
* `repairAll`: carries out the repairs;
* `saveReport`: writes a report to a file.
-/

namespace PackageScaffold

/-- What a rule reports: findings, passed checks, and repairs by the path of what is missing. -/
structure RuleOutcome where
  category : Category
  findings : List Finding
  passed : List PassedCheck
  repairs : List (String × List PlanEntry)

namespace RuleOutcome

/-- The outcome of a rule with the given checks. -/
def ofChecks (category : Category) (checks : List Check) : RuleOutcome :=
  { category
    findings := checks.filterMap (Check.finding? category)
    passed := checks.filterMap (Check.passed? category)
    repairs := checks.filterMap Check.repair? }

/-- The outcome of a rule that failed itself: a finding that says why. -/
def ofFailure (category : Category) (failure : Failure) : RuleOutcome :=
  { category
    findings :=
      [{ category, severity := .error, subject := "."
         message := category.title ++ " check failed: " ++ failure.message }]
    passed := []
    repairs := [] }

/-- The outcome of the rule of a category. -/
def ofRule (s : Subject) (disk : Disk) (category : Category) : RuleOutcome :=
  match category.checks s disk with
  | .ok checks => ofChecks category checks
  | .error failure => ofFailure category failure

end RuleOutcome

/-- The outcomes of all rules, in the order of a report. -/
def runRules (s : Subject) (disk : Disk) : List RuleOutcome :=
  Category.all.map (RuleOutcome.ofRule s disk)

/-! ## Repairs -/

/-- Carries out the plan of one repair, and says what was written. -/
def repair (settings : Settings) (root : Path) (entries : List PlanEntry) :
    FileM (List String) := do
  match renderPlan settings.strictTemplates entries with
  | .error fault => throw (.template fault)
  | .ok contents => return (← carryOut entries root contents .skip none).1.written

/-- What repairs have written, and which of them failed. -/
structure RepairLog where
  written : List String := []
  errors : List String := []
  deriving DecidableEq, Repr

/-- Adds paths to those that were written, each once. -/
def RepairLog.addWritten (log : RepairLog) (paths : List String) : RepairLog :=
  { log with
    written := paths.foldl
      (fun written path => if written.contains path then written else written ++ [path])
      log.written }

/-- Carries out one repair.  One that fails on purpose is noted down. -/
def repairOne (settings : Settings) (root : Path) (log : RepairLog)
    (subject : String) (entries : List PlanEntry) : FileM RepairLog :=
  tryCatch (do return log.addWritten (← repair settings root entries)) fun failure =>
    if failure.isExpected then
      return { log with errors := log.errors ++ [subject ++ ": " ++ failure.message] }
    else throw failure

/-- Carries out repairs in turn. -/
def repairAll (settings : Settings) (root : Path) :
    RepairLog → List (String × List PlanEntry) → FileM RepairLog
  | log, [] => return log
  | log, (subject, entries) :: rest => do
    repairAll settings root (← repairOne settings root log subject entries) rest

/-! ## Reviews -/

/-- The report of a subject with the given outcomes, before any repair. -/
def Report.of (s : Subject) (autoFix : Bool) (now : Moment) (outcomes : List RuleOutcome) :
    Report :=
  { root := s.root.text
    strict := s.strict
    autoFix
    kind := s.metadata.map fun _ => s.kind
    name := s.name
    findings := outcomes.flatMap RuleOutcome.findings
    passed := outcomes.flatMap RuleOutcome.passed
    timestamp := { now with microsecond := 0 }.text }

/-- Reviews the package at a path, and mends it if asked to.  Files are made with the date of the
given moment. -/
def review (settings : Settings) (now : Moment) (strict autoFix : Bool) (root : Path) :
    FileM Report := do
  if !(← FileM.inspect (·.isDirectory root)) then
    throw (.misconfigured (.notDirectory root.text))
  let subject ← FileM.inspect (Subject.ofDisk settings now.date strict root)
  let outcomes ← FileM.look (runRules subject)
  let report := Report.of subject autoFix now outcomes
  if autoFix then
    let log ← repairAll settings root {} (outcomes.flatMap RuleOutcome.repairs)
    return { report with filesWritten := log.written, fixErrors := log.errors }
  else return report

/-! ## Writing reports -/

/-- A report in the form that the ending of a path asks for. -/
def Report.textFor (report : Report) (path : Path) : Except Misconfiguration String :=
  let ending := Text.lower path.ending
  if ending == ".md" || ending == ".markdown" then .ok report.toMarkdown
  else if ending == ".json" then .ok report.toJson
  else .error (.unsupportedReport path.ending)

/-- Writes a report to a file, and makes the directories above it. -/
def saveReport (report : Report) (path : Path) : FileM Unit := do
  match report.textFor path with
  | .ok text => FileM.saveText path text
  | .error cause => throw (.misconfigured cause)

end PackageScaffold
