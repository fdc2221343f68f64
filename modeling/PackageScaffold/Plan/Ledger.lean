import PackageScaffold.Files.Disk
import PackageScaffold.Plan.Entry

/-!
# Carrying out a plan

A plan is carried out under a root: first its directories, then its files in the order of the plan.
What was done is kept in a ledger.  The first write that fails ends the run, and so does the moment
from which on the run counts as cancelled; what was written before stays.

## Main definitions

* `Policy`: what becomes of files that are there already;
* `Ledger`: what was made, written and skipped;
* `carryOut`: carries out a plan.
-/

namespace PackageScaffold

/-- What becomes of a planned file that is there already. -/
inductive Policy where
  | fail
  | overwrite
  | skip
  deriving DecidableEq, Repr

/-- What was done for a plan, each list in the order of the plan. -/
structure Ledger where
  directories : List String := []
  files : List String := []
  skipped : List String := []
  cancelled : Bool := false
  deriving DecidableEq, Repr, Inhabited

namespace Ledger

/-- The directories made and the files written. -/
def written (ledger : Ledger) : List String :=
  ledger.directories ++ ledger.files

end Ledger

/-- How many files may still be written before the run counts as cancelled; without a number, the
run is never cancelled. -/
abbrev Allowance := Option Nat

/-- Whether the run counts as cancelled. -/
def Allowance.isSpent (allowance : Allowance) : Bool :=
  allowance == some 0

/-- The allowance after one more file. -/
def Allowance.spend (allowance : Allowance) : Allowance :=
  allowance.map (· - 1)

/-- What was done for a file. -/
inductive Mark where
  | written
  | skipped
  deriving DecidableEq, Repr

/-! ## Directories -/

/-- The paths of the directories of a plan. -/
def plannedDirectories (entries : List PlanEntry) : List String :=
  (entries.filter PlanEntry.isDirectory).map PlanEntry.path

/-- The paths of the files of a plan. -/
def plannedFiles (entries : List PlanEntry) : List String :=
  (entries.filter (!·.isDirectory)).map PlanEntry.path

/-- The directories that files stand in directly, without those that the plan has, shallow ones
first. -/
def impliedDirectories (directories files : List String) : List String :=
  let above := (files.map fun file => (Path.ofString file).parent.text).filter (· != ".")
  (above.eraseDups.filter (!directories.contains ·)).mergeSort shallowFirst

/-- Makes the directories at which nothing is yet, and says which were made. -/
def makeMissing (root : Path) : List String → FileM (List String)
  | [] => return []
  | directory :: rest => do
    let target := root.extend directory
    if ← FileM.inspect (·.exists? target) then makeMissing root rest
    else
      FileM.ensureDirectory target
      return directory :: (← makeMissing root rest)

/-! ## Files -/

/-- Writes files in turn, and says what was done for each, until the run is cancelled.  The first
write that fails ends the run; a file that cannot be looked at makes it fail only after the others
have been written. -/
def writeFiles (root : Path) (policy : Policy) (contents : Contents) :
    Allowance → List String → FileM (List (String × Mark) × Allowance)
  | allowance, [] => return ([], allowance)
  | allowance, file :: rest => do
    if allowance.isSpent then return ([], allowance)
    let target := root.extend file
    let disk ← get
    match if policy == .skip then disk.exists? target else .ok false with
    | .error failure =>
      tryCatch (discard (writeFiles root policy contents allowance rest)) fun _ => pure ()
      throw failure
    | .ok true =>
      let (marks, allowance) ← writeFiles root policy contents allowance rest
      return ((file, .skipped) :: marks, allowance)
    | .ok false =>
      match contents.lookup file with
      | none => throw (.noContent file)
      | some text =>
        FileM.writeFile target (.text text) (policy == .overwrite)
        let (marks, allowance) ← writeFiles root policy contents allowance.spend rest
        return ((file, .written) :: marks, allowance)

/-- What was done for a file.  Of a file that was reached twice, the last time counts. -/
def markOf? (marks : List (String × Mark)) (file : String) : Option Mark :=
  marks.reverse.lookup file

/-- Carries out a plan under a root, and says what was done and what is left of the allowance. -/
def carryOut (entries : List PlanEntry) (root : Path) (contents : Contents) (policy : Policy)
    (allowance : Allowance) : FileM (Ledger × Allowance) := do
  let directories := plannedDirectories entries
  let files := plannedFiles entries
  let wanted := directories ++ impliedDirectories directories files
  if allowance.isSpent && !wanted.isEmpty then
    return ({ cancelled := true }, allowance)
  let made ← makeMissing root wanted
  let (marks, allowance) ← writeFiles root policy contents allowance files
  let reached := (marks.map (·.1)).eraseDups.length
  let ledger : Ledger := {
    directories := made.filter directories.contains
    files := files.filter fun file => markOf? marks file == some .written
    skipped := files.filter fun file => markOf? marks file == some .skipped
    cancelled := allowance.isSpent && decide (reached < files.length) }
  return (ledger, allowance)

end PackageScaffold
