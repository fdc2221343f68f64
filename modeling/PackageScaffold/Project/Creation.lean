import PackageScaffold.Plan.Ledger
import PackageScaffold.Plan.Layout

/-!
# Creating a project

A new project is written below its root, which must not exist yet or be an empty directory, unless
it may be overwritten.
-/

namespace PackageScaffold

/-- What was made of a project. -/
structure Creation where
  root : Path
  directories : List String
  files : List String
  cancelled : Bool
  deriving DecidableEq, Repr

/-- What stands in the way of a project at its root. -/
def Model.obstacle? (m : Model) (disk : Disk) : Except Failure (Option Obstacle) := do
  match ← disk.look? m.outputRoot with
  | none => return none
  | some (.file _) => return some (.rootNotDirectory m.outputRoot.text)
  | some (.directory entries) =>
    return if entries.isEmpty || m.force then none else some (.rootNotEmpty m.outputRoot.text)

/-- Creates a project.  All contents are made before anything is written. -/
def create (settings : Settings) (today : Date) (m : Model) (allowance : Allowance) :
    FileM Creation := do
  if let some obstacle ← FileM.inspect m.obstacle? then throw (.occupied obstacle)
  let entries := (m.layout today).plan
  match renderPlan settings.strictTemplates entries with
  | .error fault => throw (.template fault)
  | .ok contents =>
    FileM.ensureDirectory m.outputRoot
    let policy := if m.force then Policy.overwrite else .fail
    let (ledger, _) ← carryOut entries m.outputRoot contents policy allowance
    return { root := m.outputRoot, directories := ledger.directories, files := ledger.files
             cancelled := ledger.cancelled }

end PackageScaffold
