import PackageScaffold.Plan.Ledger
import PackageScaffold.Review.Subject

/-!
# Retrofitting a project

A project that exists is brought up to the conventions: lint rules, a workflow, documents and a
first test are added.  What is there already is kept unless it may be replaced; the change log and
the licence are kept in any case.
-/

namespace PackageScaffold

/-- What was done for a project. -/
structure Retrofit where
  root : Path
  kind : Kind
  name : Option String
  directories : List String := []
  files : List String := []
  skipped : List String := []
  cancelled : Bool := false
  deriving DecidableEq, Repr

/-- The files that are never replaced. -/
def preservedFiles : List String :=
  ["CHANGELOG.md", "LICENSE"]

/-- Reads the project at a path.  It must have metadata that can be read. -/
def subjectToRetrofit (settings : Settings) (today : Date) (root : Path) (disk : Disk) :
    Except Failure Subject := do
  if !(← disk.isDirectory root) then throw (.misconfigured (.notDirectory root.text))
  if !(← disk.exists? (root.extend metadataFile)) then
    throw (.misconfigured (.noMetadata root.text))
  let subject ← Subject.ofDisk settings today false root disk
  match subject.defect with
  | some defect => throw (.unreadableMetadata defect)
  | none => return subject

/-- Adds what a plan has done. -/
def Retrofit.add (done : Retrofit) (ledger : Ledger) : Retrofit :=
  { done with
    directories := done.directories ++ ledger.directories
    files := done.files ++ ledger.files
    skipped := done.skipped ++ ledger.skipped
    cancelled := ledger.cancelled }

/-- Carries out plans in turn, each with its policy.  A plan without entries is passed over, and a
cancelled one is the last. -/
def Retrofit.carryOutAll (contents : Contents) :
    Retrofit → Allowance → List (List PlanEntry × Policy) → FileM Retrofit
  | done, _, [] => return done
  | done, allowance, (entries, policy) :: rest => do
    if entries.isEmpty then carryOutAll contents done allowance rest
    else
      let (ledger, allowance) ← carryOut entries done.root contents policy allowance
      let done := done.add ledger
      if ledger.cancelled then return done
      else carryOutAll contents done allowance rest

/-- Brings the project at a path up to the conventions. -/
def retrofit (settings : Settings) (today : Date) (wanted : Conventions) (force : Bool)
    (root : Path) (allowance : Allowance) : FileM Retrofit := do
  let subject ← FileM.inspect (subjectToRetrofit settings today root)
  let entries := subject.layout.conventions wanted subject.name.isSome
  match renderPlan settings.strictTemplates entries with
  | .error fault => throw (.template fault)
  | .ok contents =>
    let isPreserved (entry : PlanEntry) : Bool := preservedFiles.contains entry.path
    Retrofit.carryOutAll contents { root, kind := subject.kind, name := subject.name } allowance
      [(entries.filter (!isPreserved ·), if force then .overwrite else .skip),
       (entries.filter isPreserved, .skip)]

end PackageScaffold
