import PackageScaffold.CommandLine.Invocation
import PackageScaffold.CommandLine.Screen
import PackageScaffold.Project.Creation
import PackageScaffold.Project.Retrofit
import PackageScaffold.Review
import PackageScaffold.Settings.Environment
import PackageScaffold.Settings.File

/-!
# Running a command line

A command line is read, the settings are gathered, and the command is carried out on a disk.  A
failure that the toolkit reports on purpose is shown and ends the run with status 1; what was shown
and written before it stays.

## Main definitions

* `Session`: the disk, and what has been shown;
* `Invocation.run`: carries out an invocation;
* `run`: carries out a command line.
-/

namespace PackageScaffold.CommandLine

/-- What a command works on: a disk, and the screen. -/
structure Session where
  disk : Disk
  /-- What has been shown, in order. -/
  shown : List Shown := []

/-- A computation that changes a disk, shows things, and may fail. -/
abbrev SessionM := ExceptT Failure (StateM Session)

/-- Shows things. -/
def present (items : List Shown) : SessionM Unit :=
  modify fun session => { session with shown := session.shown ++ items }

/-- Works on the disk. -/
def onDisk {α : Type} (work : FileM α) : SessionM α := do
  let session ← get
  let (result, disk) := work.run.run session.disk
  set { session with disk }
  match result with
  | .ok a => return a
  | .error failure => throw failure

/-- Goes on if nothing has failed. -/
def checked {α : Type} : Except Failure α → SessionM α
  | .ok a => return a
  | .error failure => throw failure

/-- The status of a run in which all went well. -/
def succeeded : Nat := 0

/-- The status of a run that failed. -/
def failed : Nat := 1

/-- The status of a review that found errors. -/
def foundErrors : Nat := 2

/-- Texts with commas between them, or a dash. -/
def listed (texts : List String) : String :=
  if texts.isEmpty then "-" else Text.join ", " texts

/-- The program that fetches the packages that a project depends on. -/
def packageTool : Kind → String
  | .package => "dart"
  | _ => "flutter"

/-- What to do next with a project. -/
def nextSteps (kind : Kind) (enter : List String) : List Shown :=
  (["Next steps:"] ++ enter ++
    ["  " ++ packageTool kind ++ " pub get", "  fpd-toolkit validate ."]).map .line

/-! ## Commands -/

/-- What is given, as a value; nothing is a list without items. -/
def Given.value : Given → Value
  | .text word => .text word
  | .nothing => .list []

/-- The platforms that are asked for by what is given. -/
def Given.platforms : Given → PlatformRequest
  | .text tags => .text tags
  | .nothing => .list []

/-- The request that the options of `create` make. -/
def CreateOptions.request (o : CreateOptions) : Request :=
  let option (text? : Option String) : Value := (text?.map Value.text).getD .null
  { kind := o.kind.value
    name := o.name.value
    description := option o.description
    author := option o.author
    organization := o.organization
    platforms := o.platforms.map Given.platforms
    outputRoot := (o.output.map Given.value).getD .null
    force := .bool o.force }

/-- Creates a project, or shows what would be created. -/
def runCreate (settings : Settings) (today : Date) (o : CreateOptions) : SessionM Nat := do
  let model ← checked (Model.ofRequest settings o.request)
  if o.dryRun then
    present [.tree (model.layout today).describe, .line "[dim]Dry run: nothing was written.[/dim]"]
    return succeeded
  let creation ← onDisk (create settings today model none)
  if creation.cancelled then
    present [.warning "Creation was cancelled before all files were written"]
    return failed
  let platforms :=
    if model.platforms.isEmpty then []
    else [("Platforms", Text.join ", " (model.platforms.map Platform.text))]
  present <|
    [.success ("Created " ++ model.kind.label ++ " '" ++ model.name ++ "' in " ++
      creation.root.text)] ++
    Shown.summary "Project"
      ([("Kind", model.kind.text), ("Organization", model.organization),
        ("Directories", Report.number creation.directories.length),
        ("Files", Report.number creation.files.length)] ++ platforms) ++
    nextSteps model.kind ["  cd " ++ creation.root.text]
  return succeeded

/-- Brings a project up to the conventions. -/
def runRetrofit (settings : Settings) (today : Date) (o : RetrofitOptions) : SessionM Nat := do
  let done ← onDisk (retrofit settings today o.wanted o.force (Path.ofString o.path) none)
  let name := match done.name with
    | none | some "" => "project"
    | some name => name
  present <|
    [.success ("Initialized " ++ done.kind.label ++ " '" ++ name ++ "' in " ++ done.root.text)] ++
    Shown.summary "Init"
      [("Kind", done.kind.text), ("Written", listed done.files), ("Kept", listed done.skipped)] ++
    (if !done.skipped.isEmpty && !o.force then
      [.line "[dim]Existing files were kept; use --force to overwrite them.[/dim]"]
    else []) ++
    nextSteps done.kind []
  return succeeded

/-- Reviews a package, and writes the report if asked to. -/
def runReview (settings : Settings) (now : Moment) (o : ReviewOptions) : SessionM Nat := do
  let root := Path.ofString o.path
  if !(← onDisk (FileM.inspect (·.isDirectory root))) then
    present [.failure ("Error: not a directory: " ++ root.text)]
    return failed
  let report ← onDisk (review settings now o.strict o.fix root)
  present (showReport report)
  match o.report with
  | none | some "" => pure ()
  | some file =>
    let target := Path.ofString file
    onDisk (saveReport report target)
    present [.success ("Report written to " ++ target.text)]
  let mustPass := o.failOnError || settings.failOnError
  return if mustPass && report.count .error != 0 then foundErrors else succeeded

/-- The row of a kind. -/
def kindRow (kind : Kind) : List String :=
  [kind.shortName, kind.text,
    match kind with
    | .package => "-"
    | _ => Text.join ", " (Platform.all.map Platform.text)]

/-- The row of a template. -/
def templateRow (name : String) : List String :=
  match Catalogue.standard.mentionedNames name with
  | .ok names => [name, Text.join ", " names]
  | .error _ => [name, ""]

/-- Lists the kinds of projects and the templates. -/
def runListTemplates : SessionM Nat := do
  present [
    .table "Project kinds" ["Alias", "Kind", "Platforms"] (Kind.all.map kindRow),
    .table "Templates" ["Name", "Variables"] ((Catalogue.standard.namesFrom "").map templateRow)]
  return succeeded

/-- Shows the files that a kind of project consists of. -/
def runShowSample (settings : Settings) (today : Date) (o : SampleOptions) : SessionM Nat := do
  let model ← checked <| Model.ofRequest settings {
    kind := o.kind.value, name := o.name.value, platforms := o.platforms.map Given.platforms }
  present [.tree (model.layout today).describe]
  return succeeded

/-- A setting in words. -/
def settingText : Value → String
  | .list items => Text.join ", " (items.map Value.display)
  | value => value.display

/-- Shows the settings, and saves them if asked to. -/
def runShowSettings (settings : Settings) (save : Option String) : SessionM Nat := do
  present <| Shown.summary "Configuration" <|
    settings.toEntries.map fun (name, value) => (name.display, settingText value)
  match save with
  | none | some "" => pure ()
  | some file =>
    let target := Path.ofString file
    onDisk (settings.save target)
    present [.success ("Configuration written to " ++ target.text)]
  return succeeded

/-- Carries out a command. -/
def Command.run (settings : Settings) (now : Moment) : Command → SessionM Nat
  | .create o => runCreate settings now.date o
  | .retrofit o => runRetrofit settings now.date o
  | .review o => runReview settings now o
  | .listTemplates => runListTemplates
  | .showSample o => runShowSample settings now.date o
  | .showSettings save => runShowSettings settings save

/-- The settings of an invocation: those of its file, overridden by the environment. -/
def Invocation.settings (invocation : Invocation) (environment : Environment) :
    SessionM Settings := do
  let base ← match invocation.settingsFile with
    | none | some "" => pure none
    | some file => some <$> onDisk (FileM.inspect (Settings.load (Path.ofString file)))
  checked ((Settings.ofEnvironment environment base).mapError .misconfigured)

/-- Carries out an invocation.  A failure that is reported on purpose is shown. -/
def Invocation.run (invocation : Invocation) (environment : Environment) (now : Moment) :
    SessionM Nat :=
  tryCatch (do invocation.command.run (← invocation.settings environment) now) fun failure =>
    if failure.isExpected then do
      present [.failure ("Error: " ++ failure.message)]
      return failed
    else throw failure

/-- Carries out a command line on a disk: the status of the run, or the failure that it broke off
with, and the disk and the screen behind it. -/
def run (arguments : List String) (environment : Environment) (now : Moment) (disk : Disk) :
    Except Failure Nat × Session :=
  match Invocation.read arguments with
  | .error halt => (.ok halt.status, { disk })
  | .ok invocation => (invocation.run environment now).run.run { disk }

end PackageScaffold.CommandLine
