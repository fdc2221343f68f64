import PackageScaffold.CommandLine.Arguments
import PackageScaffold.Plan.Layout

/-!
# Invocations

The commands of the toolkit, and how a command line asks for them.

## Main definitions

* `Command`, `Invocation`;
* `Invocation.read`: the invocation that arguments ask for.
-/

namespace PackageScaffold.CommandLine

/-- What is asked for when a project is to be created. -/
structure CreateOptions where
  kind : Given
  name : Given
  description : Option String := none
  author : Option String := none
  organization : Option String := none
  platforms : Option Given := none
  output : Option Given := none
  force : Bool := false
  dryRun : Bool := false
  deriving DecidableEq, Repr

/-- What is asked for when a project is to be brought up to the conventions. -/
structure RetrofitOptions where
  path : String := "."
  force : Bool := false
  wanted : Conventions := {}
  deriving DecidableEq, Repr

/-- What is asked for when a package is to be reviewed. -/
structure ReviewOptions where
  path : String := "."
  strict : Bool := false
  fix : Bool := false
  report : Option String := none
  failOnError : Bool := false
  deriving DecidableEq, Repr

/-- What is asked for when the plan of a sample project is to be shown. -/
structure SampleOptions where
  kind : Given
  platforms : Option Given := none
  name : Given := .text "my_project"
  deriving DecidableEq, Repr

/-- The commands of the toolkit. -/
inductive Command where
  | create (options : CreateOptions)
  | retrofit (options : RetrofitOptions)
  | review (options : ReviewOptions)
  | listTemplates
  | showSample (options : SampleOptions)
  | showSettings (save : Option String)
  deriving DecidableEq, Repr

/-- A command, with the file that the settings are loaded from. -/
structure Invocation where
  settingsFile : Option String
  command : Command
  deriving DecidableEq, Repr

/-! ## The arguments of each command -/

/-- An option that switches something on. -/
def switchOption (names : List String) : OptionSpec := ⟨names, .switch⟩

/-- An option that takes a value. -/
def valueOption (names : List String) : OptionSpec := ⟨names, .value⟩

/-- The option that shows a help text. -/
def helpOption : OptionSpec := ⟨["--help", "-h"], .help⟩

/-- The arguments in front of the command. -/
def mainLevel : Level where
  options :=
    [helpOption, switchOption ["--verbose", "-v"], ⟨["--version"], .version⟩,
      valueOption ["--config"]]
  slots := [.command]

/-- The arguments of `create`. -/
def createLevel : Level where
  options :=
    [helpOption, valueOption ["--description", "-d"], valueOption ["--author", "-a"],
      valueOption ["--organization", "-o"], valueOption ["--platforms", "-p"],
      valueOption ["--output"], switchOption ["--force", "-f"], switchOption ["--dry-run"]]
  slots := [.required, .required]

/-- The arguments of `init`. -/
def retrofitLevel : Level where
  options :=
    [helpOption, switchOption ["--force", "-f"], switchOption ["--no-analysis"],
      switchOption ["--no-ci"], switchOption ["--no-docs"], switchOption ["--no-tests"]]
  slots := [.optional]

/-- The arguments of `validate`. -/
def reviewLevel : Level where
  options :=
    [helpOption, switchOption ["--strict", "-s"], switchOption ["--fix", "-f"],
      valueOption ["--report"], switchOption ["--fail-on-error"]]
  slots := [.optional]

/-- The arguments of `templates`. -/
def templatesLevel : Level where
  options := [helpOption]
  slots := [.command]

/-- The arguments of `templates list`. -/
def listLevel : Level where
  options := [helpOption]
  slots := []

/-- The arguments of `templates show`. -/
def showLevel : Level where
  options := [helpOption, valueOption ["--platforms", "-p"], valueOption ["--name"]]
  slots := [.required]

/-- The arguments of `config`. -/
def settingsLevel : Level where
  options := [helpOption, valueOption ["--save"]]
  slots := []

/-! ## Reading an invocation -/

/-- What the given slot is given. -/
def Readings.word (readings : Readings) (slot : Nat) : Given :=
  (readings.words[slot]?).getD .nothing

/-- The path in the first slot; without one, the working directory. -/
def Readings.path (readings : Readings) : String :=
  (readings.word 0).text?.getD "."

/-- What `create` is asked for. -/
def CreateOptions.of (r : Readings) : CreateOptions where
  kind := r.word 0
  name := r.word 1
  description := r.text? "--description"
  author := r.text? "--author"
  organization := r.text? "--organization"
  platforms := r.value? "--platforms"
  output := r.value? "--output"
  force := r.has "--force"
  dryRun := r.has "--dry-run"

/-- What `init` is asked for. -/
def RetrofitOptions.of (r : Readings) : RetrofitOptions where
  path := r.path
  force := r.has "--force"
  wanted := {
    analysis := !r.has "--no-analysis"
    workflow := !r.has "--no-ci"
    documents := !r.has "--no-docs"
    tests := !r.has "--no-tests" }

/-- What `validate` is asked for. -/
def ReviewOptions.of (r : Readings) : ReviewOptions where
  path := r.path
  strict := r.has "--strict"
  fix := r.has "--fix"
  report := r.text? "--report"
  failOnError := r.has "--fail-on-error"

/-- What `templates show` is asked for. -/
def SampleOptions.of (r : Readings) : SampleOptions where
  kind := r.word 0
  platforms := r.value? "--platforms"
  name := (r.value? "--name").getD (.text "my_project")

/-- Reads the arguments of a command.  Surplus arguments are misuse, but only once all arguments
have been read. -/
def readLevel {α : Type} (level : Level) (make : Readings → α) (arguments : List String) :
    Except Halt α := do
  let readings ← level.read arguments
  if readings.hasSurplus then throw .misused
  return make readings

/-- The command that `templates` is asked for.  Without a further command, it lists. -/
def readTemplates (arguments : List String) : Except Halt Command := do
  let readings ← templatesLevel.read arguments
  let command ← match readings.command with
    | [] => pure .listTemplates
    | "list" :: rest => readLevel listLevel (fun _ => .listTemplates) rest
    | "show" :: rest => readLevel showLevel (fun r => .showSample (.of r)) rest
    | _ :: _ => throw .misused
  if readings.hasSurplus then throw .misused
  return command

/-- The command with the given name and arguments. -/
def Command.read (name : String) (arguments : List String) : Except Halt Command :=
  match name with
  | "create" => readLevel createLevel (fun r => .create (.of r)) arguments
  | "init" => readLevel retrofitLevel (fun r => .retrofit (.of r)) arguments
  | "validate" => readLevel reviewLevel (fun r => .review (.of r)) arguments
  | "templates" => readTemplates arguments
  | "config" => readLevel settingsLevel (fun r => .showSettings (r.text? "--save")) arguments
  | _ => .error .misused

/-- The invocation that arguments ask for. -/
def Invocation.read (arguments : List String) : Except Halt Invocation := do
  let readings ← mainLevel.read arguments
  match readings.command with
  | [] => throw (if readings.hasSurplus then .misused else .commandless)
  | name :: rest =>
    let command ← Command.read name rest
    if readings.hasSurplus then throw .misused
    return { settingsFile := readings.text? "--config", command }

end PackageScaffold.CommandLine
