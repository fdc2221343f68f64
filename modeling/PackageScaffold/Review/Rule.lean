import PackageScaffold.Review.Finding
import PackageScaffold.Review.Subject
import PackageScaffold.Text.Word
import PackageScaffold.Value.Display

/-!
# Rules

A rule looks at one side of a package and checks it.  Rules only look; what would mend a failed
check is a plan, which is carried out later.

## Main definitions

* `Check`: the outcome of one check;
* `Category.checks`: the checks of each category;
* `isVersion`: what counts as a version.
-/

namespace PackageScaffold

/-- The outcome of a check.  A failed check comes with the plan that would mend it; an empty plan
mends nothing. -/
inductive Check where
  | passed (message : String)
  | failed (severity : Severity) (message subject : String) (repair : List PlanEntry)

namespace Check

/-- The check that is passed if the condition holds. -/
def of (holds : Bool) (success : String) (otherwise : Check) : Check :=
  if holds then .passed success else otherwise

/-- The passed check, if it is one. -/
def passed? (category : Category) : Check → Option PassedCheck
  | .passed message => some ⟨category, message⟩
  | .failed .. => none

/-- The finding of a failed check. -/
def finding? (category : Category) : Check → Option Finding
  | .passed _ => none
  | .failed severity message subject repair =>
    some ⟨category, severity, message, subject, !repair.isEmpty⟩

/-- The plan that would mend a failed check, with the path of what is missing. -/
def repair? : Check → Option (String × List PlanEntry)
  | .passed _ => none
  | .failed _ _ subject repair => if repair.isEmpty then none else some (subject, repair)

end Check

/-! ## Files and metadata -/

/-- The file with the first words about a package. -/
def readmeFile : String := "README.md"

/-- The file with the rules of the static analysis. -/
def analysisFile : String := "analysis_options.yaml"

/-- The files that every package has, with the templates of those that can be made. -/
def requiredFiles : List (String × Option String) :=
  [(metadataFile, none),
   (readmeFile, some "docs/readme"),
   ("CHANGELOG.md", some "docs/changelog"),
   ("LICENSE", some "docs/license_mit")]

/-- Every required file is there. -/
def checkRequiredFiles (s : Subject) (disk : Disk) : Except Failure (List Check) :=
  requiredFiles.mapM fun (path, template?) => do
    return .of (← disk.exists? (s.inside path)) (path ++ " present") <|
      .failed .error ("Missing required file: " ++ path) path
        (template?.toList.map fun template => s.layout.file path template)

/-- The fields that every package declares. -/
def requiredFields : List String :=
  ["name", "description", "version", "environment"]

/-- The fields that a strict review asks for as well. -/
def recommendedFields : List String :=
  ["homepage", "repository", "issue_tracker", "documentation"]

/-- Whether a field has a value other than nothing and the empty text. -/
def isFilled : Option Value → Bool
  | none | some .null | some (.text "") => false
  | some _ => true

/-- A field of the metadata is filled. -/
def checkField (metadata : Entries) (severity : Severity) (need field : String) : Check :=
  .of (isFilled (Entries.get? metadata field)) ("'" ++ field ++ "' field present") <|
    .failed severity
      ("Missing " ++ need ++ " field '" ++ field ++ "' in " ++ metadataFile) metadataFile []

/-- The metadata can be read, and the fields that matter are filled. -/
def checkMetadata (s : Subject) : List Check :=
  match s.defect, s.metadata with
  | some defect, _ => [.failed .error defect metadataFile []]
  | none, none => []
  | none, some metadata =>
    requiredFields.map (checkField metadata .error "required") ++
      if s.strict then recommendedFields.map (checkField metadata .warning "recommended") else []

/-! ## Versions -/

/-- What follows a number in front of a text. -/
def afterNumber? (cs : List Char) : Option (List Char) :=
  match cs.dropWhile Text.isDigit with
  | rest => if rest.length < cs.length then some rest else none

/-- What follows a dot in front of a text. -/
def afterDot? : List Char → Option (List Char)
  | '.' :: rest => some rest
  | _ => none

/-- What follows a build number in front of a text, or the text itself without one. -/
def afterBuild (cs : List Char) : List Char :=
  match cs with
  | '+' :: rest => (afterNumber? rest).getD cs
  | _ => cs

/-- Whether a text is nothing or the mark of a preview: a hyphen, and word characters, dots or
hyphens. -/
def isPreview : List Char → Bool
  | [] => true
  | '-' :: rest => !rest.isEmpty && rest.all fun c => Text.isWord c || c == '.' || c == '-'
  | _ => false

/-- Whether a text is a version: three numbers with dots between them, a build number behind `+`,
and the mark of a preview.  One line break at the end is let through. -/
def isVersion (cs : List Char) : Bool :=
  let rest? := do
    let minor ← afterDot? (← afterNumber? (Name.withoutLineBreak cs))
    let patch ← afterDot? (← afterNumber? minor)
    afterNumber? patch
  match rest? with
  | some rest => isPreview (afterBuild rest)
  | none => false

/-- The text of a value of the metadata, unless a number in it is too long. -/
def writtenOut (value : Value) : Except Failure String :=
  if value.isOverlong then .error .numberTooLong else .ok value.display

/-- The version is written as one.  A version that is no text can be compared, and no finding can
quote it. -/
def checkVersion (s : Subject) : Except Failure (List Check) :=
  match s.field? "version" with
  | none | some .null => return []
  | some (.brokenText _) => throw (.invalid "Finding" [⟨["message"], .textUndecodable⟩])
  | some version => do
    let text ← writtenOut version
    return [.of (isVersion text.toList) ("version " ++ text ++ " follows semantic versioning") <|
      .failed .warning
        ("Version '" ++ text ++ "' does not follow semantic versioning (x.y.z)") metadataFile []]

/-- The package cannot be published by accident. -/
def checkPublish (s : Subject) : Except Failure (List Check) :=
  match s.metadata with
  | none => return []
  | some metadata => do
    let target ← writtenOut ((Entries.get? metadata "publish_to").getD (.text ""))
    return [.of (Text.trim target == "none") "publish_to: none is set" <|
      .failed .warning
        ("No 'publish_to: none' in pubspec.yaml; the package can be published by accident")
        metadataFile []]

/-! ## Directories -/

/-- A directory is there, and is one. -/
def checkDirectory (s : Subject) (disk : Disk) (name : String) (severity : Severity)
    (repair : List PlanEntry) : Except Failure Check := do
  match ← disk.look? (s.inside name) with
  | some (.directory _) => return .passed (name ++ "/ directory present")
  | some (.file _) => return .failed severity (name ++ " exists but is not a directory") name []
  | none => return .failed severity ("Missing " ++ name ++ "/ directory") name repair

/-- The library that users import is there. -/
def checkLibrary (s : Subject) (disk : Disk) (name : String) : Except Failure Check := do
  let path := "lib/" ++ name ++ ".dart"
  return .of (← disk.exists? (s.inside path)) (path ++ " present") <|
    .failed .error ("Missing main library file: " ++ path) path s.layout.library

/-- A part of a plugin is there. -/
def checkPart (s : Subject) (disk : Disk) (label : String) (entry : PlanEntry) :
    Except Failure Check := do
  return .of (← disk.exists? (s.inside entry.path)) (label ++ " present (" ++ entry.path ++ ")") <|
    .failed .error ("Missing plugin " ++ label ++ ": " ++ entry.path) entry.path [entry]

/-- Where the native part of a plugin on a platform is looked for. -/
def nativePath (name : String) : Platform → String
  | .android => "android"
  | .ios => "ios"
  | .web => "lib/" ++ name ++ "_web.dart"
  | .windows => "windows"
  | .linux => "linux"
  | .macos => "macos"

/-- Whether there is a file at a path, or a directory that is not empty. -/
def hasContent (disk : Disk) (path : Path) : Except Failure Bool := do
  match ← disk.look? path with
  | some (.directory entries) => return !entries.isEmpty
  | some (.file _) => return true
  | none => return false

/-- The native part of a plugin on a platform is there. -/
def checkNative (s : Subject) (disk : Disk) (name : String) (platform : Platform) :
    Except Failure Check := do
  let path := nativePath name platform
  let isThere ← hasContent disk (s.inside path)
  return .of isThere (platform.text ++ " platform present (" ++ path ++ ")") <|
    .failed .warning
      ("Missing native code for declared platform '" ++ platform.text ++ "': " ++ path) path
      [s.layout.pluginStub platform]

/-- The parts of a plugin are there. -/
def checkPlugin (s : Subject) (disk : Disk) (name : String) : Except Failure (List Check) := do
  let interface ← checkPart s disk "platform interface" s.layout.platformInterface
  let channel ← checkPart s disk "method channel implementation" s.layout.methodChannel
  return [interface, channel] ++ (← s.platforms.mapM (checkNative s disk name))

/-- The directories and the files that the package is made of are there.  The library is looked for
even without its directory, so that one repair mends both. -/
def checkLayout (s : Subject) (disk : Disk) : Except Failure (List Check) := do
  let tests := match s.name with
    | some _ => [directoryEntry "test", s.layout.test true]
    | none => []
  let lib ← checkDirectory s disk "lib" .error [directoryEntry "lib"]
  let library ← s.name.toList.mapM (checkLibrary s disk)
  let test ← checkDirectory s disk "test" .warning tests
  let parts ← match s.kind, s.name with
    | .plugin, some name => checkPlugin s disk name
    | _, _ => pure []
  return [lib] ++ library ++ [test] ++ parts

/-! ## Documentation -/

/-- How long a readme is at least, in characters. -/
def leastReadmeLength : Nat := 100

/-- Whether one text stands somewhere in another. -/
def occursIn (piece : List Char) : List Char → Bool
  | [] => piece.isEmpty
  | c :: cs => piece.isPrefixOf (c :: cs) || occursIn piece cs

/-- The readme says enough: it is long enough, it has headings, and for a strict review it has
examples. -/
def checkReadme (strict : Bool) (readme : List Char) : List Check :=
  let length (n : Nat) : String := String.ofList (Nat.toDigits 10 n)
  let warn (message : String) : Check := .failed .warning message readmeFile []
  [.of (leastReadmeLength ≤ readme.length) "README.md has substantial content" <|
    warn ("README.md is too short (" ++ length readme.length ++ " characters, minimum " ++
      length leastReadmeLength ++ ")"),
   .of (readme.contains '#') "README.md has section headings" <|
    warn "README.md has no section headings"] ++
  if strict then
    [.of (occursIn ['\x60', '\x60', '\x60'] readme) "README.md has code examples" <|
      warn "README.md has no code examples"]
  else []

/-- The readme can be read and says enough.  Without one there is nothing to check. -/
def checkDocumentation (s : Subject) (disk : Disk) : Except Failure (List Check) := do
  if !(← disk.exists? (s.inside readmeFile)) then return []
  let readme ← disk.read (s.inside readmeFile)
  return checkReadme s.strict readme.toList

/-- The static analysis is configured. -/
def checkLint (s : Subject) (disk : Disk) : Except Failure (List Check) := do
  return [.of (← disk.exists? (s.inside analysisFile)) (analysisFile ++ " present") <|
    .failed .warning ("Missing " ++ analysisFile) analysisFile
      [s.layout.file analysisFile "config/analysis_options"]]

/-- The checks of a category. -/
def Category.checks (category : Category) (s : Subject) (disk : Disk) :
    Except Failure (List Check) :=
  match category with
  | .requiredFiles => checkRequiredFiles s disk
  | .metadata => .ok (checkMetadata s)
  | .version => checkVersion s
  | .publish => checkPublish s
  | .layout => checkLayout s disk
  | .documentation => checkDocumentation s disk
  | .lint => checkLint s disk

end PackageScaffold
