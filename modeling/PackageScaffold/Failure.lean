import PackageScaffold.Template.Fault
import PackageScaffold.Violation

/-!
# Failures

Why an operation of the toolkit ends without a result.  Each failure is a cause; its words are
computed from it by `Failure.message`.

## Main definitions

* `Misconfiguration`: what can be wrong with a request or with the settings, before anything is
  written;
* `Failure`: every way in which an operation can fail.
-/

namespace PackageScaffold

/-- What is wrong with a request or with the settings. -/
inductive Misconfiguration where
  | unknownKind (asked : String)
  | unknownPlatform (tag : String)
  | invalidName (name : String)
  | invalidOrganization (organization : String)
  | noPlatforms
  | invalidModel (violations : List Violation)
  | unreadableSettings (path reason : String)
  | invalidSettingsFile (path : String) (violations : List Violation)
  | invalidEnvironment (violations : List Violation)
  | unsupportedReport (ending : String)
  | notDirectory (path : String)
  | noMetadata (path : String)
  deriving DecidableEq, Repr

/-- The misconfiguration in words. -/
def Misconfiguration.message : Misconfiguration → String
  | .unknownKind asked =>
    "Unknown project kind '" ++ asked ++ "'. Expected one of: app, application, " ++
      "library-component, package, plugin, pure-library"
  | .unknownPlatform tag =>
    "Unknown platform '" ++ tag ++ "'. Supported platforms: android, ios, web, windows, " ++
      "linux, macos"
  | .invalidName name =>
    "Invalid package name '" ++ name ++ "'. Use lowercase letters, digits and underscores, " ++
      "starting with a letter (e.g. my_package)."
  | .invalidOrganization organization =>
    "Invalid organization '" ++ organization ++ "'. Use a reverse-domain identifier such as " ++
      "com.example."
  | .noPlatforms => "A plugin needs at least one platform"
  | .invalidModel violations => Violation.summary "project" violations
  | .unreadableSettings path reason => "Cannot read config file " ++ path ++ ": " ++ reason
  | .invalidSettingsFile path violations =>
    "Invalid config file " ++ path ++ ": " ++ Violation.summary "settings" violations
  | .invalidEnvironment violations =>
    "Invalid FPD_* environment setting: " ++ Violation.summary "settings" violations
  | .unsupportedReport ending =>
    "Unsupported report format '" ++ ending ++ "'. Use .md or .json"
  | .notDirectory path => "Not a directory: " ++ path
  | .noMetadata path =>
    "No pubspec.yaml found in " ++ path ++ ". Run init from the project root."

/-- The violations that a misconfiguration was found by. -/
def Misconfiguration.violations? : Misconfiguration → Option (List Violation)
  | .invalidModel violations | .invalidSettingsFile _ violations
  | .invalidEnvironment violations => some violations
  | _ => none

/-- What stands in the way of new files. -/
inductive Obstacle where
  | destination (path : String)
  | rootNotDirectory (path : String)
  | rootNotEmpty (path : String)
  deriving DecidableEq, Repr

/-- The obstacle in words. -/
def Obstacle.message : Obstacle → String
  | .destination path => "Destination already exists: " ++ path
  | .rootNotDirectory path => "Output path is not a directory: " ++ path
  | .rootNotEmpty path =>
    "Directory " ++ path ++ " already exists and is not empty. Use --force to overwrite."

/-- A value that a well-formed document asks for and that cannot be built. -/
inductive Unbuildable where
  /-- A date or a time of day that no calendar or clock shows, or a number that is none. -/
  | impossible
  /-- A truth value with an unknown word. -/
  | unknownWord
  /-- A number without any characters. -/
  | emptyNumber
  /-- A moment that is not written as one. -/
  | notMoment
  /-- A moment for which something other than a text is written. -/
  | notText
  /-- A number beyond every range. -/
  | tooLarge
  /-- Collections inside collections, more of them than can be read. -/
  | tooDeep
  deriving DecidableEq, Repr

/-- Every way in which an operation can fail. -/
inductive Failure where
  | misconfigured (cause : Misconfiguration)
  | occupied (obstacle : Obstacle)
  /-- The file system refuses an operation. -/
  | refused (path reason : String)
  /-- A file or directory that is to be read does not exist. -/
  | absent (path : String)
  /-- It cannot be found out whether there is anything at a place. -/
  | unreachable (reason : String)
  /-- A path holds the character that no file system takes. -/
  | nullInPath
  /-- The package metadata cannot be read as a mapping. -/
  | unreadableMetadata (reason : String)
  | template (fault : Template.Fault)
  /-- A record is built directly from fields that do not fit. -/
  | invalid (record : String) (violations : List Violation)
  | unbuildable (cause : Unbuildable)
  /-- A whole number is too long to be written out. -/
  | numberTooLong
  /-- A plan names a file that no content is given for. -/
  | noContent (path : String)
  /-- A text file is not encoded as such. -/
  | undecodable (reason : String)
  /-- Something that must be a text is none. -/
  | mistyped
  deriving DecidableEq, Repr

/-- The failure in words. -/
def Failure.message : Failure → String
  | .misconfigured cause => cause.message
  | .occupied obstacle => obstacle.message
  | .refused path reason => path ++ ": " ++ reason
  | .absent path => path ++ ": not found"
  | .unreachable reason => reason
  | .nullInPath => "embedded null byte"
  | .unreadableMetadata reason => reason
  | .template fault => fault.message
  | .invalid record violations => Violation.summary record violations
  | .unbuildable .impossible => "a value of the document is out of range"
  | .unbuildable .unknownWord => "a truth value of the document is unknown"
  | .unbuildable .emptyNumber => "a number of the document is empty"
  | .unbuildable .notMoment => "a moment of the document is not written as one"
  | .unbuildable .notText => "a moment of the document is not a text"
  | .unbuildable .tooLarge => "a number of the document is too large"
  | .unbuildable .tooDeep => "the document is nested too deeply"
  | .numberTooLong =>
    "Exceeds the limit (4300 digits) for integer string conversion; use " ++
      "sys.set_int_max_str_digits() to increase the limit"
  | .noContent path => path
  | .undecodable reason => reason
  | .mistyped => "a text is expected"

/-- Whether a failure is one that the toolkit reports on purpose. -/
def Failure.isExpected : Failure → Bool
  | .misconfigured _ | .occupied _ | .refused _ _ | .absent _ | .unreadableMetadata _
  | .template _ => true
  | .unreachable _ | .nullInPath | .invalid _ _ | .unbuildable _ | .numberTooLong | .noContent _
  | .undecodable _ | .mistyped => false

end PackageScaffold
