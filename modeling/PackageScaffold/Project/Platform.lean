import PackageScaffold.Failure
import PackageScaffold.Text.Blank
import PackageScaffold.Text.Case
import PackageScaffold.Value.Display

/-!
# Target platforms

The platforms that an application or plugin supports, and the reading of platform lists.
-/

namespace PackageScaffold

/-- The platforms that a project can support. -/
inductive Platform where
  | android
  | ios
  | web
  | windows
  | linux
  | macos
  deriving DecidableEq, Repr, Inhabited

namespace Platform

/-- All platforms, in their usual order. -/
def all : List Platform := [.android, .ios, .web, .windows, .linux, .macos]

/-- The tag of a platform. -/
def text : Platform → String
  | .android => "android"
  | .ios => "ios"
  | .web => "web"
  | .windows => "windows"
  | .linux => "linux"
  | .macos => "macos"

/-- The platforms of a project that names none. -/
def standard : List Platform := [.android, .ios]

/-- The platform with the given tag. -/
def ofTag? (tag : String) : Option Platform :=
  all.find? fun platform => platform.text == tag

/-- A tag as it is compared: without blanks around it and in lower case. -/
def normalTag (tag : String) : String :=
  Text.lower (Text.trim tag)

/-- The platforms that tags name, in order of first mention.  Blank tags are skipped, and the first
unknown one is refused. -/
def ofTags (seen : List Platform) : List String → Except Misconfiguration (List Platform)
  | [] => .ok seen
  | tag :: tags =>
    if (normalTag tag).isEmpty then ofTags seen tags
    else
      match ofTag? (normalTag tag) with
      | none => .error (.unknownPlatform (normalTag tag))
      | some platform =>
        ofTags (if seen.contains platform then seen else seen ++ [platform]) tags

/-- The platforms that a list of tags names. -/
def ofList (tags : List String) : Except Misconfiguration (List Platform) :=
  ofTags [] tags

/-- The platforms that a comma-separated text names. -/
def ofText (s : String) : Except Misconfiguration (List Platform) :=
  ofList (Text.split ',' s)

/-- The platforms that plugin metadata declares, in the order of the file. -/
def declaredIn (metadata : Entries) : List Platform :=
  let platforms := (Entries.get? metadata "flutter").bind fun flutter =>
    (flutter.get? "plugin").bind fun plugin =>
      (plugin.get? "platforms").bind Value.entries?
  (platforms.getD []).filterMap fun (key, _) =>
    match key with
    | .text tag => ofTag? tag
    | _ => none

end Platform

end PackageScaffold
