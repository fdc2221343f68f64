import PackageScaffold.Files.Disk
import PackageScaffold.Json.Reader
import PackageScaffold.Json.Writer
import PackageScaffold.Settings.Basic

/-!
# Settings files

Settings can be saved to a file and loaded from it.  They are kept as a JSON object with a field for
each setting.
-/

namespace PackageScaffold.Settings

/-! ## The document -/

/-- The settings as a document. -/
def toJson (s : Settings) : String :=
  Json.write 0 (.map s.toEntries)

/-- The settings that a document holds. -/
def ofJson (text : String) : Checked Settings :=
  match Json.read? text with
  | none => .error [⟨[], .documentUnreadable⟩]
  | some (.map entries) => ofEntries entries
  | some _ => .error [⟨[], .documentNotRecord⟩]

/-! ## The file -/

/-- Writes settings to a file, and makes the directories above it. -/
def save (settings : Settings) (path : Path) : FileM Unit :=
  FileM.saveText path settings.toJson

/-- Loads settings from a file. -/
def load (path : Path) (disk : Disk) : Except Failure Settings :=
  if path.hasNull then .error .nullInPath
  else
    match disk.content path with
    | .error refusal => .error (.misconfigured (.unreadableSettings path.text refusal.text))
    | .ok content =>
      match content.read with
      | .error fault => .error (.undecodable fault.message)
      | .ok text =>
        (ofJson text).mapError fun violations =>
          .misconfigured (.invalidSettingsFile path.text violations)

end PackageScaffold.Settings
