import PackageScaffold.Failure
import PackageScaffold.Value.Basic
import PackageScaffold.Yaml.Document

/-!
# Package metadata

The metadata of a package is the mapping that its `pubspec.yaml` holds.
-/

namespace PackageScaffold

/-- The file that holds the metadata of a package. -/
def metadataFile : String := "pubspec.yaml"

namespace Metadata

/-- The metadata that a text holds. -/
def parse (text : String) : Except Failure Entries :=
  match Yaml.read text with
  | .ok (.map entries) => .ok entries
  | .ok _ => .error (.unreadableMetadata (metadataFile ++ " is not a key/value mapping"))
  | .error (.malformed defect) =>
    .error (.unreadableMetadata (metadataFile ++ " is not valid YAML: " ++ defect.message))
  | .error (.unbuildable cause) => .error (.unbuildable cause)

end Metadata

end PackageScaffold
