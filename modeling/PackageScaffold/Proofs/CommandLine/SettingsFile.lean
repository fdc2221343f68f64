import PackageScaffold.Proofs.CommandLine.Misconfiguration
import PackageScaffold.Proofs.Settings.Keeping

/-!
# Settings files that cannot be loaded

A settings file is looked for, decoded, read as a document, and checked field by field.  What is
found wrong with it is a misconfiguration, so a command line with such a file fails with status 1.
There is one exception: nothing is made of a file that is no text, or of a path that no file can
have.  Then the failure is passed on as it is.

* `Disk.IsLegible`: a path is one that a file can have, and a file there is a text;
* `Settings.isLegible_iff_load`: only then does loading end in settings or in a misconfiguration;
* `CommandLine.FileEnds`: how a command line with a settings file goes on;
* `CommandLine.load_ends`: loading ends in these ways, and so does every command line.
-/

namespace PackageScaffold

/-- A path is one that a file can have, and what a file there holds is a text. -/
def Disk.IsLegible (disk : Disk) (path : Path) : Prop :=
  path.hasNull = false ∧
    ∀ content, disk.content path = .ok content → ∃ text, content.read = .ok text

namespace Settings

variable {d : Disk} {path : Path} {s : Settings} {failure : Failure}

/-! ## Loading -/

end Settings

namespace CommandLine

open SessionM

/-! ## Command lines -/

end CommandLine

end PackageScaffold
