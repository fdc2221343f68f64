import PackageScaffold.CommandLine.Run
import PackageScaffold.CommandLine.Usage
import PackageScaffold.Files.Changes
import Std.Time.Format

/-!
# The program

Reads the places that the command line is about into a disk, carries out the command line on it,
makes the changes, and shows what there is to show.
-/

namespace PackageScaffold.Program

/-- Reads what is at an entry of a directory onto the disk.  Directories that are only linked to are
not entered. -/
partial def readEntry (disk : Disk) (entry : IO.FS.DirEntry) (isRoot : Bool) : IO Disk := do
  let path := Path.ofString entry.path.toString
  if ← entry.path.isDir then
    let disk := (disk.makeDirectory path).1
    let isLink := (← entry.path.symlinkMetadata).type == .symlink
    if isLink && !isRoot then return disk
    (← entry.path.readDir).foldlM (fun disk child => readEntry disk child false) disk
  else
    let content := Content.ofBytes (← IO.FS.readBinFile entry.path).toList
    return (disk.write path content).toOption.getD disk

/-- Reads a place and the directories above it onto the disk. -/
def readPlace (disk : Disk) (place : String) : IO Disk := do
  let path := Path.ofString place
  let here ← IO.currentDir
  let above ← path.ancestors.reverse.foldlM (fun disk directory => do
    let entry : IO.FS.DirEntry := { root := here, fileName := directory.text }
    if ← entry.path.isDir then
      return (disk.makeDirectory (Path.ofString entry.path.toString)).1
    else if ← entry.path.pathExists then readEntry disk entry true
    else return disk) disk
  let entry : IO.FS.DirEntry := { root := here, fileName := path.text }
  if ← entry.path.pathExists then readEntry above entry true else return above

/-- The current moment of the local clock. -/
def currentMoment : IO Moment := do
  let now ← Std.Time.PlainDateTime.now
  return {
    date := ⟨now.year.toInt.toNat, now.month.toNat, now.day.toNat⟩
    hour := now.hour.toNat
    minute := now.minute.toNat
    second := now.second.toNat }

/-- The variables of the environment that settings are taken from. -/
def settingsEnvironment : IO Environment := do
  let names := ["FPD_AUTHOR", "FPD_ORGANIZATION", "FPD_PLATFORMS", "FPD_MAX_WORKERS",
    "FPD_STRICT_TEMPLATES", "FPD_FAIL_ON_ERROR"]
  names.filterMapM fun name => return (← IO.getEnv name).map fun value => (name, value)

/-- Makes a change. -/
def makeChange : Change → IO Unit
  | .directory path => IO.FS.createDirAll path
  | .file path (.text text) => IO.FS.writeFile path text
  | .file path (.bytes bytes) => IO.FS.writeBinFile path ⟨bytes.toArray⟩

/-- Shows a thing. -/
def display (shown : CommandLine.Shown) : IO Unit :=
  shown.lines.forM fun line => if shown.isError then IO.eprintln line else IO.println line

end PackageScaffold.Program

open PackageScaffold Program in
/-- Carries out a command line. -/
def main (arguments : List String) : IO UInt32 := do
  let places ← match CommandLine.Invocation.read arguments with
    | .ok invocation => pure invocation.places
    | .error halt => do
      if halt == .misused then IO.eprintln halt.text else IO.println halt.text
      pure []
  let working := (Path.ofString (← IO.currentDir).toString).steps.filter (· != "..")
  let empty : Disk :=
    { tree := FileTree.chain working, working, working_forward := by simp [working] }
  let before ← places.foldlM readPlace empty
  let (result, session) :=
    CommandLine.run arguments (← settingsEnvironment) (← currentMoment) before
  (FileTree.changes "" (some before.tree) session.disk.tree).forM makeChange
  session.shown.forM display
  match result with
  | .ok status => return status.toUInt32
  | .error failure => do
    IO.eprintln failure.message
    return 1
