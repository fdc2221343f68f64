import PackageScaffold.Failure
import PackageScaffold.Files.Tree
import PackageScaffold.Path

/-!
# Disks

A disk is a file tree with a working directory in it.  The operations take paths, which are followed
step by step: each step must start in a directory that is there, and each name must be short enough.
Every refusal is reported with the path that was asked for.

## Main definitions

* `Disk.locate`: the steps from the top of the tree that a path stands for;
* `Disk.makeDirectory`: makes a directory and those above it, as far as that goes;
* `FileM`: computations that change a disk and may fail; a failure keeps what was done before it;
* `look?`, `list`, `read`, `ensureDirectory`, `writeFile`: the operations.
-/

namespace PackageScaffold

/-- A file tree, and the steps from its top to the working directory, which never lead back. -/
structure Disk where
  tree : FileTree := .empty
  working : List String := []
  working_forward : ".." ∉ working := by exact List.not_mem_nil

instance : Inhabited Disk := ⟨{}⟩

namespace Disk

/-- The longest name of an entry of a directory, in bytes. -/
def longestName : Nat := 255

/-- The longest path, in bytes. -/
def longestPath : Nat := 4095

/-- Follows steps from a directory.  Two dots lead back out of it, and the last step may lead to
nothing. -/
def follow (tree : FileTree) (done : List String) : List String → Except Refusal (List String)
  | [] => .ok done
  | step :: steps =>
    match tree.get? done with
    | some (.directory _) =>
      if step == ".." then follow tree done.dropLast steps
      else if longestName < step.utf8ByteSize then .error .tooLong
      else follow tree (done ++ [step]) steps
    | some (.file _) => .error .notDirectory
    | none => .error .missing

/-- Where a path starts. -/
def start (disk : Disk) (path : Path) : List String :=
  if path.anchor == .working then disk.working else []

/-- The steps from the top of the tree that a path stands for. -/
def locate (disk : Disk) (path : Path) : Except Refusal (List String) :=
  if longestPath < path.text.utf8ByteSize then .error .tooLong
  else follow disk.tree (disk.start path) path.steps

/-- What is at a path, or why there is nothing. -/
def find (disk : Disk) (path : Path) : Except Refusal FileTree := do
  match disk.tree.get? (← disk.locate path) with
  | some tree => return tree
  | none => throw .missing

/-! ## Looking -/

/-- The refusal of an operation on a path, with its number and the path. -/
def described (path : Path) (refusal : Refusal) : String :=
  "[Errno " ++ refusal.number ++ "] " ++ refusal.text ++ ": " ++ Text.quoted path.text

/-- What is at a path, if there is anything.  Nothing can be at a path with a null character, while
a path that is too long cannot be looked at. -/
def look? (disk : Disk) (path : Path) : Except Failure (Option FileTree) :=
  if path.hasNull then .ok none
  else
    match disk.find path with
    | .ok tree => .ok (some tree)
    | .error .tooLong => .error (.unreachable (described path .tooLong))
    | .error _ => .ok none

/-- Whether there is anything at a path. -/
def exists? (disk : Disk) (path : Path) : Except Failure Bool :=
  return (← disk.look? path).isSome

/-- Whether there is a directory at a path. -/
def isDirectory (disk : Disk) (path : Path) : Except Failure Bool :=
  return ((← disk.look? path).map FileTree.isDirectory).getD false

/-- The names in the directory at a path, sorted. -/
def list (disk : Disk) (path : Path) : Except Failure (List String) :=
  if path.hasNull then .error .nullInPath
  else
    match disk.find path with
    | .ok (.directory entries) => .ok (Text.sort (entries.map (·.1)))
    | .ok (.file _) => .error (.refused path.text Refusal.notDirectory.text)
    | .error .missing => .error (.absent path.text)
    | .error refusal => .error (.refused path.text refusal.text)

/-- The content of the file at a path, or why there is none. -/
def content (disk : Disk) (path : Path) : Except Refusal Content := do
  match ← disk.find path with
  | .file content => return content
  | .directory _ => throw .isDirectory

/-- The text of the file at a path. -/
def read (disk : Disk) (path : Path) : Except Failure String :=
  if path.hasNull then .error .nullInPath
  else
    match disk.content path with
    | .ok content => content.read.mapError fun fault => .refused path.text fault.message
    | .error .missing => .error (.absent path.text)
    | .error refusal => .error (.refused path.text (described path refusal))

/-! ## Changing -/

/-- The disk with one directory made at a path, in a directory that is there. -/
def makeOne (disk : Disk) (path : Path) : Except Refusal Disk := do
  let steps ← disk.locate path
  if (disk.tree.get? steps).isSome then throw .exists
  return { disk with tree := ← disk.tree.makeDirectory steps }

/-- Passes over the refusal to make a directory that is there already. -/
def allowDirectory (disk : Disk) (path : Path) (refusal : Refusal) : Disk × Option Refusal :=
  match disk.find path with
  | .ok (.directory _) => (disk, none)
  | _ => (disk, some refusal)

/-- Makes a directory and, where its parent is missing, those above it first.  The steps are given
from the last one on. -/
def makeFrom (anchor : Anchor) (disk : Disk) : List String → Disk × Option Refusal
  | [] => (disk, none)
  | step :: above =>
    let path : Path := ⟨anchor, (step :: above).reverse⟩
    match disk.makeOne path with
    | .ok disk => (disk, none)
    | .error .missing =>
      match makeFrom anchor disk above with
      | (disk, some refusal) => (disk, some refusal)
      | (disk, none) =>
        match disk.makeOne path with
        | .ok disk => (disk, none)
        | .error refusal => allowDirectory disk path refusal
    | .error refusal => allowDirectory disk path refusal

/-- The disk with the directory at a path, and those above it, made where they are missing, and why
that was refused, if it was.  What was made before stays. -/
def makeDirectory (disk : Disk) (path : Path) : Disk × Option Refusal :=
  makeFrom path.anchor disk path.steps.reverse

/-- The disk with a file written at a path. -/
def write (disk : Disk) (path : Path) (content : Content) : Except Refusal Disk := do
  return { disk with tree := ← disk.tree.write content (← disk.locate path) }

/-- The steps that are left when two dots take back the step in front of them, whether it leads to a
directory or not. -/
def straighten (steps : List String) : List String :=
  steps.foldl (fun done step => if step == ".." then done.dropLast else done ++ [step]) []

/-- Where a file is written before it is moved to a path: beside it, under a longer name. -/
def draftSteps (disk : Disk) (path : Path) : List String :=
  straighten (disk.start path ++ path.parent.steps) ++ ["." ++ path.name ++ ".????????.tmp"]

/-- The disk with a file moved to a path, for which the path must end in a name. -/
def moveTo (disk : Disk) (path : Path) (content : Content) : Except Refusal Disk := do
  if path.isNamed then disk.write path content
  else
    let _ ← disk.locate path
    throw .busy

end Disk

/-- A computation that changes a disk and may fail.  What was done before a failure stays done. -/
abbrev FileM := ExceptT Failure (StateM Disk)

namespace FileM

/-- Looks at the disk. -/
def look {α : Type} (f : Disk → α) : FileM α := do
  return f (← get)

/-- Looks at the disk, which may be refused. -/
def inspect {α : Type} (f : Disk → Except Failure α) : FileM α := do
  match f (← get) with
  | .ok a => return a
  | .error failure => throw failure

/-- Makes sure that a path can be worked on. -/
def checkPath (path : Path) : FileM Unit :=
  if path.hasNull then throw .nullInPath else return ()

/-- Changes the disk by an operation for a path, which may be refused. -/
def change (path : Path) (f : Disk → Except Refusal Disk) : FileM Unit := do
  checkPath path
  match f (← get) with
  | .ok disk => set disk
  | .error refusal => throw (.refused path.text refusal.text)

/-- Makes a directory for the sake of a path, and those above it. -/
def makeFor (path directory : Path) : FileM Unit := do
  checkPath path
  let (disk, refusal?) := (← get).makeDirectory directory
  set disk
  if let some refusal := refusal? then throw (.refused path.text refusal.text)

/-- Makes a directory, and those above it.  One that is there stays as it is. -/
def ensureDirectory (path : Path) : FileM Unit :=
  makeFor path path

/-- Makes sure that a file can be written beside its place. -/
def checkDraft (path : Path) : FileM Unit := do
  let disk ← get
  let steps := disk.draftSteps path
  if steps.any Path.isNullStep then throw .nullInPath
  if let .error refusal := Disk.follow disk.tree [] steps then
    throw (.refused path.text refusal.text)

/-- Writes a file into a directory that is there.  Without leave to overwrite, nothing may be at the
path.  The file is written beside its place first and then moved there, so there must be room for a
longer name. -/
def writeFile (path : Path) (content : Content) (overwrite : Bool) : FileM Unit := do
  unless overwrite do
    if ← inspect (·.exists? path) then throw (.occupied (.destination path.text))
  checkDraft path
  change path (·.moveTo path content)

/-- Writes a text file, and makes the directories above it. -/
def saveText (path : Path) (text : String) : FileM Unit := do
  makeFor path path.parent
  change path (·.write path (.text text))

end FileM

end PackageScaffold
