import PackageScaffold.Files.Content
import PackageScaffold.Text.Order

/-!
# File trees

A file tree is a file, or a directory of named trees.  Its view is `get?`, the tree at the end of a
list of steps; every operation says what it does to the view.

## Main definitions

* `FileTree`, `FileTree.get?`;
* `FileTree.makeDirectory`, which makes the directories above as well;
* `FileTree.write`, which puts a file into a directory that is there;
* `Refusal`: why a file system refuses an operation.
-/

namespace PackageScaffold

/-- A file, or a directory with its entries by name. -/
inductive FileTree where
  | file (content : Content)
  | directory (entries : List (String × FileTree))
  deriving Inhabited

/-- Why a file system refuses an operation. -/
inductive Refusal where
  | missing
  | exists
  | notDirectory
  | isDirectory
  /-- What is to be replaced has no name of its own. -/
  | busy
  /-- A name or a path takes too many bytes. -/
  | tooLong
  deriving DecidableEq, Repr

namespace Refusal

/-- The refusal in words. -/
def text : Refusal → String
  | .missing => "No such file or directory"
  | .exists => "File exists"
  | .notDirectory => "Not a directory"
  | .isDirectory => "Is a directory"
  | .busy => "Device or resource busy"
  | .tooLong => "File name too long"

/-- The number of the refusal. -/
def number : Refusal → String
  | .missing => "2"
  | .busy => "16"
  | .exists => "17"
  | .notDirectory => "20"
  | .isDirectory => "21"
  | .tooLong => "36"

end Refusal

namespace FileTree

/-- A directory without entries. -/
def empty : FileTree := .directory []

/-- Whether a tree is a directory. -/
def isDirectory : FileTree → Bool
  | .directory _ => true
  | .file _ => false

/-- The entries of a directory; a file has none. -/
def entries : FileTree → List (String × FileTree)
  | .directory entries => entries
  | .file _ => []

/-- Sets the entry with the given name.  An entry that is there keeps its place. -/
def setEntry (name : String) (tree : FileTree) :
    List (String × FileTree) → List (String × FileTree)
  | [] => [(name, tree)]
  | (n, t) :: rest => if n == name then (n, tree) :: rest else (n, t) :: setEntry name tree rest

/-- The tree at the end of some steps. -/
def get? : FileTree → List String → Option FileTree
  | tree, [] => some tree
  | .file _, _ :: _ => none
  | .directory entries, step :: steps => (entries.lookup step).bind fun tree => tree.get? steps

/-- Directories inside one another, one for each step. -/
def chain : List String → FileTree
  | [] => empty
  | step :: steps => .directory [(step, chain steps)]

/-- Makes the directory at the end of some steps, and those above it.  One that is there stays as
it is. -/
def makeDirectory : FileTree → List String → Except Refusal FileTree
  | .directory entries, [] => .ok (.directory entries)
  | .file _, [] => .error .exists
  | .file _, _ :: _ => .error .notDirectory
  | .directory entries, step :: steps =>
    match entries.lookup step with
    | some tree => do return .directory (setEntry step (← tree.makeDirectory steps) entries)
    | none => .ok (.directory (setEntry step (chain steps) entries))

/-- Writes the file at the end of some steps, into a directory that is there.  A file that is there
is replaced. -/
def write (content : Content) : FileTree → List String → Except Refusal FileTree
  | .directory _, [] => .error .isDirectory
  | .file _, [] => .ok (.file content)
  | .file _, _ :: _ => .error .notDirectory
  | .directory entries, step :: steps =>
    match entries.lookup step, steps with
    | some tree, steps => do return .directory (setEntry step (← tree.write content steps) entries)
    | none, [] => .ok (.directory (setEntry step (.file content) entries))
    | none, _ :: _ => .error .missing

/-- Removes what is at the end of some steps. -/
def erase : FileTree → List String → FileTree
  | .directory entries, [step] => .directory (entries.filter (·.1 != step))
  | .directory entries, step :: steps =>
    match entries.lookup step with
    | some tree => .directory (setEntry step (tree.erase steps) entries)
    | none => .directory entries
  | tree, _ => tree

/-- The size of a file; a directory has none. -/
def size? : FileTree → Option Nat
  | .file content => some content.size
  | .directory _ => none

mutual

/-- The paths of everything in a tree, with the sizes of the files. -/
def paths (above : String) : FileTree → List (String × Option Nat)
  | .file _ => []
  | .directory entries => entryPaths above entries

/-- The paths of the entries of a directory and of everything in them. -/
def entryPaths (above : String) : List (String × FileTree) → List (String × Option Nat)
  | [] => []
  | (name, tree) :: rest =>
    (above ++ name, tree.size?) :: paths (above ++ name ++ "/") tree ++ entryPaths above rest

end

end FileTree

end PackageScaffold
