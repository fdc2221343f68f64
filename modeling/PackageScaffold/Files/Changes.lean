import PackageScaffold.Files.Tree

/-!
# Changes of a file tree

What has to be done to a file tree so that it becomes another one that holds at least as much: the
directories to make and the files to write, each directory in front of what is in it.
-/

namespace PackageScaffold

/-- Something to be done to a file tree. -/
inductive Change where
  | directory (path : String)
  | file (path : String) (content : Content)
  deriving DecidableEq, Repr

namespace FileTree

/-- Whether a tree is a file with the given content. -/
def isFileWith (content : Content) : Option FileTree → Bool
  | some (.file old) => old == content
  | _ => false

mutual

/-- What turns what is at a path into the given tree. -/
def changes (path : String) (before : Option FileTree) : FileTree → List Change
  | .file content => if isFileWith content before then [] else [.file path content]
  | .directory entries =>
    (match before with
      | some (.directory _) => []
      | _ => [.directory path]) ++
    entryChanges path ((before.map FileTree.entries).getD []) entries

/-- What turns the entries of a directory into the given ones. -/
def entryChanges (path : String) (before : List (String × FileTree)) :
    List (String × FileTree) → List Change
  | [] => []
  | (name, tree) :: rest =>
    changes (path ++ "/" ++ name) (before.lookup name) tree ++ entryChanges path before rest

end

end FileTree

end PackageScaffold
