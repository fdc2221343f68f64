import PackageScaffold.Catalogue
import PackageScaffold.Path

/-!
# Plans

A plan is a list of directories and files to create, with paths relative to the root of a project.
Directories stand in front of the files that need them, shallow ones first.

## Main definitions

* `PlanEntry`: one directory or file;
* `withDirectories`: a list of files with the directories they need in front;
* `renderPlan`: the contents of the files of a plan.
-/

namespace PackageScaffold

/-- What the content of a planned file is made from. -/
structure FileSource where
  template : String
  bindings : Entries

/-- One directory or file that is to be created. -/
inductive PlanEntry where
  | directory (path : String)
  | file (path : String) (source : Option FileSource)

namespace PlanEntry

/-- The path of an entry. -/
def path : PlanEntry → String
  | .directory path | .file path _ => path

/-- Whether an entry is a directory. -/
def isDirectory : PlanEntry → Bool
  | .directory _ => true
  | .file _ _ => false

/-- The source of a file; a directory has none. -/
def source? : PlanEntry → Option FileSource
  | .directory _ => none
  | .file _ source => source

/-- A file made from a template. -/
def rendered (path template : String) (bindings : Entries) : PlanEntry :=
  .file path (some ⟨template, bindings⟩)

end PlanEntry

/-- The text without slashes at its end. -/
def withoutFinalSlashes (s : String) : String :=
  String.ofList (Text.trimEnd (· == '/') s.toList)

/-- A directory, written with or without a slash at its end. -/
def directoryEntry (path : String) : PlanEntry :=
  .directory (withoutFinalSlashes path)

/-- How many slashes a path is written with. -/
def depth (path : String) : Nat :=
  path.toList.count '/'

/-- The order of directories in a plan: shallow ones first, and those of one depth by name. -/
def shallowFirst (a b : String) : Bool :=
  depth a < depth b || (depth a == depth b && decide (a ≤ b))

/-- The paths above a path, below the directory that it starts from. -/
def parentsOf (path : String) : List String :=
  ((Path.ofString path).ancestors.map Path.text).filter (· != ".")

/-- The directories that files and further directories need, shallow ones first. -/
def directoriesFor (files directories : List String) : List String :=
  let needed := (files ++ directories.map fun d => withoutFinalSlashes d ++ "/_").flatMap parentsOf
  needed.eraseDups.mergeSort shallowFirst

/-- Files, with the directories that they and the further directories need in front. -/
def withDirectories (files : List PlanEntry) (directories : List String) : List PlanEntry :=
  (directoriesFor (files.map PlanEntry.path) directories).map directoryEntry ++ files

/-- The contents of files, by path. -/
abbrev Contents := List (String × String)

/-- The contents of all files of a plan that have a source, or the first fault in them.  Of two
files with one path the later gives the content. -/
def renderPlan (strict : Bool) : List PlanEntry → Except Template.Fault Contents
  | [] => .ok []
  | entry :: entries =>
    match entry.source? with
    | none => renderPlan strict entries
    | some source => do
      let text ← Catalogue.standard.render strict source.template source.bindings
      let rest ← renderPlan strict entries
      return if (rest.lookup entry.path).isSome then rest else (entry.path, text) :: rest

end PackageScaffold
