import PackageScaffold.Path
import PackageScaffold.Text.Blank
import PackageScaffold.Text.Order

/-!
# Path trees

A set of paths drawn as a tree: every step is shown once, below the steps before it.  Directories
are shown with a slash at the end.
-/

namespace PackageScaffold

/-- A step of a path with what is shown for it and the steps below it. -/
inductive PathTree where
  | node (step label : String) (children : List PathTree)
  deriving Inhabited

namespace PathTree

/-- The step of a node. -/
def step : PathTree → String
  | .node step _ _ => step

/-- What is shown for a node. -/
def label : PathTree → String
  | .node _ label _ => label

/-- The nodes below a node. -/
def children : PathTree → List PathTree
  | .node _ _ children => children

/-- The siblings with a path grown into them: steps that are there are followed, new ones are added
at the end. -/
def grow (isDirectory : Bool) (siblings : List PathTree) : List String → List PathTree
  | [] => siblings
  | step :: steps =>
    if siblings.any fun sibling => sibling.step == step then
      siblings.map fun sibling =>
        if sibling.step == step then
          .node sibling.step sibling.label (grow isDirectory sibling.children steps)
        else sibling
    else
      let label := if steps.isEmpty && !isDirectory then step else step ++ "/"
      siblings ++ [.node step label (grow isDirectory [] steps)]

/-- The steps of a written path; an anchor counts as a step. -/
def stepsOf (path : String) : List String :=
  let normal := Path.ofString (String.ofList (Text.trimEnd (· == '/') path.toList))
  if normal.anchor == .working then normal.steps else normal.anchor.text :: normal.steps

/-- The siblings with a written path grown into them; a slash at its end makes it a directory. -/
def insert (siblings : List PathTree) (path : String) : List PathTree :=
  grow (path.toList.getLast? == some '/') siblings (stepsOf path)

/-- The tree of a set of paths, in their order, below a label. -/
def ofPaths (label : String) (paths : List String) : PathTree :=
  .node "" ("[bold]" ++ label ++ "/[/bold]") ((Text.sortDistinct paths).foldl insert [])

end PathTree

end PackageScaffold
