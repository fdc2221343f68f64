import PackageScaffold.Text.Split

/-!
# Paths

A path is an anchor and the names of the steps from it.  Empty steps and single dots are dropped
when a path is read; double dots are kept, since what they mean depends on the file system.
-/

namespace PackageScaffold

/-- Where a path starts: at the working directory, at the root, or at the root written with two
slashes, which stays as it is. -/
inductive Anchor where
  | working
  | root
  | doubledRoot
  deriving DecidableEq, Repr, Inhabited

/-- The anchor as it is written in front of a path. -/
def Anchor.text : Anchor → String
  | .working => ""
  | .root => "/"
  | .doubledRoot => "//"

/-- A path in normal form. -/
structure Path where
  anchor : Anchor
  steps : List String
  deriving DecidableEq, Repr, Inhabited

namespace Path

/-- The anchor of a written path: exactly two slashes at its start are kept. -/
def anchorOf : List Char → Anchor
  | '/' :: '/' :: '/' :: _ => .root
  | '/' :: '/' :: _ => .doubledRoot
  | '/' :: _ => .root
  | _ => .working

/-- Reads a path. -/
def ofString (s : String) : Path :=
  { anchor := anchorOf s.toList
    steps := (Text.split '/' s).filter fun step => step != "" && step != "." }

/-- The working directory. -/
def here : Path := ⟨.working, []⟩

/-- The path as text; the working directory is a single dot. -/
def text (path : Path) : String :=
  if path.anchor == .working && path.steps.isEmpty then "."
  else path.anchor.text ++ Text.join "/" path.steps

/-- The second path, seen from the first. -/
def append (base path : Path) : Path :=
  if path.anchor == .working then { base with steps := base.steps ++ path.steps } else path

instance : Append Path := ⟨append⟩

/-- The path with one more written path after it. -/
def extend (base : Path) (s : String) : Path :=
  base ++ ofString s

/-- The path without its last step. -/
def parent (path : Path) : Path :=
  { path with steps := path.steps.dropLast }

/-- Whether the last step of a path is a name; the working directory, the root and paths that end in
two dots have none. -/
def isNamed (path : Path) : Bool :=
  match path.steps.getLast? with
  | some step => step != ".."
  | none => false

/-- All paths above a path, nearest first. -/
def ancestors (path : Path) : List Path :=
  (List.range path.steps.length).reverse.map fun count =>
    { path with steps := path.steps.take count }

/-- Whether a step holds the character that no file system takes. -/
def isNullStep (step : String) : Bool :=
  step.toList.contains '\x00'

/-- Whether a path holds the character that no file system takes. -/
def hasNull (path : Path) : Bool :=
  path.steps.any isNullStep

/-- The last step of a path; empty if there is none. -/
def name (path : Path) : String :=
  path.steps.getLast?.getD ""

/-- The ending of a name: its last dot and what follows, if the dot is neither the first nor the
last character. -/
def endingOf (name : List Char) : List Char :=
  let ending := (name.reverse.takeWhile (· != '.')).reverse
  if ending.isEmpty || name.length ≤ ending.length + 1 then [] else '.' :: ending

/-- The ending of the last step of a path. -/
def ending (path : Path) : String :=
  String.ofList (endingOf path.name.toList)

end Path

end PackageScaffold
