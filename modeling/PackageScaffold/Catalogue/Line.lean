/-!
# Template lines

Templates are written as lists of lines, with the markers in them spelled by name.
-/

namespace PackageScaffold.Catalogue

/-- The marker that stands for a value. -/
def var (name : String) : String :=
  "\x7b\x7b" ++ name ++ "\x7d\x7d"

/-- The marker that opens a section. -/
def opens (name : String) : String :=
  "\x7b\x7b#" ++ name ++ "\x7d\x7d"

/-- The marker that closes a section. -/
def closes (name : String) : String :=
  "\x7b\x7b/" ++ name ++ "\x7d\x7d"

/-- The text with the given lines, each with a line break at its end. -/
def lines : List String → String
  | [] => ""
  | line :: rest => line ++ "\n" ++ lines rest

end PackageScaffold.Catalogue
