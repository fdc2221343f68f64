import PackageScaffold.Text.Blank
import PackageScaffold.Text.Case
import PackageScaffold.Text.Split

/-!
# Names

The names of packages and organizations, and the class and variable names made from them.
-/

namespace PackageScaffold.Name

open Text

/-- Lower-case ASCII letters. -/
def isLowerLetter (c : Char) : Bool :=
  'a' ≤ c && c ≤ 'z'

/-- The characters of a name: lower-case ASCII letters, digits and underscores. -/
def isNameChar (c : Char) : Bool :=
  isLowerLetter c || c.isDigit || c == '_'

/-- A lower-case letter followed by lower-case letters, digits and underscores. -/
def isIdentifier : List Char → Bool
  | [] => false
  | c :: cs => isLowerLetter c && cs.all isNameChar

/-- The text without one line break at its end. -/
def withoutLineBreak (cs : List Char) : List Char :=
  if cs.getLast? == some '\n' then cs.dropLast else cs

/-- Whether a character stands twice in a row. -/
def hasPair (x : Char) : List Char → Bool
  | [] => false
  | c :: cs => (c == x && cs.head? == some x) || hasPair x cs

/-- The name of a package: an identifier without doubled underscores and without an underscore at
its end.  One line break after the identifier is let through. -/
def isPackageName (s : String) : Bool :=
  let cs := s.toList
  isIdentifier (withoutLineBreak cs) && cs.getLast? != some '_' && !hasPair '_' cs

/-- The name of an organization: two or more identifiers joined by dots.  One line break after the
last is let through. -/
def isOrganization (s : String) : Bool :=
  let segments := splitOn '.' (withoutLineBreak s.toList)
  2 ≤ segments.length && segments.all isIdentifier

/-- The characters between the words of a name. -/
def isWordBreak (c : Char) : Bool :=
  c == '-' || c == '_' || isBlank c

/-- A word with its first letter in upper case. -/
def capitalize : List Char → List Char
  | [] => []
  | c :: cs => upperChar c ++ cs

/-- The words of a name, each with a capital in front, joined: `some_thing` becomes `SomeThing`. -/
def pascalCase (s : String) : String :=
  String.ofList ((wordsBy isWordBreak s.toList).flatMap capitalize)

/-- The words of a name joined with capitals inside: `some_thing` becomes `someThing`. -/
def camelCase (s : String) : String :=
  match (pascalCase s).toList with
  | [] => ""
  | c :: cs => String.ofList (lowerChar c ++ cs)

end PackageScaffold.Name
