import PackageScaffold.Text.Blank
import PackageScaffold.Text.Word

/-!
# Markers

A marker is a name between double braces.  A hash before the name opens a section, a slash closes
one, and a bare name stands for a value.  Blanks around sigil and name do not count.

## Main statements

* `eq_append_of_bracedBody?`: a braced body is found exactly where the text reads `{{ body }}` with
  no brace in the body.
-/

namespace PackageScaffold.Template

open Text

/-- What a marker does. -/
inductive MarkerKind where
  | variable
  | opening
  | closing
  deriving DecidableEq, Repr, Inhabited

/-- Whether a marker opens or closes a section. -/
def MarkerKind.isSection : MarkerKind → Bool
  | .variable => false
  | .opening | .closing => true

/-- What stands between the braces of a marker. -/
structure Marker where
  kind : MarkerKind
  name : String
  deriving DecidableEq, Repr

/-- The characters a name may start with: ASCII letters and the underscore. -/
def isNameStart (c : Char) : Bool :=
  c.isAlpha || c == '_'

/-- The characters a name may go on with: word characters, dots and hyphens. -/
def isNamePart (c : Char) : Bool :=
  isWord c || c == '.' || c == '-'

/-- A name is a single dot, or a letter or underscore followed by word characters, dots and
hyphens. -/
def isName : List Char → Bool
  | [] => false
  | c :: cs => (c == '.' && cs.isEmpty) || (isNameStart c && cs.all isNamePart)

/-- The marker with the given body, if the body has the form of one. -/
def Marker.read? (body : List Char) : Option Marker :=
  let (kind, name) : MarkerKind × List Char :=
    match trimBy isBlank body with
    | '#' :: rest => (.opening, trimStart isBlank rest)
    | '/' :: rest => (.closing, trimStart isBlank rest)
    | name => (.variable, name)
  if isName name then some ⟨kind, String.ofList name⟩ else none

/-- The characters that may stand between the braces of a marker. -/
def isPlain (c : Char) : Bool :=
  c != '{' && c != '}'

/-- The text of a marker with the given body. -/
def spell (body : List Char) : List Char :=
  '{' :: '{' :: body ++ ['}', '}']

/-- The body in double braces at the head of a text, and what follows the braces. -/
def bracedBody? : List Char → Option (List Char × List Char)
  | '{' :: '{' :: cs =>
    match cs.dropWhile isPlain with
    | '}' :: '}' :: after => some (cs.takeWhile isPlain, after)
    | _ => none
  | _ => none

/-- A braced body and what follows it make up the text. -/
theorem eq_append_of_bracedBody? {cs body after : List Char}
    (h : bracedBody? cs = some (body, after)) : cs = spell body ++ after := by
  unfold bracedBody? at h
  split at h
  · rename_i rest
    split at h
    · rename_i tail hdrop
      simp only [Option.some.injEq, Prod.mk.injEq] at h
      obtain ⟨rfl, rfl⟩ := h
      have hsplit := List.takeWhile_append_dropWhile (p := isPlain) (l := rest)
      rw [hdrop] at hsplit
      simp [spell, hsplit]
    · simp at h
  · simp at h

end PackageScaffold.Template
