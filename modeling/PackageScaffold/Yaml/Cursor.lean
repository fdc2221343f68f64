import PackageScaffold.Yaml.Fault

/-!
# Reading positions in a document

A cursor is the rest of a document together with the position at which it begins.  Positions matter
because the indentation of a line says to which block it belongs.

## Main definitions

* `isBreak`, `isSpace`, `endsWord`: the ends of lines and of words;
* `Cursor.advance`, `Cursor.passWhile`: moving on;
* `Cursor.lineBreak`: passing the end of a line, whichever way it is written.
-/

namespace PackageScaffold.Yaml

/-- The characters that end a line. -/
def isBreak (c : Char) : Bool :=
  c == '\n' || c == '\r' || c == '\u0085' || c == '\u2028' || c == '\u2029'

/-- Spaces, tabs and the ends of lines. -/
def isSpace (c : Char) : Bool :=
  c == ' ' || c == '\t' || isBreak c

/-- Spaces and tabs. -/
def isGap (c : Char) : Bool :=
  c == ' ' || c == '\t'

/-- The characters that a document may hold. -/
def isAllowed (c : Char) : Bool :=
  let n := c.toNat
  c == '\t' || c == '\n' || c == '\r' || n == 0x85 || (0x20 ≤ n && n ≤ 0x7E) ||
    (0xA0 ≤ n && n ≤ 0xD7FF) || (0xE000 ≤ n && n ≤ 0xFFFD) || 0x10000 ≤ n

/-- The characters of the names of anchors, directives and tag handles. -/
def isNameChar (c : Char) : Bool :=
  c.isAlphanum || c == '-' || c == '_'

/-- Whether the text is at its end or goes on with one of the given characters. -/
def endsOr (p : Char → Bool) : List Char → Bool
  | [] => true
  | c :: _ => p c

/-- Whether a word that is written in front of the text ends there. -/
def endsWord (text : List Char) : Bool :=
  endsOr isSpace text

/-- Whether a line that is written in front of the text ends there. -/
def endsLine (text : List Char) : Bool :=
  endsOr isBreak text

/-- Whether something that only spaces may follow ends in front of the text. -/
def endsHeader (text : List Char) : Bool :=
  endsOr (fun c => c == ' ' || isBreak c) text

/-- Whether the text begins with the line that separates documents, `---` or `...`. -/
def startsWithMarker : List Char → Bool
  | '-' :: '-' :: '-' :: rest => endsWord rest
  | '.' :: '.' :: '.' :: rest => endsWord rest
  | _ => false

/-- The rest of a document, and where it begins. -/
structure Cursor where
  rest : List Char
  /-- The number of characters of the document. -/
  size : Nat := rest.length
  index : Nat := 0
  line : Nat := 0
  column : Nat := 0
  deriving Repr

namespace Cursor

/-- One more than the number of characters that are left: nothing goes on for longer. -/
def bound (c : Cursor) : Nat :=
  c.size - c.index + 1

/-- Moves past one character.  The carriage return of a two-character line break does not end the
line yet, and a byte order mark takes no column. -/
def next (c : Cursor) : Cursor :=
  match c.rest with
  | [] => c
  | '\r' :: '\n' :: rest =>
    { c with rest := '\n' :: rest, index := c.index + 1, column := c.column + 1 }
  | char :: rest =>
    if isBreak char then { c with rest, index := c.index + 1, line := c.line + 1, column := 0 }
    else
      { c with
        rest
        index := c.index + 1
        column := if char == '\uFEFF' then c.column else c.column + 1 }

/-- Moves past the given number of characters. -/
def advance (c : Cursor) : Nat → Cursor
  | 0 => c
  | n + 1 => c.next.advance n

/-- Moves past the characters of a kind. -/
def passWhile (p : Char → Bool) (c : Cursor) : Cursor :=
  c.advance (c.rest.takeWhile p).length

/-- Moves past spaces. -/
def passSpaces (c : Cursor) : Cursor :=
  c.passWhile (· == ' ')

/-- Moves to the end of the line. -/
def passLine (c : Cursor) : Cursor :=
  c.passWhile (!isBreak ·)

/-- Moves past a comment, if there is one. -/
def passComment (c : Cursor) : Cursor :=
  if c.rest.head? == some '#' then c.passLine else c

/-- Moves past the end of a line, if the cursor is at one, and says how it reads: the ordinary
line breaks all read as a line feed, the two separators of lines and paragraphs as themselves. -/
def lineBreak (c : Cursor) : List Char × Cursor :=
  match c.rest with
  | '\r' :: '\n' :: _ => (['\n'], c.advance 2)
  | char :: _ =>
    if char == '\u2028' || char == '\u2029' then ([char], c.next)
    else if isBreak char then (['\n'], c.next)
    else ([], c)
  | [] => ([], c)

/-- Moves past spaces, a comment, and the end of the line; nothing else may be left on it. -/
def passBlankLine (defect : Defect) (c : Cursor) : Except Fault Cursor :=
  let c := c.passSpaces.passComment
  if endsLine c.rest then .ok c.lineBreak.2 else .error (.malformed defect)

end Cursor

end PackageScaffold.Yaml
