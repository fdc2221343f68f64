import PackageScaffold.Yaml.Scalar.Quoted
import PackageScaffold.Yaml.Token

/-!
# Anchors, tags and directives

How the properties of nodes and the directives of a document are written.
-/

namespace PackageScaffold.Yaml

/-- Reads a name, which may be empty. -/
def readName (c : Cursor) : String × Cursor :=
  let name := c.rest.takeWhile isNameChar
  (String.ofList name, c.advance name.length)

/-- Whether the name of an anchor or an alias may end in front of the text. -/
def endsAnchor (text : List Char) : Bool :=
  endsOr (fun c =>
    isSpace c || c == '?' || c == ':' || c == ',' || c == ']' || c == '\x7d' || c == '%' ||
      c == '@' || c == '\x60') text

/-- Reads the name of an anchor or an alias, from its indicator. -/
def readAnchor (c : Cursor) : Except Fault (String × Cursor) :=
  let (name, c) := readName c.next
  if name.isEmpty || !endsAnchor c.rest then .error (.malformed .anchorName) else .ok (name, c)

/-! ## Tags -/

/-- The characters of a tag, percent signs apart. -/
def isTagChar (c : Char) : Bool :=
  c.isAlphanum || c == '-' || c == ';' || c == '/' || c == '?' || c == ':' || c == '@' ||
    c == '&' || c == '=' || c == '+' || c == '$' || c == ',' || c == '_' || c == '.' || c == '!' ||
    c == '~' || c == '*' || c == '\'' || c == '(' || c == ')' || c == '[' || c == ']'

/-- Reads a run of bytes, each written as a percent sign with two hexadecimal digits. -/
def readPercentBytes : Nat → Cursor → Except Fault (List UInt8 × Cursor)
  | 0, c => .ok ([], c)
  | fuel + 1, c =>
    match c.rest with
    | '%' :: digits =>
      match hexNumber? 2 digits with
      | none => .error (.malformed .tag)
      | some byte => do
        let (bytes, c) ← readPercentBytes fuel (c.advance 3)
        return (UInt8.ofNat byte :: bytes, c)
    | _ => .ok ([], c)

/-- Reads the characters of a tag. -/
def tagText : Nat → Cursor → Except Fault (List Char × Cursor)
  | 0, c => .ok ([], c)
  | fuel + 1, c =>
    match c.rest with
    | '%' :: _ => do
      let (bytes, c) ← readPercentBytes c.bound c
      match String.fromUTF8? ⟨bytes.toArray⟩ with
      | none => throw (.malformed .tag)
      | some piece =>
        let (more, c) ← tagText fuel c
        return (piece.toList ++ more, c)
    | char :: _ =>
      if isTagChar char then do
        let (more, c) ← tagText fuel c.next
        return (char :: more, c)
      else .ok ([], c)
    | [] => .ok ([], c)

/-- Reads the characters of a tag, of which there must be some. -/
def readTagText (c : Cursor) : Except Fault (String × Cursor) := do
  let (text, after) ← tagText c.bound c
  if after.index == c.index then throw (.malformed .tag)
  return (String.ofList text, after)

/-- Reads a handle: an exclamation mark, or a name between two of them. -/
def readHandle (c : Cursor) : Except Fault (String × Cursor) :=
  match c.rest with
  | '!' :: ' ' :: _ => .ok ("!", c.next)
  | '!' :: _ =>
    let (name, c) := readName c.next
    match c.rest with
    | '!' :: _ => .ok ("!" ++ name ++ "!", c.next)
    | _ => .error (.malformed .tag)
  | _ => .error (.malformed .tag)

/-- Reads a tag, from its exclamation mark. -/
def readTag (c : Cursor) : Except Fault (TagText × Cursor) := do
  let body := c.rest.drop 1
  let (tag, c) ← match body with
    | '<' :: _ => do
      let (text, c) ← readTagText (c.advance 2)
      match c.rest with
      | '>' :: _ => pure (⟨none, text⟩, c.next)
      | _ => throw (.malformed .tag)
    | _ =>
      if endsWord body then pure ((⟨none, "!"⟩ : TagText), c.next)
      else if (body.takeWhile fun char => !(char == ' ' || isBreak char)).contains '!' then do
        let (handle, c) ← readHandle c
        let (text, c) ← readTagText c
        pure (⟨some handle, text⟩, c)
      else do
        let (text, c) ← readTagText c.next
        pure (⟨some "!", text⟩, c)
  if endsHeader c.rest then return (tag, c) else throw (.malformed .tag)

/-! ## Directives -/

/-- Reads a number of a version.  A number of more than 4300 digits is refused. -/
def readVersionNumber (c : Cursor) : Except Fault (Nat × Cursor) :=
  let digits := c.rest.takeWhile Char.isDigit
  if digits.isEmpty then .error (.malformed .directive)
  else if digits.length > 4300 then .error (.unbuildable .impossible)
  else
    let number := digits.foldl (fun n d => n * 10 + (d.toNat - 48)) 0
    .ok (number, c.advance digits.length)

/-- Reads a version, two numbers with a point between them. -/
def readVersion (c : Cursor) : Except Fault (Directive × Cursor) := do
  let (major, c) ← readVersionNumber c.passSpaces
  match c.rest with
  | '.' :: _ =>
    let (minor, c) ← readVersionNumber c.next
    if endsHeader c.rest then return (.version major minor, c) else throw (.malformed .directive)
  | _ => throw (.malformed .directive)

/-- Reads a handle and what it stands for. -/
def readExpansion (c : Cursor) : Except Fault (Directive × Cursor) := do
  let (handle, c) ← readHandle c.passSpaces
  if c.rest.head? != some ' ' then throw (.malformed .directive)
  let (expansion, c) ← readTagText c.passSpaces
  if endsHeader c.rest then return (.handle handle expansion, c) else throw (.malformed .directive)

/-- Reads a directive, from its percent sign to the end of the line. -/
def readDirective (c : Cursor) : Except Fault (Directive × Cursor) := do
  let (name, c) := readName c.next
  if name.isEmpty || !endsHeader c.rest then throw (.malformed .directive)
  let (directive, c) ←
    if name == "YAML" then readVersion c
    else if name == "TAG" then readExpansion c
    else pure (.other name, c.passLine)
  return (directive, ← c.passBlankLine .directive)

end PackageScaffold.Yaml
