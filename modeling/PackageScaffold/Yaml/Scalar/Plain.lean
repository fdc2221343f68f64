import PackageScaffold.Yaml.Cursor

/-!
# Plain text

Text without quotes ends at `: `, at ` #`, and at the brackets and commas of a flow collection.  It
may go on over several lines as long as they are indented; the line breaks between them are folded.
-/

namespace PackageScaffold.Yaml

/-- The characters that end plain text inside a flow collection. -/
def endsFlowText (c : Char) : Bool :=
  c == ',' || c == '?' || c == '[' || c == ']' || c == '\x7b' || c == '\x7d'

/-- Whether a colon with the given text behind it ends plain text. -/
def colonEnds (inFlow : Bool) (rest : List Char) : Bool :=
  endsWord rest ||
    (inFlow &&
      endsOr (fun c => c == ',' || c == '[' || c == ']' || c == '\x7b' || c == '\x7d') rest)

/-- The word of plain text in front: all characters up to a blank or an indicator. -/
def plainWord (inFlow : Bool) : List Char → List Char
  | [] => []
  | c :: rest =>
    if isSpace c || (c == ':' && colonEnds inFlow rest) || (inFlow && endsFlowText c) then []
    else c :: plainWord inFlow rest

/-- Passes line breaks and the spaces between them.  Stops, with the second component true, at a
line that separates documents. -/
def passPlainBreaks : Nat → Cursor → List Char × Bool × Cursor
  | 0, c => ([], false, c)
  | fuel + 1, c =>
    let c := c.passSpaces
    match c.lineBreak with
    | ([], _) => ([], false, c)
    | (one, after) =>
      if startsWithMarker after.rest then (one, true, after)
      else
        let (more, stopped, c) := passPlainBreaks fuel after
        (one ++ more, stopped, c)

/-- How line breaks in a text read: a single line feed as a space, of several all but the first. -/
def folded (first more : List Char) : List Char :=
  if first != ['\n'] then first ++ more
  else if more.isEmpty then [' ']
  else more

/-- Passes the gap behind a word: how it reads, whether it holds a line break, and what follows.  A
gap that reads as nothing ends the text. -/
def plainGap (c : Cursor) : List Char × Bool × Cursor :=
  let spaces := c.rest.takeWhile (· == ' ')
  let c := c.advance spaces.length
  match c.lineBreak with
  | ([], _) => (spaces, false, c)
  | (first, c) =>
    if startsWithMarker c.rest then ([], true, c)
    else
      match passPlainBreaks c.bound c with
      | (_, true, c) => ([], true, c)
      | (more, false, c) => (folded first more, true, c)

/-- Plain text: how it reads, whether the gap behind it holds a line break, and what follows. -/
def plainWords (inFlow : Bool) (indent : Nat) : Nat → Bool → Cursor → List Char × Bool × Cursor
  | 0, broken, c => ([], broken, c)
  | fuel + 1, broken, c =>
    match plainWord inFlow c.rest with
    | [] => ([], broken, c)
    | word =>
      let (gap, broken, c) := plainGap (c.advance word.length)
      if gap.isEmpty || c.rest.head? == some '#' || (!inFlow && c.column < indent) then
        (word, broken, c)
      else
        match plainWords inFlow indent fuel broken c with
        | ([], broken, c) => (word, broken, c)
        | (more, broken, c) => (word ++ gap ++ more, broken, c)

/-- Reads plain text whose lines are indented by at least `indent`. -/
def readPlain (inFlow : Bool) (indent : Nat) (c : Cursor) : String × Bool × Cursor :=
  let (text, broken, c) := plainWords inFlow indent c.bound false c
  (String.ofList text, broken, c)

/-- Whether plain text can begin at the cursor.  Most indicators cannot begin one; a hyphen, and
outside of flow collections a question mark or a colon, can if no blank follows. -/
def startsPlain (inFlow : Bool) : List Char → Bool
  | [] => false
  | c :: rest =>
    if c == '-' then !endsWord rest
    else if c == '?' || c == ':' then !inFlow && !endsWord rest
    else
      !(isSpace c || c == ',' || c == '[' || c == ']' || c == '\x7b' || c == '\x7d' || c == '#' ||
        c == '&' || c == '*' || c == '!' || c == '|' || c == '>' || c == '\'' || c == '"' ||
        c == '%' || c == '@' || c == '\x60')

end PackageScaffold.Yaml
