import PackageScaffold.Yaml.Cursor

/-!
# Blocks of text

A block of text is a run of indented lines behind `|`, which keeps its line breaks, or `>`, which
folds them.  The first line may say how far the block is indented and what becomes of the line
breaks at its end.
-/

namespace PackageScaffold.Yaml

/-- What becomes of the line breaks at the end of a block: all are dropped, the first one is kept,
or all are kept. -/
inductive Chomping where
  | strip
  | clip
  | keep
  deriving DecidableEq, Repr

/-- The sign for what becomes of the line breaks at the end. -/
def chomping? : Char → Option Chomping
  | '-' => some .strip
  | '+' => some .keep
  | _ => none

/-- Reads a digit for the indentation, which is not zero. -/
def readIncrement (c : Cursor) : Except Fault (Option Nat × Cursor) :=
  match c.rest with
  | char :: _ =>
    if char == '0' then .error (.malformed .blockHeader)
    else if char.isDigit then .ok (some (char.toNat - 48), c.next)
    else .ok (none, c)
  | [] => .ok (none, c)

/-- Reads a sign for the line breaks at the end. -/
def readChomping (c : Cursor) : Option Chomping × Cursor :=
  match c.rest.head?.bind chomping? with
  | some chomping => (some chomping, c.next)
  | none => (none, c)

/-- Reads the indicators behind `|` or `>`, in either order. -/
def readBlockHeader (c : Cursor) : Except Fault (Chomping × Option Nat × Cursor) := do
  let (before, c) := readChomping c
  let (increment, c) ← readIncrement c
  let (after, c) := if before.isNone && increment.isSome then readChomping c else (none, c)
  if endsHeader c.rest then
    let c ← c.passBlankLine .blockHeader
    return ((before.or after).getD .clip, increment, c)
  else throw (.malformed .blockHeader)

/-- Passes the blank lines in front of a block: their line breaks, and the widest run of spaces. -/
def passLeadingBlanks : Nat → Cursor → List Char × Nat × Cursor
  | 0, c => ([], 0, c)
  | fuel + 1, c =>
    let c := c.passSpaces
    match c.lineBreak with
    | ([], _) => ([], c.column, c)
    | (one, after) =>
      let (more, widest, c') := passLeadingBlanks fuel after
      (one ++ more, max c.column widest, c')

/-- Moves past spaces, at most up to the given column. -/
def passIndent (indent : Nat) (c : Cursor) : Cursor :=
  c.advance (min (indent - c.column) (c.rest.takeWhile (· == ' ')).length)

/-- Passes line breaks and the indentation behind each of them. -/
def passBlockBreaks (indent : Nat) : Nat → Cursor → List Char × Cursor
  | 0, c => ([], c)
  | fuel + 1, c =>
    let c := passIndent indent c
    match c.lineBreak with
    | ([], _) => ([], c)
    | (one, after) =>
      let (more, c) := passBlockBreaks indent fuel after
      (one ++ more, c)

/-- Whether a line of the block, one that does not begin with a blank, begins here. -/
def startsDense (c : Cursor) : Bool :=
  match c.rest with
  | char :: _ => !isGap char
  | [] => true

/-- The lines of a block.  `breaks` are the line breaks passed in front of the current line; the
result is the text, the line break behind the last line, and the line breaks behind that. -/
def blockLines (fold : Bool) (indent : Nat) :
    Nat → List Char → Cursor → List Char × List Char × List Char × Cursor
  | 0, breaks, c => ([], [], breaks, c)
  | fuel + 1, breaks, c =>
    if c.column != indent || c.rest.isEmpty then ([], [], breaks, c)
    else
      let line := c.rest.takeWhile (!isBreak ·)
      let dense := startsDense c
      let (ending, c) := (c.advance line.length).lineBreak
      let (following, c) := passBlockBreaks indent c.bound c
      if c.column != indent || c.rest.isEmpty then (breaks ++ line, ending, following, c)
      else
        let joint :=
          if fold && ending == ['\n'] && dense && startsDense c then
            if following.isEmpty then [' '] else []
          else ending
        let (more, last, rest, c) := blockLines fold indent fuel following c
        (breaks ++ line ++ joint ++ more, last, rest, c)

/-- Reads a block of text, from its indicator.  Its lines are indented by at least `least`
columns. -/
def readBlock (fold : Bool) (least : Nat) (c : Cursor) : Except Fault (String × Cursor) := do
  let (chomping, increment?, c) ← readBlockHeader c.next
  let least := max least 1
  let fuel := c.bound
  let (breaks, indent, c) := match increment? with
    | some increment =>
      let indent := least + increment - 1
      let (breaks, c) := passBlockBreaks indent fuel c
      (breaks, indent, c)
    | none =>
      let (breaks, widest, c) := passLeadingBlanks fuel c
      (breaks, max least widest, c)
  let (text, ending, rest, c) := blockLines fold indent fuel breaks c
  let tail := match chomping with
    | .strip => []
    | .clip => ending
    | .keep => ending ++ rest
  return (String.ofList (text ++ tail), c)

end PackageScaffold.Yaml
