import PackageScaffold.Yaml.Property
import PackageScaffold.Yaml.Scalar.Block

/-!
# The outline of a document

The tokens of a document are read from left to right.  Two things cannot be read off the next few
characters: which block an indented line belongs to, and whether a node is a key, which shows only
at the colon behind it.  An outline therefore keeps the columns of the blocks that are open, and the
places of the nodes that may still turn out to be keys.

## Main definitions

* `Outline`: the tokens so far, and what is open;
* `Outline.step`: reads one more token;
* `Tokens.ofText`: the tokens of a text, up to its first fault.
-/

namespace PackageScaffold.Yaml

/-- A node that is a key if a colon follows it on the same line.  `position` is the number of tokens
in front of it.  A required key stands where nothing but a key can stand. -/
structure PossibleKey where
  position : Nat
  required : Bool
  index : Nat
  line : Nat
  column : Nat
  deriving Repr

/-- The tokens of a document up to some place in it. -/
structure Outline where
  cursor : Cursor
  /-- The tokens so far. -/
  tokens : Array Token := #[]
  /-- The columns of the open blocks, the innermost first. -/
  indents : List Nat := []
  /-- Whether a key may begin at the cursor. -/
  allowKey : Bool := true
  /-- The possible key of each open flow collection, the innermost first, and of the document. -/
  keys : List (Option PossibleKey) := [none]
  deriving Repr

namespace Outline

/-- Whether a flow collection is open. -/
def inFlow (o : Outline) : Bool :=
  decide (1 < o.keys.length)

/-- The first column that is inside the innermost open block. -/
def innerColumn (o : Outline) : Nat :=
  match o.indents with
  | [] => 0
  | column :: _ => column + 1

/-- Adds a token. -/
def push (token : Token) (o : Outline) : Outline :=
  { o with tokens := o.tokens.push token }

/-- Adds a token that takes the given number of characters. -/
def take (token : Token) (width : Nat) (o : Outline) : Outline :=
  { o with tokens := o.tokens.push token, cursor := o.cursor.advance width }

/-! ## Blocks -/

/-- Closes the blocks that are indented further than the given column; without a column, all of
them.  Indentation means nothing inside flow collections. -/
def closeBlocks (column? : Option Nat) (o : Outline) : Outline :=
  if o.inFlow then o
  else
    let isInner (indent : Nat) : Bool :=
      match column? with
      | some column => column < indent
      | none => true
    let closed := o.indents.takeWhile isInner
    { o with
      tokens := closed.foldl (fun tokens _ => tokens.push .blockEnd) o.tokens
      indents := o.indents.dropWhile isInner }

/-- Whether a block at the given column would be a new one. -/
def isNewBlock (column : Nat) (o : Outline) : Bool :=
  decide (o.innerColumn ≤ column)

/-- Opens a block at the given column unless it is open already. -/
def openBlock (start : Token) (column : Nat) (o : Outline) : Outline :=
  if o.isNewBlock column then
    { o with tokens := o.tokens.push start, indents := column :: o.indents }
  else o

/-! ## Possible keys -/

/-- Whether a colon at the cursor is too late for the possible key. -/
def isLate (cursor : Cursor) (key : PossibleKey) : Bool :=
  key.line != cursor.line || decide (1024 < cursor.index - key.index)

/-- Gives up the possible keys for which a colon would come too late. -/
def dropLateKeys (o : Outline) : Except Fault Outline :=
  let late (key? : Option PossibleKey) : Bool :=
    match key? with
    | some key => isLate o.cursor key
    | none => false
  if o.keys.any fun key? => late key? && (key?.map (·.required)).getD false then
    .error (.malformed .missingColon)
  else .ok { o with keys := o.keys.map fun key? => if late key? then none else key? }

/-- The possible key of the innermost open collection. -/
def key? (o : Outline) : Option PossibleKey :=
  o.keys.head?.join

/-- Sets the possible key of the innermost open collection. -/
def setKey (key? : Option PossibleKey) (o : Outline) : Outline :=
  { o with keys := key? :: o.keys.tail }

/-- Gives up the possible key of the innermost open collection. -/
def dropKey (o : Outline) : Except Fault Outline :=
  if (o.key?.map (·.required)).getD false then .error (.malformed .missingColon)
  else .ok (o.setKey none)

/-- Takes note that a possible key begins at the cursor. -/
def noteKey (o : Outline) : Except Fault Outline :=
  if o.allowKey then do
    let column := o.cursor.column
    let o ← o.dropKey
    return o.setKey (some {
      position := o.tokens.size
      required := !o.inFlow && o.indents.head? == some column
      index := o.cursor.index
      line := o.cursor.line
      column := column })
  else .ok o

/-- Puts tokens in front of the token at the given position. -/
def insertAt (position : Nat) (tokens : List Token) (o : Outline) : Outline :=
  { o with
    tokens := tokens.foldr (fun token all => all.insertIdxIfInBounds position token) o.tokens }

/-! ## Steps -/

/-- Moves past spaces, comments and the ends of lines.  On a new line, a key may begin. -/
def passBlanks : Nat → Outline → Outline
  | 0, o => o
  | fuel + 1, o =>
    let cursor := o.cursor.passSpaces.passComment
    match cursor.lineBreak with
    | ([], _) => { o with cursor }
    | (_, cursor) =>
      passBlanks fuel { o with cursor, allowKey := o.allowKey || !o.inFlow }

/-- Moves to the next token.  A byte order mark in front of the document is passed as well. -/
def toNextToken (o : Outline) : Outline :=
  let cursor :=
    if o.cursor.index == 0 && o.cursor.rest.head? == some '\uFEFF' then o.cursor.next else o.cursor
  passBlanks cursor.bound { o with cursor }

/-- The end of the document closes all blocks. -/
def finish (o : Outline) : Except Fault Outline :=
  (o.closeBlocks none).dropKey

/-- A line that stands outside of all blocks. -/
def topLine (o : Outline) : Except Fault Outline := do
  let o ← (o.closeBlocks none).dropKey
  return { o with allowKey := false }

/-- Reads a directive. -/
def takeDirective (o : Outline) : Except Fault Outline := do
  let o ← o.topLine
  let (directive, cursor) ← readDirective o.cursor
  return { o.push (.directive directive) with cursor }

/-- Reads a line that separates documents. -/
def takeMarker (o : Outline) : Except Fault Outline := do
  let o ← o.topLine
  return o.take (if o.cursor.rest.head? == some '-' then .documentStart else .documentEnd) 3

/-- The most flow collections that are open at one place; no node is read that far inside. -/
def mostOpen : Nat := 2000

/-- Reads the beginning of a flow collection. -/
def openFlow (token : Token) (o : Outline) : Except Fault Outline := do
  let o ← o.noteKey
  if mostOpen < o.keys.length then throw (.unbuildable .tooDeep)
  return { o.take token 1 with keys := none :: o.keys, allowKey := true }

/-- Reads the end of a flow collection. -/
def closeFlow (token : Token) (o : Outline) : Except Fault Outline := do
  let o ← o.dropKey
  if o.inFlow then return { o.take token 1 with keys := o.keys.tail, allowKey := false }
  else throw (.malformed .unexpectedToken)

/-- Reads the comma between the items of a flow collection. -/
def takeFlowEntry (o : Outline) : Except Fault Outline := do
  let o ← o.dropKey
  return { o.take .flowEntry 1 with allowKey := true }

/-- Opens a block for an indicator that may stand only where a key may stand. -/
def openAtCursor (start : Token) (defect : Defect) (o : Outline) : Except Fault Outline :=
  if o.inFlow then .ok o
  else if o.allowKey then .ok (o.openBlock start o.cursor.column)
  else .error (.malformed defect)

/-- Reads the hyphen in front of an item. -/
def takeBlockEntry (o : Outline) : Except Fault Outline := do
  let o ← o.openAtCursor .blockList .misplacedEntry
  let o ← o.dropKey
  return { o.take .blockEntry 1 with allowKey := true }

/-- Reads the question mark in front of a key. -/
def takeKey (o : Outline) : Except Fault Outline := do
  let o ← o.openAtCursor .blockMapping .misplacedKey
  let o ← o.dropKey
  return { o.take .key 1 with allowKey := !o.inFlow }

/-- Reads the colon in front of a value.  If a possible key stands in front of it, it is one. -/
def takeValue (o : Outline) : Except Fault Outline := do
  match o.key? with
  | some key =>
    let isNew := !o.inFlow && o.isNewBlock key.column
    let o := o.setKey none
    let o := { o with indents := if isNew then key.column :: o.indents else o.indents }
    let o := o.insertAt key.position (if isNew then [.blockMapping, .key] else [.key])
    return { o.take .value 1 with allowKey := false }
  | none =>
    let o ← o.openAtCursor .blockMapping .misplacedValue
    return { o.take .value 1 with allowKey := !o.inFlow }

/-- Reads a token that can be the beginning of a key. -/
def takeContent (read : Cursor → Except Fault (Token × Cursor)) (o : Outline) :
    Except Fault Outline := do
  let o ← o.noteKey
  let (token, cursor) ← read o.cursor
  return { o.push token with cursor, allowKey := false }

/-- Reads a block of text. -/
def takeBlock (fold : Bool) (o : Outline) : Except Fault Outline := do
  let o ← o.dropKey
  let (text, cursor) ← readBlock fold o.innerColumn o.cursor
  return { o.push (.text (.text text) false) with cursor, allowKey := true }

/-- Reads plain text.  If it ends on a later line than it begins, a key may begin behind it. -/
def takePlain (o : Outline) : Except Fault Outline := do
  let o ← o.noteKey
  let (text, broken, cursor) := readPlain o.inFlow o.innerColumn o.cursor
  return { o.push (.text (.text text) true) with cursor, allowKey := broken }

/-- Reads the token that begins with the given character. -/
def takeToken (c : Char) (rest : List Char) (o : Outline) : Except Fault Outline :=
  let atStart := o.cursor.column == 0
  if c == '%' && atStart then o.takeDirective
  else if atStart && startsWithMarker (c :: rest) then o.takeMarker
  else if c == '[' then o.openFlow .flowList
  else if c == '\x7b' then o.openFlow .flowMapping
  else if c == ']' then o.closeFlow .flowListEnd
  else if c == '\x7d' then o.closeFlow .flowMappingEnd
  else if c == ',' then o.takeFlowEntry
  else if c == '-' && endsWord rest then o.takeBlockEntry
  else if c == '?' && (o.inFlow || endsWord rest) then o.takeKey
  else if c == ':' && (o.inFlow || endsWord rest) then o.takeValue
  else if c == '*' then
    o.takeContent fun c => do let (name, c) ← readAnchor c; return (.alias name, c)
  else if c == '&' then
    o.takeContent fun c => do let (name, c) ← readAnchor c; return (.anchor name, c)
  else if c == '!' then
    o.takeContent fun c => do let (tag, c) ← readTag c; return (.tag tag, c)
  else if c == '|' && !o.inFlow then o.takeBlock false
  else if c == '>' && !o.inFlow then o.takeBlock true
  else if c == '\'' || c == '"' then
    o.takeContent fun cursor => do
      let (wording, cursor) ← readQuoted c cursor
      return (.text wording false, cursor)
  else if startsPlain o.inFlow (c :: rest) then o.takePlain
  else .error (.malformed (.noToken c))

/-- Reads one more token; nothing, if the document is at its end. -/
def step (o : Outline) : Except Fault (Outline × Bool) := do
  let o ← o.dropLateKeys
  let o ← o.toNextToken.dropLateKeys
  let o := o.closeBlocks (some o.cursor.column)
  match o.cursor.rest with
  | [] => return (← o.finish, true)
  | c :: rest => return (← o.takeToken c rest, false)

/-- The tokens that are certain: those in front of every possible key. -/
def certain (o : Outline) : List Token :=
  let pending := (o.keys.filterMap id).filter fun key => !isLate o.cursor key
  let count := pending.foldl (fun least key => min least key.position) o.tokens.size
  o.tokens.toList.take count

end Outline

/-- The tokens of a text, and the fault that ends them, if there is one. -/
structure Tokens where
  tokens : List Token
  fault : Option Fault := none
  deriving Repr

/-- Reads all tokens. -/
def Outline.run : Nat → Outline → Tokens
  | 0, o => { tokens := o.tokens.toList }
  | fuel + 1, o =>
    match o.step with
    | .error fault => { tokens := o.certain, fault := some fault }
    | .ok (o, true) => { tokens := o.tokens.toList }
    | .ok (o, false) => run fuel o

/-- The tokens of a text. -/
def Tokens.ofText (text : List Char) : Tokens :=
  match text.find? (!isAllowed ·) with
  | some c => { tokens := [], fault := some (.malformed (.character c)) }
  | none => Outline.run (text.length + 1) { cursor := { rest := text } }

end PackageScaffold.Yaml
