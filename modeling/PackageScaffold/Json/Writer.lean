import PackageScaffold.Text.Escape
import PackageScaffold.Text.Split
import PackageScaffold.Value.Display

/-!
# Writing JSON

Texts in double quotes, and whole documents laid out with two blanks of indentation for each level.
-/

namespace PackageScaffold.Json

/-- One character of a quoted text. -/
def escapeChar (c : Char) : List Char :=
  if c == '"' then ['\\', '"']
  else if c == '\\' then ['\\', '\\']
  else if c == '\n' then ['\\', 'n']
  else if c == '\r' then ['\\', 'r']
  else if c == '\t' then ['\\', 't']
  else if c == '\x0c' then ['\\', 'f']
  else if c == '\x08' then ['\\', 'b']
  else if c.toNat < 32 then '\\' :: 'u' :: Text.hex 4 c.toNat
  else [c]

/-- A text in double quotes.  Quotes, backslashes and controls are escaped, all else is written as
it is. -/
def quote (s : String) : String :=
  String.ofList ('"' :: s.toList.flatMap escapeChar ++ ['"'])

/-- A line break and the indentation of a level. -/
def newLine (level : Nat) : String :=
  String.ofList ('\n' :: List.replicate (2 * level) ' ')

/-- The items of a list or a mapping, each on a line of its own. -/
def laidOut (opening closing : String) (level : Nat) (items : List String) : String :=
  if items.isEmpty then opening ++ closing
  else
    opening ++ newLine (level + 1) ++ Text.join ("," ++ newLine (level + 1)) items ++
      newLine level ++ closing

mutual

/-- A value as a document; texts stand for values that the format has no form for. -/
def write (level : Nat) : Value → String
  | .null => "null"
  | .bool true => "true"
  | .bool false => "false"
  | .int value => Value.wholeText value
  | .float value => Decimal.text value
  | .text value => quote value
  | .list items => laidOut "[" "]" level (writeItems (level + 1) items)
  | .map entries => laidOut "\x7b" "\x7d" level (writeEntries (level + 1) entries)
  | value => quote value.display

/-- The items of a list. -/
def writeItems (level : Nat) : List Value → List String
  | [] => []
  | item :: items => write level item :: writeItems level items

/-- The entries of a mapping. -/
def writeEntries (level : Nat) : List (Value × Value) → List String
  | [] => []
  | (key, value) :: entries =>
    (quote key.display ++ ": " ++ write level value) :: writeEntries level entries

end

end PackageScaffold.Json
