import PackageScaffold.Calendar
import PackageScaffold.Text.Split
import PackageScaffold.Yaml.Cursor

/-!
# What plain text stands for

Plain text that reads as a truth value, a number, a date or nothing at all is one.  The forms are
those of version 1.1 of the format: `yes` and `off` are truth values, `0x1F`, `017` and `1:30` are
whole numbers, and an exponent needs a sign.

## Main definitions

* `Tag`: the meanings that a node can have;
* `Tag.ofPlain`: the meaning of plain text;
* `Tag.ofUri`: the meaning that a written tag names.
-/

namespace PackageScaffold.Yaml

/-- The meaning of a node. -/
inductive Tag where
  | null
  | bool
  | int
  | float
  | bytes
  | moment
  | text
  | list
  | mapping
  | set
  | orderedMapping
  | pairs
  /-- The key whose value is merged into the mapping. -/
  | merge
  /-- The key for the plain value of a mapping. -/
  | value
  | other (uri : String)
  deriving DecidableEq, Repr

/-- The meaning that a full tag names. -/
def Tag.ofUri (uri : String) : Tag :=
  let standard := "tag:yaml.org,2002:"
  let named : List (String × Tag) := [
    ("null", .null), ("bool", .bool), ("int", .int), ("float", .float), ("binary", .bytes),
    ("timestamp", .moment), ("str", .text), ("seq", .list), ("map", .mapping), ("set", .set),
    ("omap", .orderedMapping), ("pairs", .pairs), ("merge", .merge), ("value", .value)]
  match named.find? fun (name, _) => uri == standard ++ name with
  | some (_, tag) => tag
  | none => .other uri

/-- The ways to write a word: in small letters, with a capital letter in front, in capitals. -/
def spellings (word : List Char) : List (List Char) :=
  [word, (word.take 1).map Char.toUpper ++ word.drop 1, word.map Char.toUpper]

/-! ## Forms of numbers -/

/-- Drops one character out of the given ones, if there is one in front. -/
def dropOne (p : Char → Bool) : List Char → List Char
  | c :: rest => if p c then rest else c :: rest
  | [] => []

/-- The signs of numbers. -/
def isSign (c : Char) : Bool :=
  c == '+' || c == '-'

/-- Digits and underscores. -/
def isSpacedDigit (c : Char) : Bool :=
  c.isDigit || c == '_'

/-- A part of a number in base sixty behind the first one, without its colon: up to two digits,
below sixty. -/
def isSexagesimal (part : List Char) : Bool :=
  match part with
  | [a] => a.isDigit
  | [a, b] => decide ('0' ≤ a) && decide (a ≤ '5') && b.isDigit
  | _ => false

/-- The parts of a text between colons. -/
def colonParts (text : List Char) : List (List Char) :=
  Text.splitOn ':' text

/-- Whether a text is a digit followed by digits and underscores. -/
def isSpacedNumber (text : List Char) : Bool :=
  match text with
  | c :: rest => c.isDigit && rest.all isSpacedDigit
  | [] => false

/-- Whether a text without sign is a whole number: `0b101`, `017`, `1_000`, `0x1F` or `1:30`. -/
def isUnsignedInt (text : List Char) : Bool :=
  match text with
  | '0' :: 'b' :: digits => !digits.isEmpty && digits.all fun c => c == '0' || c == '1' || c == '_'
  | '0' :: 'x' :: digits =>
    !digits.isEmpty && digits.all fun c =>
      c.isDigit || (decide ('a' ≤ c) && decide (c ≤ 'f')) ||
        (decide ('A' ≤ c) && decide (c ≤ 'F')) || c == '_'
  | '0' :: digits => digits.all fun c => (decide ('0' ≤ c) && decide (c ≤ '7')) || c == '_'
  | _ =>
    match colonParts text with
    | whole :: parts => isSpacedNumber whole && parts.all isSexagesimal
    | [] => false

/-- Whether a text is an exponent, which needs a sign. -/
def isExponent (text : List Char) : Bool :=
  match text with
  | e :: sign :: digits =>
    (e == 'e' || e == 'E') && isSign sign && !digits.isEmpty && digits.all Char.isDigit
  | _ => false

/-- Whether a text is nothing, or an exponent. -/
def endsFraction (text : List Char) : Bool :=
  text.isEmpty || isExponent text

/-- Whether a text without sign is a number with a point: `1.5e+3`, `1:30.5` or `.inf`. -/
def isUnsignedFloat (text : List Char) : Bool :=
  let whole := text.takeWhile (· != '.')
  match text.dropWhile (· != '.') with
  | [] => false
  | _ :: fraction =>
    let rest := fraction.dropWhile isSpacedDigit
    if whole.isEmpty then (spellings ['i', 'n', 'f']).contains fraction
    else
      match colonParts whole with
      | [_] => isSpacedNumber whole && endsFraction rest
      | first :: parts => isSpacedNumber first && parts.all isSexagesimal && rest.isEmpty
      | [] => false

/-- Whether a text is a number with a point.  A number that begins with its point, and the number
that is none, stand without a sign. -/
def isFloat (text : List Char) : Bool :=
  isUnsignedFloat (dropOne isSign text) ||
    match text with
    | '.' :: fraction =>
      fraction == ['n', 'a', 'n'] || fraction == ['N', 'a', 'N'] || fraction == ['N', 'A', 'N'] ||
        (((fraction.head?.map Char.isDigit).getD false) &&
          endsFraction (fraction.dropWhile isSpacedDigit))
    | _ => false

/-! ## Forms of moments -/

/-- Reads between `least` and `most` decimal digits. -/
def readDigitsUpTo (least most : Nat) (text : List Char) : Option (Nat × List Char) :=
  let digits := (text.take most).takeWhile Char.isDigit
  if digits.length < least then none
  else
    some (digits.foldl (fun n d => n * 10 + (d.toNat - 48)) 0, text.drop digits.length)

/-- Reads the given character. -/
def readChar (c : Char) : List Char → Option (List Char)
  | d :: rest => if d == c then some rest else none
  | [] => none

/-- The numbers that a written date consists of, and what follows. -/
def readDate (text : List Char) : Option (Date × List Char) := do
  let (year, text) ← readDigitsUpTo 4 4 text
  let (month, text) ← readDigitsUpTo 1 2 (← readChar '-' text)
  let (day, text) ← readDigitsUpTo 1 2 (← readChar '-' text)
  return (⟨year, month, day⟩, text)

/-- What stands between a date and a time of day: a `T`, or blanks. -/
def readDateGap (text : List Char) : Option (List Char) :=
  match text with
  | c :: rest =>
    if c == 'T' || c == 't' then some rest
    else if isGap c then some (rest.dropWhile isGap)
    else none
  | [] => none

/-- The digits of a fraction of a second as microseconds, later digits dropped. -/
def microseconds (digits : List Char) : Nat :=
  let six := (digits ++ List.replicate 6 '0').take 6
  six.foldl (fun n d => n * 10 + (d.toNat - 48)) 0

/-- A written distance from universal time, in minutes: `Z`, or a sign with hours and minutes. -/
def readOffset (text : List Char) : Option Int :=
  match text with
  | ['Z'] => some 0
  | sign :: rest => do
    guard (isSign sign)
    let (hours, rest) ← readDigitsUpTo 1 2 rest
    let (minutes, rest) ← match rest with
      | [] => some (0, [])
      | _ => readDigitsUpTo 2 2 (← readChar ':' rest)
    guard rest.isEmpty
    let size : Int := ((hours * 60 + minutes : Nat) : Int)
    return if sign == '-' then -size else size
  | [] => none

/-- A written time of day, with the given date. -/
def readTime (date : Date) (text : List Char) : Option Moment := do
  let (hour, text) ← readDigitsUpTo 1 2 text
  let (minute, text) ← readDigitsUpTo 2 2 (← readChar ':' text)
  let (second, text) ← readDigitsUpTo 2 2 (← readChar ':' text)
  let (fraction, text) := match text with
    | '.' :: rest => (rest.takeWhile Char.isDigit, rest.dropWhile Char.isDigit)
    | _ => ([], text)
  let moment : Moment :=
    { date, hour, minute, second, microsecond := microseconds fraction }
  match text with
  | [] => return moment
  | _ => return { moment with offset := some (← readOffset (text.dropWhile isGap)) }

/-- A text that is written as a date or as a moment.  The numbers may be out of range. -/
def readMoment (text : List Char) : Option (Date ⊕ Moment) := do
  let (date, rest) ← readDate text
  match rest with
  | [] => return .inl date
  | _ => return .inr (← readTime date (← readDateGap rest))

/-- Whether plain text is a date or a moment.  A date alone needs two digits for month and day. -/
def isMoment (text : List Char) : Bool :=
  match readMoment text with
  | none => false
  | some (.inl _) => text.length == 10
  | some (.inr _) => true

/-! ## The meaning of plain text -/

/-- The words for nothing. -/
def nullWords : List (List Char) :=
  [[], ['~']] ++ spellings ['n', 'u', 'l', 'l']

/-- The words for truth values. -/
def boolWords : List (List Char) :=
  [['y', 'e', 's'], ['n', 'o'], ['t', 'r', 'u', 'e'], ['f', 'a', 'l', 's', 'e'], ['o', 'n'],
    ['o', 'f', 'f']].flatMap spellings

/-- The meaning of a line of plain text. -/
def Tag.ofLine (line : List Char) : Tag :=
  if boolWords.contains line then .bool
  else if isFloat line then .float
  else if isUnsignedInt (dropOne isSign line) then .int
  else if line == ['<', '<'] then .merge
  else if nullWords.contains line then .null
  else if isMoment line then .moment
  else if line == ['='] then .value
  else .text

/-- The meaning of plain text.  One line feed at its end is passed over. -/
def Tag.ofPlain (text : List Char) : Tag :=
  match text with
  | ['\n'] => .text
  | _ => Tag.ofLine (if text.getLast? == some '\n' then text.dropLast else text)

end PackageScaffold.Yaml
