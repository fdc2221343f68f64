import PackageScaffold.Decimal.Reading
import PackageScaffold.Value.Basic

/-!
# Reading JSON

A document is one value with blanks around it.  Of a key that an object holds twice, the last value
counts.  The names of infinity and of the number that is none are taken as numbers; halves of
character pairs, numbers that take more than 4300 characters in front of their point, and values
inside more than 200 others are refused.
-/

namespace PackageScaffold.Json

/-- The blanks between the tokens of a document. -/
def isBlank (c : Char) : Bool :=
  c == ' ' || c == '\t' || c == '\n' || c == '\r'

/-- Passes blanks. -/
def passBlanks (cs : List Char) : List Char :=
  cs.dropWhile isBlank

/-- The value of a hexadecimal digit. -/
def hexDigit? (c : Char) : Option Nat :=
  if '0' ≤ c && c ≤ '9' then some (c.toNat - 48)
  else if 'a' ≤ c && c ≤ 'f' then some (c.toNat - 87)
  else if 'A' ≤ c && c ≤ 'F' then some (c.toNat - 55)
  else none

/-- The number that four hexadecimal digits spell. -/
def fourDigits? (a b c d : Char) : Option Nat := do
  return ((← hexDigit? a) * 16 + (← hexDigit? b)) * 256 + (← hexDigit? c) * 16 + (← hexDigit? d)

/-- The character that a one-letter escape stands for. -/
def escaped? : Char → Option Char
  | '"' => some '"'
  | '\\' => some '\\'
  | '/' => some '/'
  | 'b' => some '\x08'
  | 'f' => some '\x0c'
  | 'n' => some '\n'
  | 'r' => some '\r'
  | 't' => some '\t'
  | _ => none

/-- Reads a text up to its closing quote.  `half` is the first half of a character pair that has
been read and waits for the second one. -/
def readText (half : Option Nat) : List Char → Option (List Char × List Char)
  | '\\' :: 'u' :: a :: b :: c :: d :: rest => do
    let unit ← fourDigits? a b c d
    let isFirst := 0xD800 ≤ unit && unit ≤ 0xDBFF
    let isSecond := 0xDC00 ≤ unit && unit ≤ 0xDFFF
    match half with
    | some first =>
      guard isSecond
      let (text, rest) ← readText none rest
      return (Char.ofNat (0x10000 + (first - 0xD800) * 0x400 + (unit - 0xDC00)) :: text, rest)
    | none =>
      guard !isSecond
      if isFirst then readText (some unit) rest
      else
        let (text, rest) ← readText none rest
        return (Char.ofNat unit :: text, rest)
  | '\\' :: c :: rest => do
    guard half.isNone
    let char ← escaped? c
    let (text, rest) ← readText none rest
    return (char :: text, rest)
  | c :: rest => do
    guard half.isNone
    if c == '"' then return ([], rest)
    guard (32 ≤ c.toNat && c != '\\')
    let (text, rest) ← readText none rest
    return (c :: text, rest)
  | [] => none

/-- The number that decimal digits spell. -/
def ofDigits (digits : List Char) : Nat :=
  digits.foldl (fun n d => n * 10 + (d.toNat - 48)) 0

/-- Reads the exponent of a number, if there is one. -/
def readExponent (cs : List Char) : Option (Option Int × List Char) :=
  match cs with
  | e :: rest =>
    if e == 'e' || e == 'E' then
      let (negative, rest) := Decimal.readSign rest
      let digits := rest.takeWhile Char.isDigit
      let magnitude : Int := (ofDigits digits : Nat)
      if digits.isEmpty then none
      else some (some (if negative then -magnitude else magnitude), rest.drop digits.length)
    else some (none, cs)
  | [] => some (none, [])

/-- Reads the fraction of a number, if there is one. -/
def readFraction (cs : List Char) : Option (Option (List Char) × List Char) :=
  match cs with
  | '.' :: rest =>
    let digits := rest.takeWhile Char.isDigit
    if digits.isEmpty then none else some (some digits, rest.drop digits.length)
  | _ => some (none, cs)

/-- Reads a number without its sign. -/
def readMagnitude (negative : Bool) (cs : List Char) : Option (Value × List Char) := do
  let whole := cs.takeWhile Char.isDigit
  guard (!whole.isEmpty && (whole.head? != some '0' || whole.length == 1))
  guard (whole.length + (if negative then 1 else 0) ≤ 4300)
  let (fraction, rest) ← readFraction (cs.drop whole.length)
  let (exponent, rest) ← readExponent rest
  match fraction, exponent with
  | none, none =>
    let magnitude : Int := (ofDigits whole : Nat)
    return (.int (if negative then -magnitude else magnitude), rest)
  | _, _ =>
    let places := fraction.getD []
    let magnitude :=
      Decimal.ofScientific (ofDigits (whole ++ places)) (exponent.getD 0 - (places.length : Int))
    return (.float (if negative then -magnitude else magnitude), rest)

/-- Reads the given word. -/
def readWord (word : List Char) (value : Value) (cs : List Char) : Option (Value × List Char) :=
  if word.isPrefixOf cs then some (value, cs.drop word.length) else none

mutual

/-- Reads a value; inside it there may be values on as many levels as `levels` says. -/
def readValue (levels : Nat) : Nat → List Char → Option (Value × List Char)
  | 0, _ => none
  | fuel + 1, cs =>
    match passBlanks cs with
    | '"' :: rest => do
      let (text, rest) ← readText none rest
      return (.text (String.ofList text), rest)
    | '[' :: rest => do
      match passBlanks rest with
      | ']' :: rest => return (.list [], rest)
      | rest =>
        guard (0 < levels)
        let (items, rest) ← readItems (levels - 1) fuel rest
        return (.list items, rest)
    | '\x7b' :: rest => do
      match passBlanks rest with
      | '\x7d' :: rest => return (.map [], rest)
      | rest =>
        guard (0 < levels)
        let (entries, rest) ← readEntries (levels - 1) fuel rest
        return (.map (Entries.ofList entries), rest)
    | 't' :: rest => readWord ['r', 'u', 'e'] (.bool true) rest
    | 'f' :: rest => readWord ['a', 'l', 's', 'e'] (.bool false) rest
    | 'n' :: rest => readWord ['u', 'l', 'l'] .null rest
    | 'N' :: rest => readWord ['a', 'N'] (.float (0.0 / 0.0)) rest
    | 'I' :: rest => readWord ['n', 'f', 'i', 'n', 'i', 't', 'y'] (.float (1.0 / 0.0)) rest
    | '-' :: 'I' :: rest => readWord ['n', 'f', 'i', 'n', 'i', 't', 'y'] (.float (-1.0 / 0.0)) rest
    | '-' :: rest => readMagnitude true rest
    | rest => readMagnitude false rest

/-- Reads the items of a list, of which there is at least one, and its end. -/
def readItems (levels : Nat) : Nat → List Char → Option (List Value × List Char)
  | 0, _ => none
  | fuel + 1, cs => do
    let (item, rest) ← readValue levels fuel cs
    match passBlanks rest with
    | ']' :: rest => return ([item], rest)
    | ',' :: rest =>
      let (items, rest) ← readItems levels fuel rest
      return (item :: items, rest)
    | _ => none

/-- Reads the entries of an object, of which there is at least one, and its end. -/
def readEntries (levels : Nat) : Nat → List Char → Option (List (Value × Value) × List Char)
  | 0, _ => none
  | fuel + 1, cs =>
    match passBlanks cs with
    | '"' :: rest => do
      let (key, rest) ← readText none rest
      match passBlanks rest with
      | ':' :: rest =>
        let (value, rest) ← readValue levels fuel rest
        let entry := (Value.text (String.ofList key), value)
        match passBlanks rest with
        | '\x7d' :: rest => return ([entry], rest)
        | ',' :: rest =>
          let (entries, rest) ← readEntries levels fuel rest
          return (entry :: entries, rest)
        | _ => none
      | _ => none
    | _ => none

end

/-- The value that a document holds, if it is one. -/
def read? (text : String) : Option Value := do
  let (value, rest) ← readValue 200 (text.length + 1) text.toList
  guard (passBlanks rest).isEmpty
  return value

end PackageScaffold.Json
