import PackageScaffold.Text.Wording
import PackageScaffold.Yaml.Scalar.Plain

/-!
# Quoted text

Text in single quotes holds every character as it is, a doubled quote for one quote; in double
quotes a backslash begins an escape.  Line breaks are folded as in plain text, unless they are
escaped.  An escape can name half of a character pair, so what is read is a row of numbers.
-/

namespace PackageScaffold.Yaml

/-- The character that a one-letter escape stands for. -/
def namedEscape? : Char → Option Char
  | '0' => some '\x00'
  | 'a' => some '\x07'
  | 'b' => some '\x08'
  | 't' | '\t' => some '\t'
  | 'n' => some '\n'
  | 'v' => some '\x0b'
  | 'f' => some '\x0c'
  | 'r' => some '\r'
  | 'e' => some '\x1b'
  | ' ' => some ' '
  | '"' => some '"'
  | '\\' => some '\\'
  | '/' => some '/'
  | 'N' => some '\u0085'
  | '_' => some '\u00a0'
  | 'L' => some '\u2028'
  | 'P' => some '\u2029'
  | _ => none

/-- How many hexadecimal digits follow a numeric escape. -/
def escapeWidth? : Char → Option Nat
  | 'x' => some 2
  | 'u' => some 4
  | 'U' => some 8
  | _ => none

/-- The value of a hexadecimal digit. -/
def hexValue? (c : Char) : Option Nat :=
  if '0' ≤ c && c ≤ '9' then some (c.toNat - 48)
  else if 'a' ≤ c && c ≤ 'f' then some (c.toNat - 87)
  else if 'A' ≤ c && c ≤ 'F' then some (c.toNat - 55)
  else none

/-- The number that the given count of hexadecimal digits in front of the text spells. -/
def hexNumber? (width : Nat) (text : List Char) : Option Nat :=
  if text.length < width then none
  else (text.take width).foldl (fun n c => do return (← n) * 16 + (← hexValue? c)) (some 0)

/-- The number that an escape names, if there can be a character with it.  Numbers of more than 31
bits are not even numbers of characters. -/
def checkNumber (n : Nat) : Except Fault Nat :=
  if n > 0x7FFFFFFF then .error (.unbuildable .tooLarge)
  else if n > 0x10FFFF then .error (.unbuildable .impossible)
  else .ok n

/-- The numbers of characters. -/
def codesOf (cs : List Char) : List Nat :=
  cs.map Char.toNat

/-- Passes the line breaks after the end of a line of quoted text, and the blanks around them. -/
def passQuotedBreaks : Nat → Cursor → Except Fault (List Char × Cursor)
  | 0, c => .ok ([], c)
  | fuel + 1, c =>
    if startsWithMarker c.rest then .error (.malformed .markerInText)
    else
      let c := c.passWhile isGap
      match c.lineBreak with
      | ([], _) => .ok ([], c)
      | (one, after) => do
        let (more, c) ← passQuotedBreaks fuel after
        return (one ++ more, c)

/-- Passes blanks and line breaks inside quoted text, and says how they read. -/
def quotedGap (c : Cursor) : Except Fault (List Char × Cursor) :=
  let blanks := c.rest.takeWhile isGap
  let c := c.advance blanks.length
  match c.lineBreak with
  | ([], _) => .ok (blanks, c)
  | (first, c) => do
    let (more, c) ← passQuotedBreaks c.bound c
    return (folded first more, c)

/-- Reads an escape, behind its backslash. -/
def readEscape (c : Cursor) : Except Fault (List Nat × Cursor) :=
  match c.rest with
  | [] => .error (.malformed .escape)
  | char :: rest =>
    match namedEscape? char, escapeWidth? char with
    | some named, _ => .ok ([named.toNat], c.next)
    | none, some width =>
      match hexNumber? width rest with
      | some n => do return ([← checkNumber n], c.advance (width + 1))
      | none => .error (.malformed .escape)
    | none, none =>
      if isBreak char then do
        let after := c.lineBreak.2
        let (breaks, after) ← passQuotedBreaks after.bound after
        return (codesOf breaks, after)
      else .error (.malformed .escape)

/-- Reads quoted text up to its closing quote. -/
def quotedText (quote : Char) : Nat → Cursor → Except Fault (List Nat × Cursor)
  | 0, _ => .error (.malformed .unclosedText)
  | fuel + 1, c =>
    match c.rest with
    | [] => .error (.malformed .unclosedText)
    | char :: rest =>
      let goOn (step : Except Fault (List Nat × Cursor)) := do
        let (piece, c) ← step
        let (more, c) ← quotedText quote fuel c
        return (piece ++ more, c)
      if char == quote then
        if quote == '\'' && rest.head? == some '\'' then goOn (.ok ([quote.toNat], c.advance 2))
        else .ok ([], c.next)
      else if isSpace char then
        goOn do
          let (gap, c) ← quotedGap c
          return (codesOf gap, c)
      else if quote == '"' && char == '\\' then goOn (readEscape c.next)
      else goOn (.ok ([char.toNat], c.next))

/-- Reads quoted text, from its opening quote. -/
def readQuoted (quote : Char) (c : Cursor) : Except Fault (Text.Wording × Cursor) := do
  let (codes, c) ← quotedText quote c.bound c.next
  return (.ofCodes codes, c)

end PackageScaffold.Yaml
