import PackageScaffold.Text.Printable
import PackageScaffold.Text.Wording

/-!
# Quoted texts

A quoted text stands between single quotes, or between double quotes if it holds a single quote and
no double one.  The quote, the backslash and every unprintable character are escaped, so a quoted
text is always one printable line.
-/

namespace PackageScaffold.Text

/-- The number in base sixteen, with lower-case digits and zeros in front up to the given width. -/
def hex (width : Nat) (n : Nat) : List Char :=
  let digits := Nat.toDigits 16 n
  List.replicate (width - digits.length) '0' ++ digits

/-- The quote that a quoted text stands between. -/
def quoteMark (cs : List Char) : Char :=
  if cs.contains '\'' && !cs.contains '"' then '"' else '\''

/-- One character of a quoted text. -/
def escapeChar (mark c : Char) : List Char :=
  if c == mark || c == '\\' then ['\\', c]
  else if c == '\n' then ['\\', 'n']
  else if c == '\r' then ['\\', 'r']
  else if c == '\t' then ['\\', 't']
  else if isPrintable c then [c]
  else if c.toNat < 0x100 then '\\' :: 'x' :: hex 2 c.toNat
  else if c.toNat < 0x10000 then '\\' :: 'u' :: hex 4 c.toNat
  else '\\' :: 'U' :: hex 8 c.toNat

/-- The text in quotes, with escapes. -/
def quoted (s : String) : String :=
  let cs := s.toList
  let mark := quoteMark cs
  String.ofList (mark :: cs.flatMap (escapeChar mark) ++ [mark])

/-- What a row of numbers spells, in quotes; halves of character pairs are given by number. -/
def quotedCodes (codes : List Nat) : String :=
  let mark := quoteMark ((codes.filter (!isHalf ·)).map Char.ofNat)
  let escape (code : Nat) : List Char :=
    if isHalf code then '\\' :: 'u' :: hex 4 code else escapeChar mark (Char.ofNat code)
  String.ofList (mark :: codes.flatMap escape ++ [mark])

/-- Bytes in quotes: printable ASCII as it is, all else by number. -/
def quotedBytes (bytes : List UInt8) : String :=
  let cs := bytes.map fun b => Char.ofNat b.toNat
  let mark := quoteMark cs
  let escape (c : Char) : List Char :=
    if c.toNat < 127 then escapeChar mark c else '\\' :: 'x' :: hex 2 c.toNat
  String.ofList ('b' :: mark :: cs.flatMap escape ++ [mark])

end PackageScaffold.Text
