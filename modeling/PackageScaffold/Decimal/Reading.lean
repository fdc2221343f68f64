import PackageScaffold.Decimal.Binary
import PackageScaffold.Text.Blank
import PackageScaffold.Text.Ranges

/-!
# Reading decimals

A decimal text is an optional sign, digits with at most one point among them, and an optional
exponent; single underscores may stand between digits.  Digits of every script count.
-/

namespace PackageScaffold.Decimal

open Text

/-- A run of digits, with single underscores allowed between two digits: the digits, and the
rest. -/
def readDigits : List Char → List Nat × List Char
  | c :: rest =>
    match digitValue? c with
    | some value => go [value] rest
    | none => ([], c :: rest)
  | [] => ([], [])
where
  /-- Continues a run whose digits so far are given in reverse. -/
  go (digits : List Nat) : List Char → List Nat × List Char
    | '_' :: c :: rest =>
      match digitValue? c with
      | some value => go (value :: digits) rest
      | none => (digits.reverse, '_' :: c :: rest)
    | c :: rest =>
      match digitValue? c with
      | some value => go (value :: digits) rest
      | none => (digits.reverse, c :: rest)
    | [] => (digits.reverse, [])

/-- The number that a list of digits in the given base spells. -/
def ofDigits (base : Nat) (digits : List Nat) : Nat :=
  digits.foldl (fun number digit => number * base + digit) 0

/-- The sign in front of a number: whether it is a minus, and the rest. -/
def readSign : List Char → Bool × List Char
  | '-' :: rest => (true, rest)
  | '+' :: rest => (false, rest)
  | rest => (false, rest)

/-- A whole number written with an optional sign, digits and single underscores between them. -/
def readWhole? (cs : List Char) : Option Int :=
  let (negative, rest) := readSign cs
  match readDigits rest with
  | ([], _) => none
  | (digits, []) =>
    let magnitude : Int := (ofDigits 10 digits : Nat)
    some (if negative then -magnitude else magnitude)
  | (_, _ :: _) => none

/-- The number `digits · 10 ^ place`, rounded to the nearest floating-point number.  A place far
outside the range of the format is settled without computing the power. -/
def ofScientific (digits : Nat) (place : Int) : Float :=
  let size := (Nat.toDigits 10 digits).length
  if digits == 0 then 0.0
  else if place + size > 400 then 1.0 / 0.0
  else if place + size < -400 then 0.0
  else if 0 ≤ place then Float.ofScientific (digits * powerOfTen place.toNat) false 0
  else Float.ofScientific digits true (-place).toNat

/-- The exponent of a decimal, `e` with a whole number, if the text begins with one. -/
def readExponent? : List Char → Option (Int × List Char)
  | c :: rest =>
    if c == 'e' || c == 'E' then
      let (negative, afterSign) := readSign rest
      match readDigits afterSign with
      | ([], _) => none
      | (digits, after) =>
        let magnitude : Int := (ofDigits 10 digits : Nat)
        some (if negative then -magnitude else magnitude, after)
    else none
  | [] => none

/-- A decimal without sign: digits, a point and more digits, and an exponent. -/
def readUnsigned? (cs : List Char) : Option Float :=
  let (whole, afterWhole) := readDigits cs
  let (fraction, afterFraction) := match afterWhole with
    | '.' :: rest => readDigits rest
    | rest => ([], rest)
  if whole.isEmpty && fraction.isEmpty then none
  else
    let number (exponent : Int) :=
      ofScientific (ofDigits 10 (whole ++ fraction)) (exponent - (fraction.length : Int))
    match readExponent? afterFraction, afterFraction with
    | some (exponent, []), _ => some (number exponent)
    | none, [] => some (number 0)
    | _, _ => none

/-- A decimal text, or a name of infinity or of the number that is none, with blanks around it. -/
def read? (s : String) : Option Float :=
  let (negative, magnitude) := readSign (trimBy isNumberBlank s.toList)
  let name := String.ofList (magnitude.map Char.toLower)
  let value? :=
    if name == "inf" || name == "infinity" then some (1.0 / 0.0)
    else if name == "nan" then some (0.0 / 0.0)
    else readUnsigned? magnitude
  value?.map fun value => if negative then -value else value

end PackageScaffold.Decimal
