import PackageScaffold.Decimal.Reading
import PackageScaffold.Text.Wording
import PackageScaffold.Value.Basic
import PackageScaffold.Yaml.Resolution

/-!
# Values of texts

The value that a text has once its meaning is known.  A meaning that is read off plain text always
fits its form; a tag can ask for a meaning that the text does not have.
-/

namespace PackageScaffold.Yaml

open Text

/-- The value of a digit in a base up to sixteen. -/
def baseDigit? (base : Nat) (c : Char) : Option Nat :=
  let value? := (digitValue? c).or <|
    if 'a' ≤ c && c ≤ 'f' then some (c.toNat - 87)
    else if 'A' ≤ c && c ≤ 'F' then some (c.toNat - 55)
    else none
  value?.filter (· < base)

/-- A whole number in base two, eight or sixteen, with blanks around it, a sign, and the mark of the
base in front of its digits. -/
def readInBase? (base : Nat) (mark : Char) (cs : List Char) : Option Int := do
  let (negative, cs) := Decimal.readSign (trimBy isNumberBlank cs)
  let digits := match cs with
    | zero :: c :: rest => if digitValue? zero == some 0 && c.toLower == mark then rest else cs
    | _ => cs
  guard !digits.isEmpty
  let magnitude : Int := (Decimal.ofDigits base (← digits.mapM (baseDigit? base)) : Nat)
  return if negative then -magnitude else magnitude

/-- A whole number in base ten, with blanks around it, of at most 4300 digits. -/
def readInTen? (cs : List Char) : Option Int := do
  let cs := trimBy isNumberBlank cs
  guard ((cs.filter fun c => !isSign c).length ≤ 4300)
  Decimal.readWhole? cs

/-- The number that parts in base sixty spell. -/
def ofSexagesimal (parts : List Int) : Int :=
  parts.foldl (fun n part => n * 60 + part) 0

/-- The magnitude of a whole number, in any of its forms. -/
def readMagnitude? (cs : List Char) : Option Int :=
  match cs with
  | ['0'] => some 0
  | '0' :: 'b' :: digits => readInBase? 2 'b' digits
  | '0' :: 'x' :: digits => readInBase? 16 'x' digits
  | '0' :: _ => readInBase? 8 'o' cs
  | _ =>
    if cs.contains ':' then ((splitOn ':' cs).mapM readInTen?).map ofSexagesimal
    else readInTen? cs

/-- A value that does not exist. -/
def unbuildable {α : Type} (cause : Unbuildable) : Except Fault α :=
  .error (.unbuildable cause)

/-- The whole number that a text spells; underscores are passed over. -/
def readInt (text : List Char) : Except Fault Int :=
  let cs := text.filter (· != '_')
  match dropOne isSign cs with
  | [] => unbuildable .emptyNumber
  | magnitude =>
    match readMagnitude? magnitude with
    | some n => .ok (if cs.head? == some '-' then -n else n)
    | none => unbuildable .impossible

/-- The number that parts in base sixty spell, the last part with a fraction.  A part in a place
that is infinite among floating-point numbers is too large. -/
def ofSexagesimalFloat (parts : List Float) : Except Fault Float := do
  let add (state : Float × Nat) (part : Float) : Except Fault (Float × Nat) :=
    let place := Float.ofNat state.2
    if place.isInf then unbuildable .tooLarge
    else .ok (state.1 + part * place, state.2 * 60)
  return (← parts.reverse.foldlM add (0.0, 1)).1

/-- A value that was read, unless there is none. -/
def orImpossible {α : Type} : Option α → Except Fault α
  | some value => .ok value
  | none => unbuildable .impossible

/-- The floating-point number that a text spells; underscores are passed over. -/
def readFloat (text : List Char) : Except Fault Float :=
  let cs := (text.filter (· != '_')).map Char.toLower
  if cs.isEmpty then unbuildable .emptyNumber
  else do
    let magnitude := dropOne isSign cs
    let value ←
      if magnitude == ['.', 'i', 'n', 'f'] then .ok (1.0 / 0.0)
      else if magnitude == ['.', 'n', 'a', 'n'] then .ok (0.0 / 0.0)
      else if magnitude.contains ':' then do
        let parts ← orImpossible <|
          (splitOn ':' magnitude).mapM fun part => Decimal.read? (String.ofList part)
        ofSexagesimalFloat parts
      else orImpossible (Decimal.read? (String.ofList magnitude))
    return if cs.head? == some '-' then -value else value

/-- Whether a text under the tag of floating-point numbers is the usual word for the number that is
none.  All these words name one and the same number. -/
def isNoNumber (text : List Char) : Bool :=
  dropOne isSign ((text.filter (· != '_')).map Char.toLower) == ['.', 'n', 'a', 'n']

/-- The truth value that a word names, in letters of any size. -/
def readBool (text : List Char) : Except Fault Bool :=
  let word := text.map Char.toLower
  if word == ['y', 'e', 's'] || word == ['t', 'r', 'u', 'e'] || word == ['o', 'n'] then .ok true
  else if word == ['n', 'o'] || word == ['f', 'a', 'l', 's', 'e'] || word == ['o', 'f', 'f'] then
    .ok false
  else unbuildable .unknownWord

/-- The date or the moment that a text names. -/
def readMomentValue (text : List Char) : Except Fault Value :=
  match readMoment (if text.getLast? == some '\n' then text.dropLast else text) with
  | none => unbuildable .notMoment
  | some (.inl date) => if date.isValid then .ok (.date date) else unbuildable .impossible
  | some (.inr moment) =>
    if moment.isValid then .ok (.moment moment) else unbuildable .impossible

/-! ## Bytes -/

/-- The value of a sign of base 64. -/
def sextet? (c : Char) : Option Nat :=
  if 'A' ≤ c && c ≤ 'Z' then some (c.toNat - 65)
  else if 'a' ≤ c && c ≤ 'z' then some (c.toNat - 71)
  else if c.isDigit then some (c.toNat + 4)
  else if c == '+' then some 62
  else if c == '/' then some 63
  else none

/-- The bytes that signs of base 64 spell.  `count` is how many signs of the current group of four
have been read, `bits` holds the bits of them that no byte has taken yet, and `pads` counts the
padding signs in a row.  Other characters are passed over. -/
def readBase64 (count bits pads : Nat) : List Char → Option (List UInt8)
  | [] => if count == 0 then some [] else none
  | c :: rest =>
    if c == '=' then
      if 2 ≤ count && 4 ≤ count + pads + 1 then some []
      else readBase64 count bits (if 2 ≤ count then pads + 1 else pads) rest
    else
      match sextet? c with
      | none => readBase64 count bits pads rest
      | some value =>
        let bits := bits * 64 + value
        match count with
        | 0 => readBase64 1 bits 0 rest
        | 1 => (readBase64 2 (bits % 16) 0 rest).map (UInt8.ofNat (bits / 16) :: ·)
        | 2 => (readBase64 3 (bits % 4) 0 rest).map (UInt8.ofNat (bits / 4) :: ·)
        | _ => (readBase64 0 0 0 rest).map (UInt8.ofNat bits :: ·)

/-- The bytes that a text of base 64 spells. -/
def readBytes (text : List Char) : Except Fault (List UInt8) :=
  match text.all (·.toNat < 128), readBase64 0 0 0 text with
  | true, some bytes => .ok bytes
  | _, _ => .error (.malformed .binary)

/-! ## All meanings -/

/-- The value of a text with the given meaning. -/
def valueOfText (tag : Tag) (text : String) : Except Fault Value :=
  let cs := text.toList
  match tag with
  | .null => .ok .null
  | .bool => return .bool (← readBool cs)
  | .int => return .int (← readInt cs)
  | .float => return .float (← readFloat cs)
  | .bytes => return .bytes (← readBytes cs)
  | .moment => readMomentValue cs
  | .text => .ok (.text text)
  | .list | .mapping | .set | .orderedMapping | .pairs => .error (.malformed .shape)
  | .merge => .error (.malformed (.unknownTag "tag:yaml.org,2002:merge"))
  | .value => .error (.malformed (.unknownTag "tag:yaml.org,2002:value"))
  | .other uri => .error (.malformed (.unknownTag uri))

/-- The value of a broken text with the given meaning: nothing, itself, or a fault, since it reads
as nothing else. -/
def valueOfBroken (tag : Tag) (codes : List Nat) : Except Fault Value :=
  match tag with
  | .null => .ok .null
  | .bool => unbuildable .unknownWord
  | .int | .float => unbuildable .impossible
  | .bytes => .error (.malformed .binary)
  | .moment => unbuildable .notMoment
  | .text => .ok (.brokenText codes)
  | tag => valueOfText tag ""

/-- The value of a wording with the given meaning. -/
def valueOfWording (tag : Tag) : Wording → Except Fault Value
  | .text text => valueOfText tag text
  | .broken codes => valueOfBroken tag codes

end PackageScaffold.Yaml
