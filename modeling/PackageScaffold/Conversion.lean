import PackageScaffold.Decimal.Reading
import PackageScaffold.Value.Basic
import PackageScaffold.Violation

/-!
# Conversion of outside values

Settings and options may come as texts, numbers or truth values of a document or an environment;
each field takes every form that plainly stands for a value of its type.

## Main definitions

* `readText`: only a text is a text;
* `readTruth`: also the numbers one and zero and the usual words;
* `readWhole`: also a truth value, a float without fraction, and a text that spells a whole number.
-/

namespace PackageScaffold.Conversion

open Text

/-- A text of at least the given length. -/
def readText (least : Nat) : Value → Except Complaint String
  | .text value => if value.length < least then .error .textTooShort else .ok value
  | .brokenText _ => .error .textUndecodable
  | _ => .error .textExpected

theorem readText_eq_ok_iff {value : Value} {text : String} :
    readText 1 value = .ok text ↔ value = .text text ∧ text ≠ "" := by
  cases value with
  | text found =>
    have hlength : found.length < 1 ↔ found = "" := by
      rw [Nat.lt_one_iff, String.length_eq_zero_iff]
    by_cases hempty : found = ""
    · simp [readText, hempty, eq_comm]
    · simp only [readText, hlength, hempty, if_false, Except.ok.injEq, Value.text.injEq]
      exact ⟨fun heq => ⟨heq, heq ▸ hempty⟩, And.left⟩
  | _ => simp [readText]

/-- The words for false, in lower case. -/
def falseWords : List String := ["0", "off", "f", "false", "n", "no"]

/-- The words for true, in lower case. -/
def trueWords : List String := ["1", "on", "t", "true", "y", "yes"]

/-- The longest number that is read, in characters. -/
def longestNumber : Nat := 4300

/-- A whole number in its plain form: an optional minus and ASCII digits without zeros in front.  A
number that is too long is refused for its length, whatever stands behind it. -/
def readPlainWhole (cs : List Char) : Except Complaint Int :=
  let (negative, body) : Bool × List Char := match cs with
    | '-' :: rest => (true, rest)
    | rest => (false, rest)
  let digits := body.takeWhile Char.isDigit
  if digits.isEmpty then .error .numberUnreadable
  else if digits.head? == some '0' then
    if body == ['0'] then .ok 0 else .error .numberUnreadable
  else if longestNumber < digits.length + (if negative then 1 else 0) then .error .numberTooLong
  else if digits.length < body.length then .error .numberUnreadable
  else
    let magnitude : Int := (Decimal.ofDigits 10 (digits.map fun c => c.toNat - 48) : Nat)
    .ok (if negative then -magnitude else magnitude)

/-- Drops zeros and underscores in front of a number, after a first zero.  One zero stays in front
of a point, and one character at the end. -/
def dropLeadingZeros : List Char → Option (List Char)
  | [] => none
  | '0' :: rest => go '0' rest
  | c :: rest => if c.isDigit then some (c :: rest) else none
where
  /-- Goes on after a zero or underscore. -/
  go (previous : Char) : List Char → Option (List Char)
    | [] => some [previous]
    | c :: rest =>
      if c == '0' || c == '_' then go c rest
      else if c == '-' || c.isDigit then some (c :: rest)
      else if c == '.' then some (previous :: c :: rest)
      else none

/-- Drops a point and the zeros after it, of which there must be some, from the end of a number. -/
def dropZeroFraction (cs : List Char) : List Char :=
  match cs.dropWhile (· != '.') with
  | _ :: fraction =>
    if !fraction.isEmpty && fraction.all (· == '0') then cs.takeWhile (· != '.') else cs
  | [] => cs

/-- Whether two underscores stand side by side. -/
def hasDoubleUnderscore : List Char → Bool
  | '_' :: '_' :: _ => true
  | _ :: rest => hasDoubleUnderscore rest
  | [] => false

/-- Drops single underscores from the inside of a number. -/
def dropUnderscores (cs : List Char) : List Char :=
  if cs.head? == some '_' || cs.getLast? == some '_' || hasDoubleUnderscore cs then cs
  else cs.filter (· != '_')

/-- A spelled number without what does not count in it: blanks around it, a plus, zeros in front, a
fraction of zeros, and single underscores. -/
def plainSpelling? (cs : List Char) : Option (List Char) :=
  let unsigned? := match trimBy isNumberBlank cs with
    | '+' :: '-' :: _ => none
    | '+' :: rest => dropLeadingZeros rest
    | '-' :: rest => (dropLeadingZeros rest).map ('-' :: ·)
    | rest => dropLeadingZeros rest
  unsigned?.map fun cs => dropUnderscores (dropZeroFraction cs)

/-- A whole number spelled in a text, in its plain form or in another one that comes down to it. -/
def wholeOfText (s : String) : Except Complaint Int :=
  match readPlainWhole s.toList with
  | .ok n => .ok n
  | .error .numberTooLong => .error .numberTooLong
  | .error _ =>
    match (plainSpelling? s.toList).map readPlainWhole with
    | some (.ok n) => .ok n
    | _ => .error .numberUnreadable

/-- The greatest 64-bit integer. -/
def greatestWhole : Int := 9223372036854775807

/-- The whole number that a float stands for, within the range of 64-bit integers. -/
def wholeOfFloat (x : Float) : Except Complaint Int :=
  match Decimal.decompose x, Decimal.whole? x with
  | .finite .., some n =>
    if -greatestWhole ≤ n && n ≤ greatestWhole then .ok n else .error .numberTooLong
  | .finite .., none => .error .numberFractional
  | _, _ => .error .numberInfinite

/-- The truth value that a whole number stands for. -/
def truthOfWhole (n : Int) : Except Complaint Bool :=
  if n == 0 then .ok false else if n == 1 then .ok true else .error .truthUnreadable

/-- A truth value: itself, one or zero, or one of the usual words in upper or lower case.  Numbers
beyond the range of 64-bit integers do not count as numbers here. -/
def readTruth : Value → Except Complaint Bool
  | .bool value => .ok value
  | .text value =>
    let word := String.ofList (value.toList.map Char.toLower)
    if falseWords.contains word then .ok false
    else if trueWords.contains word then .ok true
    else .error .truthUnreadable
  | .int value =>
    if value < -(greatestWhole + 1) || greatestWhole < value then .error .truthExpected
    else truthOfWhole value
  | .float value =>
    match wholeOfFloat value with
    | .ok n => truthOfWhole n
    | .error _ => .error .truthExpected
  | _ => .error .truthExpected

/-- A whole number: itself, a truth value, a float without fraction, or a text that spells one. -/
def readWhole : Value → Except Complaint Int
  | .int value => .ok value
  | .bool value => .ok (if value then 1 else 0)
  | .float value => wholeOfFloat value
  | .text value => wholeOfText value
  | _ => .error .numberExpected

/-- A whole number that is at least one. -/
def readCount (value : Value) : Except Complaint Nat := do
  let n ← readWhole value
  if 1 ≤ n then .ok n.toNat else .error .numberTooSmall

theorem readCount_int {n : Nat} (h : 1 ≤ n) : readCount (.int n) = .ok n := by
  have hcount : (1 : Int) ≤ n := by omega
  simp [readCount, readWhole, bind, Except.bind, hcount]

theorem one_le_of_readCount {value : Value} {n : Nat} (h : readCount value = .ok n) : 1 ≤ n := by
  unfold readCount at h
  cases hread : readWhole value with
  | error complaint => simp [hread, bind, Except.bind] at h
  | ok whole =>
    simp only [hread, bind, Except.bind] at h
    split at h
    · have hn := Except.ok.inj h
      omega
    · cases h

end PackageScaffold.Conversion
