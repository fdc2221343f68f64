import PackageScaffold.Value.Basic
import PackageScaffold.Decimal.Shortest
import PackageScaffold.Text.Escape

/-!
# Values as text

`Value.display` is the text of a value by itself; `Value.inner` is its text inside a list or a
mapping, where texts are quoted and dates spell out their parts.  `Value.isOverlong` says for which
values there is no text, since a number in them is too long.
-/

namespace PackageScaffold

/-- The decimal text of a whole number. -/
def Value.wholeText (n : Int) : String :=
  (if n < 0 then "-" else "") ++ String.ofList (Nat.toDigits 10 n.natAbs)

/-- A list of texts, with commas between them. -/
def Value.commaSeparated (texts : List String) : String :=
  ", ".intercalate texts

/-- A date, part by part. -/
def Date.parts (d : Date) : String :=
  "datetime.date(" ++ Value.commaSeparated ([d.year, d.month, d.day].map (padded 0)) ++ ")"

/-- The distance from universal time, part by part. -/
def offsetParts (minutes : Int) : String :=
  if minutes == 0 then "datetime.timezone.utc"
  else
    let span :=
      if minutes < 0 then "days=-1, seconds=" ++ Value.wholeText (86400 + minutes * 60)
      else "seconds=" ++ Value.wholeText (minutes * 60)
    "datetime.timezone(datetime.timedelta(" ++ span ++ "))"

/-- A moment, part by part; seconds and microseconds are left out where they are zero at the
end. -/
def Moment.parts (m : Moment) : String :=
  let clock :=
    if m.microsecond != 0 then [m.second, m.microsecond]
    else if m.second != 0 then [m.second]
    else []
  let numbers := [m.date.year, m.date.month, m.date.day, m.hour, m.minute] ++ clock
  let zone := (m.offset.map fun minutes => ["tzinfo=" ++ offsetParts minutes]).getD []
  "datetime.datetime(" ++ Value.commaSeparated (numbers.map (padded 0) ++ zone) ++ ")"

mutual

/-- The text of a value inside a list or a mapping. -/
def Value.inner : Value → String
  | .null => "None"
  | .bool true => "True"
  | .bool false => "False"
  | .int value => Value.wholeText value
  | .float value => Decimal.text value
  | .text value => Text.quoted value
  | .list items => "[" ++ Value.commaSeparated (Value.innerAll items) ++ "]"
  | .map entries => "\x7b" ++ Value.commaSeparated (Value.innerEntries entries) ++ "\x7d"
  | .date value => value.parts
  | .moment value => value.parts
  | .bytes value => Text.quotedBytes value
  | .set [] => "set()"
  | .set (member :: members) =>
    "\x7b" ++ Value.commaSeparated (member.inner :: Value.innerAll members) ++ "\x7d"
  | .pair first second => "(" ++ first.inner ++ ", " ++ second.inner ++ ")"
  | .brokenText codes => Text.quotedCodes codes
  | .again .list _ => "[...]"
  | .again .map _ => "\x7b...\x7d"

/-- The texts of several values. -/
def Value.innerAll : List Value → List String
  | [] => []
  | item :: items => item.inner :: Value.innerAll items

/-- The texts of the entries of a mapping. -/
def Value.innerEntries : List (Value × Value) → List String
  | [] => []
  | (key, value) :: entries => (key.inner ++ ": " ++ value.inner) :: Value.innerEntries entries

end

/-- The most digits that a whole number is written out with. -/
def mostDigits : Nat := 4300

mutual

/-- Whether a value holds a whole number that is too long to be written out. -/
def Value.isOverlong : Value → Bool
  | .int value => decide (Decimal.powerOfTen mostDigits ≤ value.natAbs)
  | .list items | .set items => Value.anyOverlong items
  | .map entries => Value.anyOverlongEntry entries
  | .pair first second => first.isOverlong || second.isOverlong
  | _ => false

/-- Whether one of several values holds a number that is too long. -/
def Value.anyOverlong : List Value → Bool
  | [] => false
  | item :: items => item.isOverlong || Value.anyOverlong items

/-- Whether an entry of a mapping holds a number that is too long. -/
def Value.anyOverlongEntry : List (Value × Value) → Bool
  | [] => false
  | (key, value) :: entries =>
    key.isOverlong || value.isOverlong || Value.anyOverlongEntry entries

end

/-- The text of a value by itself: texts stand for themselves, and dates are written in their
standard form. -/
def Value.display : Value → String
  | .text value => value
  | .brokenText codes => Text.legible codes
  | .date value => value.text
  | .moment value => value.textWith " "
  | value => value.inner

end PackageScaffold
