/-!
# Dates and moments

A date of the Gregorian calendar, and a moment: a date with a time of day, to the microsecond, and
possibly a distance from universal time.
-/

namespace PackageScaffold

/-- A day of the calendar. -/
structure Date where
  year : Nat
  month : Nat
  day : Nat
  deriving DecidableEq, Repr, Inhabited

/-- Every fourth year is a leap year, except full centuries that four hundred does not divide. -/
def isLeapYear (year : Nat) : Bool :=
  year % 4 == 0 && (year % 100 != 0 || year % 400 == 0)

/-- How many days a month has. -/
def daysInMonth (year month : Nat) : Nat :=
  match month with
  | 2 => if isLeapYear year then 29 else 28
  | 4 | 6 | 9 | 11 => 30
  | _ => 31

/-- The dates from the first day of year 1 to the last day of year 9999. -/
def Date.isValid (d : Date) : Bool :=
  1 ≤ d.year && d.year ≤ 9999 && 1 ≤ d.month && d.month ≤ 12 &&
    1 ≤ d.day && d.day ≤ daysInMonth d.year d.month

/-- How many days lie between the date and the day before the first of March of year 0. -/
def Date.dayNumber (d : Date) : Nat :=
  let year := if d.month ≤ 2 then d.year - 1 else d.year
  let month := if d.month ≤ 2 then d.month + 9 else d.month - 3
  365 * year + year / 4 - year / 100 + year / 400 + (153 * month + 2) / 5 + d.day

/-- The decimal digits of a number, with zeros in front up to the given width. -/
def padded (width n : Nat) : String :=
  let digits := Nat.toDigits 10 n
  String.ofList (List.replicate (width - digits.length) '0' ++ digits)

/-- Year, month and day, largest first, joined by hyphens. -/
def Date.text (d : Date) : String :=
  padded 4 d.year ++ "-" ++ padded 2 d.month ++ "-" ++ padded 2 d.day

/-- A date with a time of day.  The offset is the distance of the local clock from universal time,
in minutes. -/
structure Moment where
  date : Date
  hour : Nat := 0
  minute : Nat := 0
  second : Nat := 0
  microsecond : Nat := 0
  offset : Option Int := none
  deriving DecidableEq, Repr, Inhabited

/-- The times of a day of twenty-four hours, at most a day away from universal time. -/
def Moment.isValid (m : Moment) : Bool :=
  m.date.isValid && m.hour < 24 && m.minute < 60 && m.second < 60 && m.microsecond < 1000000 &&
    match m.offset with
    | none => true
    | some minutes => minutes.natAbs < 24 * 60

/-- A distance from universal time as a signed hour and minute. -/
def offsetText (minutes : Int) : String :=
  let size := minutes.natAbs
  (if minutes < 0 then "-" else "+") ++ padded 2 (size / 60) ++ ":" ++ padded 2 (size % 60)

/-- The moment as text, with the given separator between date and time.  Microseconds are written
only if there are any. -/
def Moment.textWith (separator : String) (m : Moment) : String :=
  m.date.text ++ separator ++ padded 2 m.hour ++ ":" ++ padded 2 m.minute ++ ":" ++
    padded 2 m.second ++
    (if m.microsecond == 0 then "" else "." ++ padded 6 m.microsecond) ++
    (m.offset.map offsetText).getD ""

/-- The moment in its standard form, with `T` between date and time. -/
def Moment.text (m : Moment) : String :=
  m.textWith "T"

/-- The microseconds between a moment and a fixed moment of universal time. -/
def Moment.instant (m : Moment) : Int :=
  let minutes : Int := (m.date.dayNumber * 24 + m.hour) * 60 + m.minute - m.offset.getD 0
  (minutes * 60 + m.second) * 1000000 + m.microsecond

/-- Two moments are the same if both name a distance from universal time and fall on one instant,
or if neither does and they read alike. -/
def Moment.same (m n : Moment) : Bool :=
  m.offset.isSome == n.offset.isSome && m.instant == n.instant

end PackageScaffold
