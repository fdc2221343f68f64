import PackageScaffold.Decimal.Binary

/-!
# The shortest decimal text of a number

Among the decimals that read back as a given floating-point number, the shortest has the fewest
digits, and of those it is the one nearest to the number.  For each count of digits only the two
grid points next to the number are tried, in exact arithmetic: if any point of the grid lies in the
interval that rounds to the number, so does one of its two neighbours.
-/

namespace PackageScaffold.Decimal

/-- The positive number `numerator / denominator`, with the ends of the interval of numbers that
round to it over the same denominator. -/
structure Rounding where
  low : Nat
  numerator : Nat
  high : Nat
  denominator : Nat
  /-- The ends belong to the interval, as ties go to the even mantissa. -/
  closed : Bool

/-- The interval around `mantissa · 2 ^ exponent`.  It is narrower below a power of two, where the
spacing of floating-point numbers halves. -/
def Rounding.around (mantissa : Nat) (exponent : Int) : Rounding :=
  let low :=
    if mantissa == powerOfTwo 52 && exponent != -1074 then 4 * mantissa - 1 else 4 * mantissa - 2
  let up := powerOfTwo (exponent - 2).toNat
  { low := low * up
    numerator := 4 * mantissa * up
    high := (4 * mantissa + 2) * up
    denominator := powerOfTwo (2 - exponent).toNat
    closed := mantissa % 2 == 0 }

/-- The interval in units of `10 ^ place`. -/
def Rounding.scale (r : Rounding) (place : Int) : Rounding :=
  let up := powerOfTen (-place).toNat
  { r with
    low := r.low * up
    numerator := r.numerator * up
    high := r.high * up
    denominator := r.denominator * powerOfTen place.toNat }

/-- Whether a whole number lies in the interval. -/
def Rounding.holds (r : Rounding) (n : Nat) : Bool :=
  let point := n * r.denominator
  if r.closed then r.low ≤ point && point ≤ r.high else r.low < point && point < r.high

/-- The whole number in the interval that is nearest to its centre; of two equally near the even
one. -/
def Rounding.nearest? (r : Rounding) : Option Nat :=
  let below := r.numerator / r.denominator
  match r.holds below, r.holds (below + 1) with
  | true, true =>
    let twice := 2 * (r.numerator % r.denominator)
    if twice < r.denominator || (twice == r.denominator && below % 2 == 0) then some below
    else some (below + 1)
  | true, false => some below
  | false, true => some (below + 1)
  | false, false => none

/-- The place of the first digit of `numerator / denominator`, below one: the number of zeros it
takes to lift it to one or more. -/
def leadingZeros (denominator : Nat) : Nat → Nat → Nat
  | 0, _ => 0
  | fuel + 1, numerator =>
    if denominator ≤ numerator then 0 else leadingZeros denominator fuel (numerator * 10) + 1

/-- The place of the first digit of a positive number: `10 ^ place` is the largest power of ten
that it reaches. -/
def Rounding.place (r : Rounding) : Int :=
  if r.denominator ≤ r.numerator then
    ((Nat.toDigits 10 (r.numerator / r.denominator)).length : Int) - 1
  else -(leadingZeros r.denominator 400 r.numerator : Int)

/-- The digits of the shortest decimal with at least `count` digits, and the place of the last. -/
def Rounding.shortestFrom (r : Rounding) (first : Int) : Nat → Nat → Nat × Int
  | 0, count => ((r.scale (first - count)).numerator / (r.scale (first - count)).denominator,
      first - count)
  | fuel + 1, count =>
    match (r.scale (first - count)).nearest? with
    | some digits => (digits, first - count)
    | none => r.shortestFrom first fuel (count + 1)

/-- The number without its final zeros, and how many there were. -/
def dropFinalZeros : Nat → Nat → Nat × Nat
  | 0, n => (n, 0)
  | fuel + 1, n =>
    if n % 10 == 0 && n != 0 then
      let (kept, count) := dropFinalZeros fuel (n / 10)
      (kept, count + 1)
    else (n, 0)

/-- The digits of the shortest decimal of `mantissa · 2 ^ exponent`, and the place of the last. -/
def shortest (mantissa : Nat) (exponent : Int) : Nat × Int :=
  let r := Rounding.around mantissa exponent
  let (digits, place) := r.shortestFrom r.place 17 0
  let (kept, zeros) := dropFinalZeros 20 digits
  (kept, place + zeros)

/-- How a decimal is written: positional where its first digit stands between the two places, else
with an exponent of at least two digits. -/
structure Format where
  leastPlace : Int
  mostPlace : Int

/-- Numbers from a ten-thousandth up to ten to the sixteenth are written positionally. -/
def Format.standard : Format := ⟨-4, 15⟩

/-- The text of the positive decimal `digits · 10 ^ place`. -/
def Format.write (format : Format) (digits : Nat) (place : Int) : String :=
  let text := Nat.toDigits 10 digits
  let first := place + (text.length : Int) - 1
  if format.leastPlace ≤ first && first ≤ format.mostPlace then
    if 0 ≤ place then String.ofList (text ++ List.replicate place.toNat '0' ++ ['.', '0'])
    else if 0 ≤ first then
      let whole := (first + 1).toNat
      String.ofList (text.take whole ++ '.' :: text.drop whole)
    else String.ofList ('0' :: '.' :: List.replicate (-first - 1).toNat '0' ++ text)
  else
    let exponent := Nat.toDigits 10 first.natAbs
    let padded := if exponent.length < 2 then '0' :: exponent else exponent
    let fraction := match text with
      | [] => []
      | [digit] => [digit]
      | digit :: rest => digit :: '.' :: rest
    String.ofList (fraction ++ 'e' :: (if first < 0 then '-' else '+') :: padded)

/-- The text of a floating-point number: the shortest decimal that reads back as it. -/
def text (x : Float) : String :=
  match decompose x with
  | .nan => "nan"
  | .infinite negative => if negative then "-inf" else "inf"
  | .finite negative mantissa exponent =>
    let sign := if negative then "-" else ""
    if mantissa == 0 then sign ++ "0.0"
    else
      let (digits, place) := shortest mantissa exponent
      sign ++ Format.standard.write digits place

end PackageScaffold.Decimal
