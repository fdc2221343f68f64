/-!
# Binary floating point

A finite number of the 64-bit format is `mantissa · 2 ^ exponent` with a sign; `decompose`
reads the three off its bits, so that everything decimal is exact arithmetic on natural numbers.  It
multiplies them by powers of two and of ten only.
-/

namespace PackageScaffold.Decimal

/-! ## Powers of two and of ten -/

/-- The power of two with the exponent `n`. -/
def powerOfTwo (n : Nat) : Nat := Nat.pow 2 n

/-- The power of ten with the exponent `n`. -/
def powerOfTen (n : Nat) : Nat := Nat.pow 10 n

@[simp] theorem powerOfTwo_zero : powerOfTwo 0 = 1 := rfl

theorem powerOfTwo_succ (n : Nat) : powerOfTwo (n + 1) = powerOfTwo n * 2 := rfl

@[simp] theorem powerOfTen_zero : powerOfTen 0 = 1 := rfl

theorem powerOfTen_succ (n : Nat) : powerOfTen (n + 1) = powerOfTen n * 10 := rfl

/-! ## The parts of a number -/

/-- What the bits of a floating-point number say. -/
inductive Binary where
  | nan
  | infinite (negative : Bool)
  | finite (negative : Bool) (mantissa : Nat) (exponent : Int)
  deriving DecidableEq, Repr

/-- The parts of a floating-point number: sign, fraction and exponent fields of its bits. -/
def decompose (x : Float) : Binary :=
  let bits : Nat := x.toBits.toNat
  let negative := bits / powerOfTwo 63 == 1
  let field : Nat := bits / powerOfTwo 52 % powerOfTwo 11
  let fraction : Nat := bits % powerOfTwo 52
  if field == 2047 then
    if fraction == 0 then .infinite negative else .nan
  else if field == 0 then .finite negative fraction (-1074)
  else .finite negative (fraction + powerOfTwo 52) ((field : Int) - 1075)

/-- The whole number a floating-point number is equal to, if there is one. -/
def whole? (x : Float) : Option Int :=
  match decompose x with
  | .finite negative mantissa exponent =>
    let sign : Int := if negative then -1 else 1
    if 0 ≤ exponent then some (sign * ((mantissa * powerOfTwo exponent.toNat : Nat) : Int))
    else
      let unit : Nat := powerOfTwo (-exponent).toNat
      if mantissa % unit == 0 then some (sign * ((mantissa / unit : Nat) : Int)) else none
  | _ => none

end PackageScaffold.Decimal
