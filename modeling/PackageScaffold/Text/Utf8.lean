import PackageScaffold.Text.Escape

/-!
# UTF-8

The bytes of a text, and the text of bytes.  Bytes that are no text are refused with the place of
the first fault: a byte that begins no character, a character that is broken off by a byte that does
not continue it, or one that is broken off by the end.

## Main definitions

* `Utf8.encode`, `Utf8.decode`;
* `Utf8.Fault`, in words by `Utf8.Fault.message`.
-/

namespace PackageScaffold.Utf8

/-- The bytes of a character. -/
def encodeChar (c : Char) : List UInt8 :=
  let n := c.toNat
  if n < 0x80 then [UInt8.ofNat n]
  else if n < 0x800 then [UInt8.ofNat (0xC0 + n / 64), UInt8.ofNat (0x80 + n % 64)]
  else if n < 0x10000 then
    [UInt8.ofNat (0xE0 + n / 4096), UInt8.ofNat (0x80 + n / 64 % 64), UInt8.ofNat (0x80 + n % 64)]
  else
    [UInt8.ofNat (0xF0 + n / 262144), UInt8.ofNat (0x80 + n / 4096 % 64),
      UInt8.ofNat (0x80 + n / 64 % 64), UInt8.ofNat (0x80 + n % 64)]

/-- The bytes of a text. -/
def encode (cs : List Char) : List UInt8 :=
  cs.flatMap encodeChar

/-- What is wrong with bytes that are no text. -/
inductive Cause where
  | start
  | continuation
  | cutOff
  deriving DecidableEq, Repr

/-- The first fault in bytes that are no text: the bytes from `first` on, as many as `size`. -/
structure Fault where
  cause : Cause
  first : Nat
  size : Nat
  byte : Nat
  deriving DecidableEq, Repr

/-- The cause in words. -/
def Cause.message : Cause → String
  | .start => "invalid start byte"
  | .continuation => "invalid continuation byte"
  | .cutOff => "unexpected end of data"

/-- A number in decimal digits. -/
def number (n : Nat) : String :=
  String.ofList (Nat.toDigits 10 n)

/-- The fault in words. -/
def Fault.message (fault : Fault) : String :=
  let place :=
    if fault.size == 1 then
      "byte 0x" ++ String.ofList (Text.hex 2 fault.byte) ++ " in position " ++ number fault.first
    else
      "bytes in position " ++ number fault.first ++ "-" ++ number (fault.first + fault.size - 1)
  "'utf-8' codec can't decode " ++ place ++ ": " ++ fault.cause.message

/-- Whether a byte continues a character. -/
def continues (byte : Nat) : Bool :=
  0x80 ≤ byte && byte < 0xC0

/-- Whether the second byte of a character may follow the first.  The ranges leave out overlong
forms, halves of character pairs, and numbers beyond the last character. -/
def mayFollow (first second : Nat) : Bool :=
  if first == 0xE0 then 0xA0 ≤ second && second < 0xC0
  else if first == 0xED then 0x80 ≤ second && second < 0xA0
  else if first == 0xF0 then 0x90 ≤ second && second < 0xC0
  else if first == 0xF4 then 0x80 ≤ second && second < 0x90
  else continues second

/-- How many bytes follow the first byte of a character. -/
def followers? (first : Nat) : Option Nat :=
  if first < 0x80 then some 0
  else if first < 0xC2 then none
  else if first < 0xE0 then some 1
  else if first < 0xF0 then some 2
  else if first < 0xF5 then some 3
  else none

/-- What is wrong with the bytes behind the first byte of a character that has too few good ones.
`good` is the number of bytes so far. -/
def shortfall (position first good : Nat) (atEnd : Bool) : Fault :=
  { cause := if atEnd then .cutOff else .continuation
    first := position, size := good, byte := first }

/-- The text that bytes from a position on spell. -/
def decodeFrom (position : Nat) : List UInt8 → Except Fault (List Char)
  | [] => .ok []
  | byte :: rest =>
    let a := byte.toNat
    match followers? a, rest with
    | none, _ => .error { cause := .start, first := position, size := 1, byte := a }
    | some 0, rest => do return Char.ofNat a :: (← decodeFrom (position + 1) rest)
    | some _, [] => .error (shortfall position a 1 true)
    | some more, second :: rest =>
      let b := second.toNat
      if !mayFollow a b then .error (shortfall position a 1 false)
      else
        match more, rest with
        | 1, rest => do
          return Char.ofNat (a % 32 * 64 + b % 64) :: (← decodeFrom (position + 2) rest)
        | _, [] => .error (shortfall position a 2 true)
        | more, third :: rest =>
          let c := third.toNat
          if !continues c then .error (shortfall position a 2 false)
          else
            match more, rest with
            | 2, rest => do
              return Char.ofNat (a % 16 * 4096 + b % 64 * 64 + c % 64) ::
                (← decodeFrom (position + 3) rest)
            | _, [] => .error (shortfall position a 3 true)
            | _, fourth :: rest =>
              let d := fourth.toNat
              if !continues d then .error (shortfall position a 3 false)
              else do
                return Char.ofNat (a % 8 * 262144 + b % 64 * 4096 + c % 64 * 64 + d % 64) ::
                  (← decodeFrom (position + 4) rest)

/-- The text that bytes spell. -/
def decode (bytes : List UInt8) : Except Fault (List Char) :=
  decodeFrom 0 bytes

end PackageScaffold.Utf8
