/-!
# Wordings

Characters beyond the first 65536 can be named by two numbers, the halves of a pair.  A half that is
named alone is no character, so what a document spells is either a text or a row of numbers that
holds such halves.

## Main definitions

* `Wording`;
* `Wording.ofCodes`: what a row of numbers spells.
-/

namespace PackageScaffold.Text

/-- What a row of numbers spells: a text, or something that no text can hold. -/
inductive Wording where
  | text (text : String)
  | broken (codes : List Nat)
  deriving DecidableEq, Repr, Inhabited

/-- Whether a number is half of a pair, and so stands for no character. -/
def isHalf (code : Nat) : Bool :=
  decide (0xD800 ≤ code) && decide (code ≤ 0xDFFF)

/-- The text with the given numbers, each half replaced by the character for what cannot be read. -/
def legible (codes : List Nat) : String :=
  String.ofList (codes.map fun code => if isHalf code then '\uFFFD' else Char.ofNat code)

/-- What a row of numbers spells. -/
def Wording.ofCodes (codes : List Nat) : Wording :=
  if codes.any isHalf then .broken codes else .text (legible codes)

end PackageScaffold.Text
