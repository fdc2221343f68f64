import PackageScaffold.Text.Ranges

/-!
# Blank characters

White space of any script, and the cutting of it from the ends of a text.
-/

namespace PackageScaffold.Text

/-- White space: the ASCII layout controls, the information separators, and every space or line
separator of Unicode. -/
def blankRanges : List (Nat × Nat) :=
  [(0x09, 0x0D), (0x1C, 0x20), (0x85, 0x85), (0xA0, 0xA0), (0x1680, 0x1680), (0x2000, 0x200A),
   (0x2028, 0x2029), (0x202F, 0x202F), (0x205F, 0x205F), (0x3000, 0x3000)]

/-- White space of any script. -/
def isBlank (c : Char) : Bool :=
  inRanges blankRanges c.toNat

/-- The blanks that numbers may stand between: white space without the information separators. -/
def isNumberBlank (c : Char) : Bool :=
  isBlank c && !(0x1C ≤ c.toNat && c.toNat ≤ 0x1F)

/-- The text without the leading characters that satisfy the test. -/
def trimStart (p : Char → Bool) (cs : List Char) : List Char :=
  cs.dropWhile p

/-- The text without the trailing characters that satisfy the test. -/
def trimEnd (p : Char → Bool) : List Char → List Char
  | [] => []
  | c :: cs =>
    match trimEnd p cs with
    | [] => if p c then [] else [c]
    | kept => c :: kept

/-- The text without the characters at either end that satisfy the test. -/
def trimBy (p : Char → Bool) (cs : List Char) : List Char :=
  trimEnd p (trimStart p cs)

/-- The text without white space at either end. -/
def trim (s : String) : String :=
  String.ofList (trimBy isBlank s.toList)

end PackageScaffold.Text
