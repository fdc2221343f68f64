import PackageScaffold.Text.CaseTable

/-!
# Upper and lower case

Case changes of single letters and of whole texts.  One letter may become several (`ß` in upper
case is `SS`), and a capital sigma in lower case looks at its neighbours: at the end of a word it
takes its final form.
-/

namespace PackageScaffold.Text

/-- The shift that a case table applies to a code point. -/
def caseShift? (rows : List (Nat × Nat × Nat × Int)) (code : Nat) : Option Int :=
  (rows.find? fun (first, last, step, _) =>
    first ≤ code && code ≤ last && (code - first) % step == 0).map fun (_, _, _, shift) => shift

/-- The letter a case table turns a letter into; itself if the table does not name it. -/
def shiftCase (rows : List (Nat × Nat × Nat × Int)) (c : Char) : Char :=
  match caseShift? rows c.toNat with
  | some shift => Char.ofNat (Int.toNat (c.toNat + shift))
  | none => c

/-- The upper case of one letter. -/
def upperChar (c : Char) : List Char :=
  if c.toNat < 128 then [c.toUpper]
  else
    match upperSequences.lookup c.toNat with
    | some codes => codes.map Char.ofNat
    | none => [shiftCase upperRows c]

/-- The lower case of one letter, away from any neighbours. -/
def lowerChar (c : Char) : List Char :=
  if c.toNat < 128 then [c.toLower]
  else if c == 'İ' then ['i', '\u0307']
  else [shiftCase lowerRows c]

/-- Letters that have a case. -/
def isCased (c : Char) : Bool :=
  if c.toNat < 128 then c.isAlpha else inRanges casedRanges c.toNat

/-- Marks that may stand inside a word without being letters of it. -/
def isCaseIgnorable (c : Char) : Bool :=
  inRanges caseIgnorableRanges c.toNat

/-- Whether the nearest character that is no mark is a letter with case. -/
def nearestIsCased (cs : List Char) : Bool :=
  match cs.dropWhile isCaseIgnorable with
  | c :: _ => isCased c
  | [] => false

/-- The lower case of a text, given the characters before it in reverse. -/
def lowerAfter (before : List Char) : List Char → List Char
  | [] => []
  | c :: cs =>
    let lowered :=
      if c == 'Σ' then
        if nearestIsCased before && !nearestIsCased cs then ['ς'] else ['σ']
      else lowerChar c
    lowered ++ lowerAfter (c :: before) cs

/-- The text in lower case. -/
def lower (s : String) : String :=
  String.ofList (lowerAfter [] s.toList)

/-- The text in upper case. -/
def upper (s : String) : String :=
  String.ofList (s.toList.flatMap upperChar)

end PackageScaffold.Text
