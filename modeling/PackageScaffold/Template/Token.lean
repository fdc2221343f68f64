import PackageScaffold.Template.Marker
import PackageScaffold.Text.Order

/-!
# Tokens of a template

A template is a sequence of literal texts and markers.  Double braces with no valid name between
them, and markers directly after a `$`, are literal text.  A section marker that stands alone on
its line takes the whole line with it, indentation and line break included, so that sections laid
out on lines of their own leave no blank lines behind.
-/

namespace PackageScaffold.Template

open Text

/-- A piece of a template.  The text of a marker is what is written between and with its braces;
`consumed` is the part of the template that it stands for, which is more if the marker stands alone
on its line. -/
inductive Token where
  | literal (text : String)
  | marker (kind : MarkerKind) (name text consumed : String)
  deriving DecidableEq, Repr

/-- The part of the template that a token stands for. -/
def Token.source : Token → String
  | .literal text => text
  | .marker _ _ _ consumed => consumed

/-- The blanks that may stand before a section marker that is alone on its line. -/
def isIndent (c : Char) : Bool :=
  c == ' ' || c == '\t'

/-- The blanks that may stand after a section marker that is alone on its line. -/
def isLineEnd (c : Char) : Bool :=
  c == ' ' || c == '\t' || c == '\r'

/-- The rest of a line, line break included, if it holds only blanks. -/
def blankLine? (cs : List Char) : Option (List Char) :=
  match cs.dropWhile isLineEnd with
  | [] => some cs
  | '\n' :: _ => some (cs.takeWhile isLineEnd ++ ['\n'])
  | _ => none

/-- The literal token for text read so far, given in reverse; none if there is no such text. -/
def flush (lead : List Char) : List Token :=
  if lead.isEmpty then [] else [.literal (String.ofList lead.reverse)]

/-- The marker with the given body, unless a `$` stands before it. -/
def markerAfter? (lead body : List Char) : Option Marker :=
  if lead.head? == some '$' then none else Marker.read? body

/-- The rest of the line that a section marker takes with it, if it stands alone on its line. -/
def ownLine? (marker : Marker) (fresh : Bool) (after : List Char) : Option (List Char) :=
  if marker.kind.isSection && fresh then blankLine? after else none

/-- The tokens of a text.  `lead` is the literal text read since the last marker, in reverse;
`fresh` says whether the current line holds only spaces and tabs so far; and the next `passed`
characters belong to a marker that has been read already. -/
def scan (lead : List Char) (fresh : Bool) (passed : Nat) : List Char → List Token
  | [] => flush lead
  | c :: cs =>
    match passed with
    | passed + 1 => scan lead fresh passed cs
    | 0 =>
      match bracedBody? (c :: cs) with
      | none => scan (c :: lead) (c == '\n' || (fresh && isIndent c)) 0 cs
      | some (body, after) =>
        match markerAfter? lead body with
        | none => scan ((spell body).reverse ++ lead) false (body.length + 3) cs
        | some marker =>
          match ownLine? marker fresh after with
          | none =>
            flush lead ++
              .marker marker.kind marker.name (String.ofList (spell body))
                (String.ofList (spell body)) :: scan [] false (body.length + 3) cs
          | some tail =>
            flush (lead.dropWhile isIndent) ++
              .marker marker.kind marker.name (String.ofList (spell body))
                (String.ofList ((lead.takeWhile isIndent).reverse ++ spell body ++ tail)) ::
                scan [] true (body.length + 3 + tail.length) cs

/-- Characters that belong to a marker that has been read are passed over. -/
theorem scan_append_length (lead : List Char) (fresh : Bool) (passed rest : List Char) :
    scan lead fresh passed.length (passed ++ rest) = scan lead fresh 0 rest := by
  induction passed with
  | nil => rfl
  | cons c cs ih => simpa [scan] using ih

/-- The tokens of a template. -/
def tokenize (template : String) : List Token :=
  scan [] true 0 template.toList

/-- The names that the markers of a template mention, sorted, each once.  The name of the current
item of a list, the dot, is not among them. -/
def mentionedNames (template : String) : List String :=
  let name? : Token → Option String
    | .literal _ => none
    | .marker _ name _ _ => if name == "." then none else some name
  sortDistinct ((tokenize template).filterMap name?)

end PackageScaffold.Template
