import PackageScaffold.Text.Utf8

/-!
# Contents of files

A file holds text, or bytes that are no text.  Text is written as it is; when it is read, every way
of ending a line reads as a line feed.
-/

namespace PackageScaffold

/-- What a file holds. -/
inductive Content where
  | text (text : String)
  | bytes (bytes : List UInt8)
  deriving DecidableEq, Repr, Inhabited

namespace Content

/-- The content with the given bytes. -/
def ofBytes (bytes : List UInt8) : Content :=
  match Utf8.decode bytes with
  | .ok cs => .text (String.ofList cs)
  | .error _ => .bytes bytes

/-- How many bytes a content has. -/
def size : Content → Nat
  | .text s => s.utf8ByteSize
  | .bytes raw => raw.length

/-- A text with every line ending written as a line feed. -/
def unifyLines : List Char → List Char
  | '\r' :: '\n' :: rest => '\n' :: unifyLines rest
  | '\r' :: rest => '\n' :: unifyLines rest
  | c :: rest => c :: unifyLines rest
  | [] => []

/-- The text that a content reads as. -/
def read : Content → Except Utf8.Fault String
  | .text s => .ok (String.ofList (unifyLines s.toList))
  | .bytes raw => (Utf8.decode raw).map fun cs => String.ofList (unifyLines cs)

end Content

end PackageScaffold
