import PackageScaffold.Failure

/-!
# Faults of a document

What can be wrong with a text that is meant to be a YAML document.  A malformed document breaks a
rule of the format; an unbuildable one follows the format and asks for a value that does not exist,
such as the thirtieth of February.
-/

namespace PackageScaffold.Yaml

/-- A breach of the rules of the format. -/
inductive Defect where
  | character (c : Char)
  | noToken (c : Char)
  | missingColon
  | misplacedEntry
  | misplacedKey
  | misplacedValue
  | directive
  | version
  | repeatedDirective
  | tag
  | unknownHandle (handle : String)
  | anchorName
  | unknownAnchor (name : String)
  | repeatedAnchor (name : String)
  | unclosedText
  | markerInText
  | escape
  | blockHeader
  | unexpectedToken
  | missingNode
  | unclosedBlock
  | unclosedList
  | unclosedMapping
  | missingDocumentStart
  | secondDocument
  | nesting
  | shape
  | unknownTag (name : String)
  | collectionAsKey
  | merge
  | binary
  deriving DecidableEq, Repr

/-- The breach in words. -/
def Defect.message : Defect → String
  | .character c => "the character " ++ toString c.toNat ++ " is not allowed"
  | .noToken c => "found character '" ++ String.singleton c ++ "' that cannot start any token"
  | .missingColon => "could not find expected ':' after a key"
  | .misplacedEntry => "sequence entries are not allowed here"
  | .misplacedKey => "mapping keys are not allowed here"
  | .misplacedValue => "mapping values are not allowed here"
  | .directive => "a directive is not written as one"
  | .version => "found an incompatible document version"
  | .repeatedDirective => "found a directive twice"
  | .tag => "a tag is not written as one"
  | .unknownHandle handle => "found undefined tag handle '" ++ handle ++ "'"
  | .anchorName => "an anchor or alias needs a name"
  | .unknownAnchor name => "found undefined alias '" ++ name ++ "'"
  | .repeatedAnchor name => "found duplicate anchor '" ++ name ++ "'"
  | .unclosedText => "found unexpected end of document in quoted text"
  | .markerInText => "found unexpected document separator in quoted text"
  | .escape => "found unknown escape in quoted text"
  | .blockHeader => "the first line of a block of text is not written as one"
  | .unexpectedToken => "found a token that does not belong here"
  | .missingNode => "expected the content of a node"
  | .unclosedBlock => "expected the end of a block"
  | .unclosedList => "expected ',' or ']'"
  | .unclosedMapping => "expected ',' or '\x7d'"
  | .missingDocumentStart => "expected the start of a document"
  | .secondDocument => "expected a single document"
  | .nesting => "the document is nested too deeply"
  | .shape => "a node is not of the shape that its tag asks for"
  | .unknownTag name => "could not determine a meaning for the tag '" ++ name ++ "'"
  | .collectionAsKey => "found a collection as a key"
  | .merge => "expected a mapping or a list of mappings for merging"
  | .binary => "bytes are not encoded as such"

/-- Why a document has no value. -/
inductive Fault where
  | malformed (defect : Defect)
  | unbuildable (cause : Unbuildable)
  deriving DecidableEq, Repr

end PackageScaffold.Yaml
