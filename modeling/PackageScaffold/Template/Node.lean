import PackageScaffold.Template.Fault
import PackageScaffold.Template.Token

/-!
# The tree of a template

Sections nest like brackets.  A closing marker pairs with the innermost open section of its name;
sections left open inside it become literal text, and so does a closing marker that finds no
partner.  The strict reading refuses both instead.

## Main definitions

* `Node`: a literal, a variable, or a section with its children;
* `nodesOfTokens`, `nodesOfTokensStrict`: the tree of a token sequence;
* `Node.tokens`: the token sequence that spells a tree.
-/

namespace PackageScaffold.Template

/-- A part of a template.  A variable keeps the text of its marker, a section those of its two. -/
inductive Node where
  | literal (text : String)
  | variable (name source : String)
  | block (name : String) (children : List Node) (opening closing : String)
  deriving Inhabited

/-- An opening marker that waits for its partner, with the nodes before it in reverse. -/
structure Frame where
  name : String
  text : String
  consumed : String
  before : List Node

/-- What a marker stands for where it is taken as literal text. -/
def literalText (text consumed : String) : String :=
  if consumed.isEmpty then text else consumed

/-- The nodes of an open section's surroundings once its opening marker is taken as literal text.
Nodes are given and returned in reverse. -/
def Frame.abandon (frame : Frame) (nodes : List Node) : List Node :=
  nodes ++ .literal (literalText frame.text frame.consumed) :: frame.before

/-- The nodes of a section's surroundings once the section is closed. -/
def Frame.close (frame : Frame) (closing : String) (nodes : List Node) : List Node :=
  .block frame.name nodes.reverse frame.text closing :: frame.before

/-- Closes the innermost open section of a name, abandoning those inside it: the sections that stay
open, and the nodes so far in reverse. -/
def closeInnermost? (name closing : String) (nodes : List Node) :
    List Frame → Option (List Frame × List Node)
  | [] => none
  | frame :: frames =>
    if frame.name == name then some (frames, frame.close closing nodes)
    else closeInnermost? name closing (frame.abandon nodes) frames

/-- The nodes at the end of a template, once all sections that are still open are abandoned. -/
def abandonAll (nodes : List Node) : List Frame → List Node
  | [] => nodes.reverse
  | frame :: frames => abandonAll (frame.abandon nodes) frames

/-- The nodes of a token sequence, given the open sections and the nodes so far in reverse. -/
def build (frames : List Frame) (nodes : List Node) : List Token → List Node
  | [] => abandonAll nodes frames
  | .literal text :: tokens => build frames (.literal text :: nodes) tokens
  | .marker .variable name text _ :: tokens => build frames (.variable name text :: nodes) tokens
  | .marker .opening name text consumed :: tokens =>
    build (⟨name, text, consumed, nodes⟩ :: frames) [] tokens
  | .marker .closing name text consumed :: tokens =>
    match closeInnermost? name text nodes frames with
    | some (frames, nodes) => build frames nodes tokens
    | none => build frames (.literal (literalText text consumed) :: nodes) tokens

/-- The nodes of a token sequence in which every section marker has its partner. -/
def buildStrict (frames : List Frame) (nodes : List Node) :
    List Token → Except Fault (List Node)
  | [] =>
    match frames with
    | [] => .ok nodes.reverse
    | frame :: _ => .error (.unclosed frame.name)
  | .literal text :: tokens => buildStrict frames (.literal text :: nodes) tokens
  | .marker .variable name text _ :: tokens =>
    buildStrict frames (.variable name text :: nodes) tokens
  | .marker .opening name text consumed :: tokens =>
    buildStrict (⟨name, text, consumed, nodes⟩ :: frames) [] tokens
  | .marker .closing name text _ :: tokens =>
    match frames with
    | [] => .error (.unopened text)
    | frame :: outer =>
      if frame.name == name then buildStrict outer (frame.close text nodes) tokens
      else if outer.any (·.name == name) then .error (.unclosed frame.name)
      else .error (.unopened text)

/-- The tree of a token sequence; markers without a partner are literal text. -/
def nodesOfTokens (tokens : List Token) : List Node :=
  build [] [] tokens

/-- The tree of a token sequence; a marker without a partner is a fault. -/
def nodesOfTokensStrict (tokens : List Token) : Except Fault (List Node) :=
  buildStrict [] [] tokens

/-- The tree of a template; markers without a partner are literal text. -/
def parse (template : String) : List Node :=
  nodesOfTokens (tokenize template)

/-- The tree of a template; a marker without a partner is a fault. -/
def parseStrict (template : String) : Except Fault (List Node) :=
  nodesOfTokensStrict (tokenize template)

mutual

/-- The tokens that spell a node. -/
def Node.tokens : Node → List Token
  | .literal text => [.literal text]
  | .variable name source => [.marker .variable name source source]
  | .block name children opening closing =>
    .marker .opening name opening opening ::
      (Node.tokensAll children ++ [.marker .closing name closing closing])

/-- The tokens that spell a sequence of nodes. -/
def Node.tokensAll : List Node → List Token
  | [] => []
  | node :: nodes => node.tokens ++ Node.tokensAll nodes

end

end PackageScaffold.Template
