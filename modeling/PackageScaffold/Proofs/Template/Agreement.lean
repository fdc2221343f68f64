import PackageScaffold.Catalogue.Line
import PackageScaffold.Proofs.Template.Strict

/-!
# Where the two expansions agree

The text of a template is written piece by piece: `Node.piecesAll` lists the pieces in the order in
which evaluation comes to them, with the value that each variable has in the scopes where it is
reached.  Strict evaluation stops at the first piece that would be left as it is written, and gives
the same text if there is none (`expandAllStrict_eq`).
-/

namespace PackageScaffold

/-- Whether a value is a truth value, a number or a text. -/
def Value.isScalar : Value → Bool
  | .bool _ | .int _ | .float _ | .text _ => true
  | _ => false

namespace Template

/-- The values that can stand for a variable are the scalars. -/
theorem isSome_scalarText? (value : Value) : (scalarText? value).isSome = value.isScalar := by
  cases value with
  | bool value => cases value <;> rfl
  | _ => rfl

/-! ## The pieces of a text -/

/-- A piece of the text of a template: a literal text, or a variable with the value that it has
where it is reached. -/
inductive Piece where
  | literal (text : String)
  | variable (name source : String) (value : Option Value)

/-- The text of a piece.  A variable without a text is left as it is written. -/
def Piece.text : Piece → String
  | .literal text => text
  | .variable _ source value => (value.bind scalarText?).getD source

/-- Whether a piece is a variable that has no value, or one that is no scalar. -/
def Piece.isUnresolved : Piece → Bool
  | .literal _ => false
  | .variable _ _ none => true
  | .variable _ _ (some value) => !value.isScalar

/-- What strict evaluation complains about at a piece. -/
def Piece.fault? (piece : Piece) : Option Fault :=
  match piece with
  | .literal _ => none
  | .variable name _ _ => if piece.isUnresolved then some (.unresolved name) else none

mutual

/-- The pieces of the text of a node, in the order in which evaluation comes to them. -/
def Node.pieces (scopes : Scopes) : Node → List Piece
  | .literal text => [.literal text]
  | .variable name source => [.variable name source (Scopes.get? scopes name)]
  | .block name children _ _ =>
    ((bodyScopes scopes (Scopes.get? scopes name)).map fun inner =>
      Node.piecesAll inner children).flatten

/-- The pieces of the text of a sequence of nodes. -/
def Node.piecesAll (scopes : Scopes) : List Node → List Piece
  | [] => []
  | node :: nodes => node.pieces scopes ++ Node.piecesAll scopes nodes

end

/-- The text of a sequence of pieces. -/
def textOfPieces (pieces : List Piece) : String :=
  String.join (pieces.map Piece.text)

theorem textOfPieces_append (first second : List Piece) :
    textOfPieces (first ++ second) = textOfPieces first ++ textOfPieces second := by
  simp [textOfPieces]

mutual

theorem Node.textOfPieces_pieces (scopes : Scopes) :
    ∀ node : Node, textOfPieces (node.pieces scopes) = node.expand scopes
  | .literal text => by simp [Node.pieces, Node.expand, textOfPieces, Piece.text]
  | .variable name source => by simp [Node.pieces, Node.expand, textOfPieces, Piece.text]
  | .block name children opening closing => by
      rw [Node.pieces, Node.expand]
      induction bodyScopes scopes (Scopes.get? scopes name) with
      | nil => simp [textOfPieces]
      | cons inner chains ih =>
          rw [List.map_cons, List.flatten_cons, textOfPieces_append, ih,
            Node.textOfPieces_piecesAll inner children]
          simp

/-- Expansion writes the pieces that evaluation comes to, one after the other. -/
theorem Node.textOfPieces_piecesAll (scopes : Scopes) :
    ∀ nodes : List Node, textOfPieces (Node.piecesAll scopes nodes) = Node.expandAll scopes nodes
  | [] => by simp [Node.piecesAll, Node.expandAll, textOfPieces]
  | node :: nodes => by
      rw [Node.piecesAll, Node.expandAll, textOfPieces_append, Node.textOfPieces_pieces scopes node,
        Node.textOfPieces_piecesAll scopes nodes]

end

/-! ## Strict evaluation, piece by piece -/

/-- The text of a sequence of pieces, or what there is to complain about first. -/
def strictText (pieces : List Piece) : Except Fault String :=
  match pieces.findSome? Piece.fault? with
  | some fault => .error fault
  | none => .ok (textOfPieces pieces)

theorem strictText_singleton_variable (name source : String) (value : Option Value) :
    strictText [.variable name source value] =
      match value.bind scalarText? with
      | some text => .ok text
      | none => .error (.unresolved name) := by
  cases value with
  | none => rfl
  | some value =>
      have hscalar := isSome_scalarText? value
      cases htext : scalarText? value with
      | none => simp_all [strictText, Piece.fault?, Piece.isUnresolved]
      | some text =>
          simp_all [strictText, Piece.fault?, Piece.isUnresolved, textOfPieces, Piece.text]

theorem strictText_append (first second : List Piece) :
    strictText (first ++ second) = do
      let text ← strictText first
      let texts ← strictText second
      return text ++ texts := by
  unfold strictText
  rw [List.findSome?_append, textOfPieces_append]
  cases first.findSome? Piece.fault? with
  | some fault => rfl
  | none => cases second.findSome? Piece.fault? <;> rfl

theorem strictText_flatten (bodies : List (List Piece)) :
    strictText bodies.flatten = do
      let texts ← bodies.mapM strictText
      return String.join texts := by
  induction bodies with
  | nil => rfl
  | cons body bodies ih =>
      rw [List.flatten_cons, strictText_append, ih, List.mapM_cons]
      cases strictText body with
      | error fault => rfl
      | ok text =>
          cases bodies.mapM strictText with
          | error fault => rfl
          | ok texts => simp [bind, Except.bind, pure, Except.pure]

mutual

theorem Node.expandStrict_eq (scopes : Scopes) :
    ∀ node : Node, node.expandStrict scopes = strictText (node.pieces scopes)
  | .literal text => by
      simp [Node.expandStrict, Node.pieces, strictText, Piece.fault?, textOfPieces, Piece.text]
  | .variable name source => by
      rw [Node.expandStrict, Node.pieces]
      exact (strictText_singleton_variable name source _).symm
  | .block name children opening closing => by
      rw [Node.expandStrict, Node.pieces, strictText_flatten, List.mapM_map]
      simp only [Node.expandAllStrict_eq _ children]
      rfl

/-- Strict evaluation stops at the first piece that would be left as it is written. -/
theorem Node.expandAllStrict_eq (scopes : Scopes) :
    ∀ nodes : List Node, Node.expandAllStrict scopes nodes =
      strictText (Node.piecesAll scopes nodes)
  | [] => by rw [Node.expandAllStrict, Node.piecesAll]; rfl
  | node :: nodes => by
      rw [Node.expandAllStrict, Node.piecesAll, strictText_append, Node.expandStrict_eq scopes node,
        Node.expandAllStrict_eq scopes nodes]

end

theorem isSome_fault? (piece : Piece) : piece.fault?.isSome = piece.isUnresolved := by
  cases piece with
  | literal text => rfl
  | «variable» name source value =>
      unfold Piece.fault?
      cases Piece.isUnresolved (.variable name source value) <;> rfl

theorem strictText_eq_error_iff (pieces : List Piece) :
    (∃ fault, strictText pieces = .error fault) ↔ ∃ piece ∈ pieces, piece.isUnresolved = true := by
  have hfound : (pieces.findSome? Piece.fault?).isSome = true ↔
      ∃ piece ∈ pieces, piece.isUnresolved = true := by
    simp only [List.findSome?_isSome_iff, isSome_fault?]
  rw [← hfound, strictText]
  cases pieces.findSome? Piece.fault? <;> simp

/-! ## The two expansions -/

/-- Strict expansion is refused exactly if the section markers of the template do not nest, or if
expansion comes to a variable that it leaves as it is written, since it is bound to nothing or to
what is no scalar.  Otherwise both give the same text. -/
theorem expandStrict_agrees_with_expand (template : String) (bindings : Entries) :
    ((∃ fault, expandStrict template bindings = .error fault) ↔
      ¬ WellNested (tokenize template) ∨
        ∃ piece ∈ Node.piecesAll [bindings] (parse template), piece.isUnresolved = true) ∧
    (∀ text, expandStrict template bindings = .ok text → expand template bindings = text) ∧
    expand template bindings = textOfPieces (Node.piecesAll [bindings] (parse template)) := by
  refine ⟨?_, fun text htext => @expandWith_eq_ok true template bindings text htext,
    (Node.textOfPieces_piecesAll _ _).symm⟩
  have hnests := @wellNested_iff_nodesOfTokensStrict (tokenize template)
  cases hstrict : nodesOfTokensStrict (tokenize template) with
  | error fault =>
      have hnot : ¬ WellNested (tokenize template) := by
        rw [hnests, hstrict]
        simp
      have hrefused : expandStrict template bindings = .error fault := by
        rw [expandStrict, parseStrict, hstrict]
        rfl
      exact ⟨fun _ => .inl hnot, fun _ => ⟨fault, hrefused⟩⟩
  | ok nodes =>
      have hnodes : parse template = nodes :=
        nodesOfTokens_of_spells (spells_of_nodesOfTokensStrict hstrict)
      have heval : expandStrict template bindings =
          strictText (Node.piecesAll [bindings] nodes) := by
        rw [expandStrict, parseStrict, hstrict, ← Node.expandAllStrict_eq]
        rfl
      rw [heval, strictText_eq_error_iff, hnodes]
      constructor
      · exact .inr
      · rintro (hnot | hpiece)
        · exact absurd (hnests.mpr ⟨nodes, hstrict⟩) hnot
        · exact hpiece

/-- A variable without a value is refused where its section is written, and only there. -/
theorem expandStrict_agrees_where_reached :
    let template := "a" ++ Catalogue.opens "on" ++ Catalogue.var "x" ++ Catalogue.closes "on"
    (∃ fault, expandStrict template [(.text "on", .bool true)] = .error fault) ∧
      expand template [(.text "on", .bool true)] = "a" ++ Catalogue.var "x" ∧
      expand template [(.text "on", .bool false)] = "a" := by
  intro template
  have hreached : ∃ piece ∈ Node.piecesAll [[(.text "on", .bool true)]] (parse template),
      piece.isUnresolved = true := by
    have hany : (Node.piecesAll [[(.text "on", .bool true)]] (parse template)).any
        Piece.isUnresolved = true := by
      decide +kernel
    exact List.any_eq_true.mp hany
  have hskipped : expandStrict template [(.text "on", .bool false)] = .ok "a" := by
    decide +kernel
  refine ⟨(expandStrict_agrees_with_expand template _).1.mpr (.inr hreached), ?_,
    (expandStrict_agrees_with_expand template _).2.1 _ hskipped⟩
  rw [(expandStrict_agrees_with_expand template _).2.2]
  decide +kernel

end Template

end PackageScaffold
