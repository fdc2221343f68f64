import PackageScaffold.Proofs.Except
import PackageScaffold.Proofs.Template.Nesting
import PackageScaffold.Proofs.Template.Scopes

/-!
# Strict expansion

Strict expansion is expansion that may be refused: what it gives is what expansion gives.  It is not
refused if the markers nest and every variable that is reached has a text.  The text of a template
is then put together along its tree.

* `expandWith_eq_ok`: strictly or not, the text is the same;
* `Resolves`: every variable that is reached has a text, and `expandWith_of_resolves`;
* `Node.lineTokens`: the tokens of a tree whose sections stand on lines of their own;
* `Writes`: what a tree writes, strictly or not, with one lemma for each kind of node;
* `expandWith_of_writes`: the template is expanded to what its tree writes.
-/

namespace PackageScaffold.Template

/-! ## What strict expansion gives -/

mutual

theorem Node.expand_of_expandStrict {scopes : Scopes} :
    ∀ {node : Node} {text : String}, node.expandStrict scopes = .ok text → node.expand scopes = text
  | .literal _, _, h => by
      rw [Node.expandStrict] at h
      rw [Node.expand]
      exact Except.ok.inj h
  | .variable name source, text, h => by
      rw [Node.expandStrict] at h
      rw [Node.expand]
      split at h
      · rename_i found hfound
        obtain rfl := Except.ok.inj h
        rw [hfound, Option.getD_some]
      · simp at h
  | .block name children opening closing, text, h => by
      rw [Node.expandStrict] at h
      obtain ⟨texts, htexts, h⟩ := bind_eq_ok h
      obtain rfl := Except.ok.inj h
      rw [Node.expand, Node.expandAll_of_mapM htexts]

theorem Node.expandAll_of_expandAllStrict {scopes : Scopes} :
    ∀ {nodes : List Node} {text : String}, Node.expandAllStrict scopes nodes = .ok text →
      Node.expandAll scopes nodes = text
  | [], _, h => by
      rw [Node.expandAllStrict] at h
      rw [Node.expandAll]
      exact Except.ok.inj h
  | node :: nodes, text, h => by
      rw [Node.expandAllStrict] at h
      obtain ⟨first, hfirst, h⟩ := bind_eq_ok h
      obtain ⟨rest, hrest, h⟩ := bind_eq_ok h
      obtain rfl := Except.ok.inj h
      rw [Node.expandAll, Node.expand_of_expandStrict hfirst,
        Node.expandAll_of_expandAllStrict hrest]

/-- The bodies of a section, in one chain of scopes after the other. -/
theorem Node.expandAll_of_mapM {children : List Node} :
    ∀ {chains : List Scopes} {texts : List String},
      (chains.mapM fun inner => Node.expandAllStrict inner children) = .ok texts →
        (chains.map fun inner => Node.expandAll inner children) = texts
  | [], _, h => by
      obtain rfl := Except.ok.inj h
      rfl
  | inner :: chains, texts, h => by
      obtain ⟨text, rest, htext, hrest, rfl⟩ := mapM_eq_ok_cons h
      rw [List.map_cons, Node.expandAll_of_expandAllStrict htext, Node.expandAll_of_mapM hrest]

end

/-- Strictly or not, the text of a template is the same. -/
theorem expandWith_eq_ok {strict : Bool} {template : String} {bindings : Entries} {text : String}
    (h : expandWith strict template bindings = .ok text) : expand template bindings = text := by
  unfold expandWith at h
  cases strict with
  | false => exact Except.ok.inj h
  | true =>
      obtain ⟨nodes, hnodes, h⟩ := bind_eq_ok h
      rw [expand, parse, nodesOfTokens_of_spells (spells_of_nodesOfTokensStrict hnodes)]
      exact Node.expandAll_of_expandAllStrict h

/-! ## When strict expansion is not refused -/

/-- Every variable that is reached has a text. -/
inductive Resolves : Scopes → List Node → Prop
  | nil {scopes : Scopes} : Resolves scopes []
  | literal {scopes : Scopes} {nodes : List Node} (text : String) (rest : Resolves scopes nodes) :
      Resolves scopes (.literal text :: nodes)
  | value {scopes : Scopes} {nodes : List Node} {name text : String} (source : String)
      (htext : (Scopes.get? scopes name).bind scalarText? = some text)
      (rest : Resolves scopes nodes) : Resolves scopes (.variable name source :: nodes)
  | block {scopes : Scopes} {children nodes : List Node} {name : String} (opening closing : String)
      (bodies : ∀ inner ∈ bodyScopes scopes (Scopes.get? scopes name), Resolves inner children)
      (rest : Resolves scopes nodes) : Resolves scopes (.block name children opening closing :: nodes)

theorem Resolves.append {scopes : Scopes} {first second : List Node}
    (hfirst : Resolves scopes first)
    (hsecond : Resolves scopes second) : Resolves scopes (first ++ second) := by
  induction hfirst with
  | nil => exact hsecond
  | literal text _ ih => exact .literal text (ih hsecond)
  | value source htext _ ih => exact .value source htext (ih hsecond)
  | block opening closing bodies _ _ ih => exact .block opening closing bodies (ih hsecond)

theorem Resolves.exists_expandAllStrict {scopes : Scopes} {nodes : List Node}
    (h : Resolves scopes nodes) : ∃ text, Node.expandAllStrict scopes nodes = .ok text := by
  induction h with
  | nil => exact ⟨"", by rw [Node.expandAllStrict]⟩
  | literal text _ ih =>
      obtain ⟨rest, hrest⟩ := ih
      exact ⟨text ++ rest, by rw [Node.expandAllStrict, Node.expandStrict, hrest]; rfl⟩
  | @value _ _ _ text source htext _ ih =>
      obtain ⟨rest, hrest⟩ := ih
      exact ⟨text ++ rest, by rw [Node.expandAllStrict, Node.expandStrict, htext, hrest]; rfl⟩
  | block opening closing _ _ ihbodies ih =>
      obtain ⟨rest, hrest⟩ := ih
      obtain ⟨texts, htexts⟩ := exists_mapM_eq_ok ihbodies
      exact ⟨String.join texts ++ rest,
        by rw [Node.expandAllStrict, Node.expandStrict, htexts, hrest]; rfl⟩

/-- A template whose variables all have a text is expanded, strictly or not. -/
theorem expandWith_of_resolves {template : String} {nodes : List Node} {bindings : Entries}
    (hspells : Spells (tokenize template) nodes) (h : Resolves [bindings] nodes) (strict : Bool) :
    ∃ text, expandWith strict template bindings = .ok text := by
  cases strict with
  | false => exact ⟨_, rfl⟩
  | true =>
      obtain ⟨text, htext⟩ := h.exists_expandAllStrict
      refine ⟨text, ?_⟩
      rw [expandWith, if_pos rfl, expandStrict, parseStrict, nodesOfTokensStrict_of_spells hspells]
      exact htext

/-! ## Templates in lines -/

mutual

/-- The tokens of a node whose section markers stand on lines of their own. -/
def Node.lineTokens : Node → List Token
  | .literal text => [.literal text]
  | .variable name source => [.marker .variable name source source]
  | .block name children opening closing =>
    .marker .opening name opening (opening ++ "\n") ::
      (Node.lineTokensAll children ++ [.marker .closing name closing (closing ++ "\n")])

/-- The tokens of a sequence of nodes whose section markers stand on lines of their own. -/
def Node.lineTokensAll : List Node → List Token
  | [] => []
  | node :: nodes => node.lineTokens ++ Node.lineTokensAll nodes

end

mutual

theorem Node.spells_lineTokens : ∀ node : Node, Spells node.lineTokens [node]
  | .literal _ => .literal _ .nil
  | .variable _ _ => .value _ _ _ .nil
  | .block _ children _ _ => .block _ _ _ _ _ (Node.spells_lineTokensAll children) .nil

theorem Node.spells_lineTokensAll : ∀ nodes : List Node, Spells (Node.lineTokensAll nodes) nodes
  | [] => .nil
  | node :: nodes => (Node.spells_lineTokens node).append (Node.spells_lineTokensAll nodes)

end

/-! ## What is written -/

/-- Every variable that is reached has a text, and with these the nodes have the given text. -/
structure Writes (scopes : Scopes) (nodes : List Node) (text : String) : Prop where
  resolves : Resolves scopes nodes
  expandAll : Node.expandAll scopes nodes = text

namespace Writes

variable {scopes : Scopes} {nodes children : List Node} {name text body : String}

theorem of_eq (h : Writes scopes nodes text) {other : String} (heq : text = other) :
    Writes scopes nodes other :=
  heq ▸ h

theorem nil : Writes scopes [] "" :=
  ⟨.nil, by rw [Node.expandAll]⟩

theorem literal (first : String) (h : Writes scopes nodes text) :
    Writes scopes (.literal first :: nodes) (first ++ text) :=
  ⟨.literal first h.resolves, by rw [Node.expandAll, Node.expand, h.expandAll]⟩

theorem value (source : String) {found : String}
    (hfound : (Scopes.get? scopes name).bind scalarText? = some found)
    (h : Writes scopes nodes text) :
    Writes scopes (.variable name source :: nodes) (found ++ text) :=
  ⟨.value source hfound h.resolves, by
    rw [Node.expandAll, Node.expand, hfound, Option.getD_some, h.expandAll]⟩

/-- A variable that is bound to a text is written as this text. -/
theorem bound {bindings : Entries} {found : String} (source : String)
    (hfound : Entries.get? bindings name = some (.text found)) (h : Writes [bindings] nodes text) :
    Writes [bindings] (.variable name source :: nodes) (found ++ text) := by
  refine h.value source ?_
  rw [Scopes.get?_cons, hfound]
  rfl

/-- The body of a section for a switch is written if the switch is on. -/
theorem switch {isOn : Bool} {opening closing : String}
    (hvalue : Scopes.get? scopes name = some (.bool isOn)) (hbody : Writes scopes children body)
    (h : Writes scopes nodes text) :
    Writes scopes (.block name children opening closing :: nodes)
      ((if isOn then body else "") ++ text) := by
  refine ⟨.block _ _ ?_ h.resolves, ?_⟩
  · rw [hvalue]
    cases isOn <;> simp [bodyScopes, Value.items?, Value.entries?, isTruthy, hbody.resolves]
  · rw [Node.expandAll, Node.expand, h.expandAll, hvalue]
    cases isOn <;>
      simp [bodyScopes, Value.items?, Value.entries?, isTruthy, hbody.expandAll]

/-- The body of a section for an empty list is not written. -/
theorem unwritten {opening closing : String} (hvalue : Scopes.get? scopes name = some (.list []))
    (h : Writes scopes nodes text) :
    Writes scopes (.block name children opening closing :: nodes) text := by
  have hchains : bodyScopes scopes (Scopes.get? scopes name) = [] := by
    rw [hvalue]
    rfl
  refine ⟨.block _ _ (by simp [hchains]) h.resolves, ?_⟩
  rw [Node.expandAll, Node.expand, h.expandAll, hchains]
  exact String.empty_append

/-- The body of a section for a list of records is written for each of them. -/
theorem records {α : Type} {record : α → Entries} {items : List α} {bodyOf : α → String}
    {opening closing : String}
    (hvalue : Scopes.get? scopes name = some (.list ((items.map record).map Value.map)))
    (hbody : ∀ item ∈ items, Writes (record item :: scopes) children (bodyOf item))
    (h : Writes scopes nodes text) :
    Writes scopes (.block name children opening closing :: nodes)
      (String.join (items.map bodyOf) ++ text) := by
  have hchains : bodyScopes scopes (Scopes.get? scopes name) =
      items.map fun item => record item :: scopes := by
    rw [hvalue]
    simp [bodyScopes, Value.items?, itemScope, Value.entries?, Function.comp_def]
  refine ⟨.block _ _ ?_ h.resolves, ?_⟩
  · rw [hchains]
    exact List.forall_mem_map.mpr fun item hitem => (hbody item hitem).resolves
  · rw [Node.expandAll, Node.expand, h.expandAll, hchains, List.map_map]
    congr 2
    exact List.map_congr_left fun item hitem => (hbody item hitem).expandAll

end Writes

/-- A template is expanded to what its tree writes, strictly or not. -/
theorem expandWith_of_writes {template : String} {nodes : List Node} {bindings : Entries}
    {text : String} (hspells : Spells (tokenize template) nodes) (h : Writes [bindings] nodes text)
    (strict : Bool) : expandWith strict template bindings = .ok text := by
  obtain ⟨found, hfound⟩ := expandWith_of_resolves hspells h.resolves strict
  rw [hfound, ← expandWith_eq_ok hfound, expand, parse, nodesOfTokens_of_spells hspells,
    h.expandAll]

end PackageScaffold.Template
