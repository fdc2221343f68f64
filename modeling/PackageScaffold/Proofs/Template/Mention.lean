import PackageScaffold.Proofs.Template.Agreement
import PackageScaffold.Proofs.Template.Scopes

/-!
# The names that a template mentions

A text depends on the names that stand in its template, and on no others: bindings that agree on
these expand it alike, strictly or not.

The names in the tree of a template are read off its markers, whichever of these find a partner.  So
the names that a template mentions, with the dot for the items of lists, are all that it takes from
its bindings.

* `Node.namesAll`: the names of the variables and sections of a template;
* `Node.piecesAll_congr`: scopes that agree on them lead to the same pieces;
* `expandWith_congr`: bindings that agree on them give the same text, or are refused alike;
* `NamesIn`: the names that the builder of a tree has come across, in open sections and in nodes;
* `NamesIn.closeInnermost?`, `namesIn_build`: what one closing marker and what a whole token sequence
  add to them;
* `mem_mentionedNames_iff`: the names that a template mentions;
* `expandWith_of_agree`: bindings that agree on these expand it alike, strictly or not.
-/

namespace PackageScaffold.Template

/-! ## Bindings that agree -/

mutual

/-- The names that stand in a node: that of a variable, or that of a section and those inside. -/
def Node.names : Node → List String
  | .literal _ => []
  | .variable name _ => [name]
  | .block name children _ _ => name :: Node.namesAll children

/-- The names that stand in a sequence of nodes. -/
def Node.namesAll : List Node → List String
  | [] => []
  | node :: nodes => node.names ++ Node.namesAll nodes

end

/-- Two chains of scopes bind some names alike. -/
def Scopes.AgreeOn (names : List String) (s t : Scopes) : Prop :=
  ∀ name ∈ names, Scopes.get? s name = Scopes.get? t name

theorem Scopes.AgreeOn.mono {some all : List String} {s t : Scopes} (hsubset : some ⊆ all)
    (h : Scopes.AgreeOn all s t) : Scopes.AgreeOn some s t :=
  fun name hname => h name (hsubset hname)

/-- Scopes that agree still agree behind those that a section puts in front of them. -/
theorem Scopes.AgreeOn.append {names : List String} {s t : Scopes}
    (h : Scopes.AgreeOn names s t) (front : Scopes) :
    Scopes.AgreeOn names (front ++ s) (front ++ t) := by
  intro name hname
  rw [Scopes.get?_append, Scopes.get?_append, h name hname]

mutual

theorem Node.pieces_congr {s t : Scopes} :
    ∀ node : Node, Scopes.AgreeOn node.names s t → node.pieces s = node.pieces t
  | .literal _, _ => by simp only [Node.pieces]
  | .variable name _, h => by
      simp only [Node.pieces, h name (by simp [Node.names])]
  | .block name children _ _, h => by
      have hchildren : Scopes.AgreeOn (Node.namesAll children) s t :=
        h.mono (by simp [Node.names])
      obtain ⟨fronts, hfronts⟩ := exists_bodyScopes (Scopes.get? t name)
      simp only [Node.pieces, h name (by simp [Node.names]), hfronts, List.map_map]
      congr 1
      refine List.map_congr_left fun front _ => ?_
      exact Node.piecesAll_congr children (hchildren.append front)

/-- Scopes that agree on the names in a sequence of nodes lead to the same pieces. -/
theorem Node.piecesAll_congr {s t : Scopes} :
    ∀ nodes : List Node, Scopes.AgreeOn (Node.namesAll nodes) s t →
      Node.piecesAll s nodes = Node.piecesAll t nodes
  | [], _ => by simp only [Node.piecesAll]
  | node :: nodes, h => by
      have hfirst : Scopes.AgreeOn node.names s t := h.mono (by simp [Node.namesAll])
      have hrest : Scopes.AgreeOn (Node.namesAll nodes) s t := h.mono (by simp [Node.namesAll])
      simp only [Node.piecesAll, Node.pieces_congr node hfirst, Node.piecesAll_congr nodes hrest]

end

/-- Bindings that agree on the names in a template expand it alike, strictly or not. -/
theorem expandWith_congr {template : String} {bindings other : Entries}
    (h : ∀ name ∈ Node.namesAll (parse template),
      Entries.get? bindings name = Entries.get? other name) (strict : Bool) :
    expandWith strict template bindings = expandWith strict template other := by
  have hscopes : Scopes.AgreeOn (Node.namesAll (parse template)) [bindings] [other] := by
    intro name hname
    rw [Scopes.get?_cons, Scopes.get?_cons, h name hname]
  have hpieces := Node.piecesAll_congr (parse template) hscopes
  cases strict with
  | false =>
      simp only [expandWith, expand, Bool.false_eq_true, if_false]
      rw [← Node.textOfPieces_piecesAll, hpieces, Node.textOfPieces_piecesAll]
  | true =>
      simp only [expandWith, expandStrict, parseStrict, if_true]
      cases hnodes : nodesOfTokensStrict (tokenize template) with
      | error fault => rfl
      | ok nodes =>
          -- where the strict reading succeeds, both readings give the same tree
          have hparse : parse template = nodes :=
            nodesOfTokens_of_spells (spells_of_nodesOfTokensStrict hnodes)
          rw [hparse] at hpieces
          change Node.expandAllStrict [bindings] nodes = Node.expandAllStrict [other] nodes
          rw [Node.expandAllStrict_eq, hpieces, Node.expandAllStrict_eq]

/-! ## Names in nodes -/

theorem namesAll_append (first second : List Node) :
    Node.namesAll (first ++ second) = Node.namesAll first ++ Node.namesAll second := by
  induction first with
  | nil => rfl
  | cons node first ih => simp only [List.cons_append, Node.namesAll, ih, List.append_assoc]

theorem mem_namesAll_reverse {name : String} {nodes : List Node} :
    name ∈ Node.namesAll nodes.reverse ↔ name ∈ Node.namesAll nodes := by
  induction nodes with
  | nil => rfl
  | cons node nodes ih =>
      rw [List.reverse_cons, namesAll_append, List.mem_append, ih]
      simp [Node.namesAll, or_comm]

/-! ## Names on the way to a tree -/

/-- All names that stand in open sections and in the nodes so far are among the given ones. -/
structure NamesIn (names : List String) (frames : List Frame) (nodes : List Node) : Prop where
  nodes : Node.namesAll nodes ⊆ names
  frames : ∀ frame ∈ frames, frame.name ∈ names ∧ Node.namesAll frame.before ⊆ names

namespace NamesIn

variable {names : List String} {frame : Frame} {frames : List Frame} {nodes : List Node}

/-- A node with known names is added. -/
theorem push {node : Node} (h : NamesIn names frames nodes) (hnode : node.names ⊆ names) :
    NamesIn names frames (node :: nodes) := by
  refine ⟨?_, h.frames⟩
  rw [Node.namesAll]
  exact List.append_subset.mpr ⟨hnode, h.nodes⟩

/-- A section with a known name is opened. -/
theorem opening {name text consumed : String} (h : NamesIn names frames nodes)
    (hname : name ∈ names) :
    NamesIn names (⟨name, text, consumed, nodes⟩ :: frames) [] :=
  ⟨List.nil_subset _, List.forall_mem_cons.mpr ⟨⟨hname, h.nodes⟩, h.frames⟩⟩

/-- The innermost section is closed. -/
theorem close (closing : String) (h : NamesIn names (frame :: frames) nodes) :
    NamesIn names frames (frame.close closing nodes) := by
  obtain ⟨⟨hname, hbefore⟩, hframes⟩ := List.forall_mem_cons.mp h.frames
  refine ⟨?_, hframes⟩
  have hnodes : Node.namesAll nodes.reverse ⊆ names :=
    fun name hmem => h.nodes (mem_namesAll_reverse.mp hmem)
  rw [Frame.close, Node.namesAll, Node.names]
  exact List.append_subset.mpr ⟨List.cons_subset.mpr ⟨hname, hnodes⟩, hbefore⟩

/-- The innermost section is taken as literal text. -/
theorem abandon (h : NamesIn names (frame :: frames) nodes) :
    NamesIn names frames (frame.abandon nodes) := by
  obtain ⟨⟨-, hbefore⟩, hframes⟩ := List.forall_mem_cons.mp h.frames
  refine ⟨?_, hframes⟩
  rw [Frame.abandon, namesAll_append, Node.namesAll, Node.names, List.nil_append]
  exact List.append_subset.mpr ⟨h.nodes, hbefore⟩

/-- A closing marker brings in no name but those that are there. -/
theorem closeInnermost? {name closing : String} {outer : List Frame} {result : List Node}
    (h : NamesIn names frames nodes)
    (hclose : Template.closeInnermost? name closing nodes frames = some (outer, result)) :
    NamesIn names outer result := by
  induction frames generalizing nodes with
  | nil => simp [Template.closeInnermost?] at hclose
  | cons frame frames ih =>
      rw [Template.closeInnermost?] at hclose
      split at hclose
      · obtain ⟨rfl, rfl⟩ := Prod.mk.inj (Option.some.inj hclose)
        exact h.close closing
      · exact ih h.abandon hclose

theorem namesAll_abandonAll (h : NamesIn names frames nodes) :
    Node.namesAll (abandonAll nodes frames) ⊆ names := by
  induction frames generalizing nodes with
  | nil => exact fun name hmem => h.nodes (mem_namesAll_reverse.mp hmem)
  | cons frame frames ih => exact ih h.abandon

end NamesIn

/-- The name of a marker; literal text has none. -/
def Token.name? : Token → Option String
  | .literal _ => none
  | .marker _ name _ _ => some name

/-- The names in a tree are known, or stand in a marker. -/
theorem namesIn_build {names : List String} {tokens : List Token} {frames : List Frame}
    {nodes : List Node} (h : NamesIn names frames nodes)
    (htokens : tokens.filterMap Token.name? ⊆ names) :
    Node.namesAll (build frames nodes tokens) ⊆ names := by
  induction tokens generalizing frames nodes with
  | nil => exact h.namesAll_abandonAll
  | cons token tokens ih =>
      cases token with
      | literal text => exact ih (h.push (List.nil_subset _)) htokens
      | marker kind name text consumed =>
          obtain ⟨hname, hrest⟩ := List.cons_subset.mp htokens
          cases kind with
          | «variable» => exact ih (h.push (List.cons_subset.mpr ⟨hname, List.nil_subset _⟩)) hrest
          | opening => exact ih (h.opening hname) hrest
          | closing =>
              rw [build]
              split
              · rename_i hclose
                exact ih (h.closeInnermost? hclose) hrest
              · exact ih (h.push (List.nil_subset _)) hrest

/-- Every name in the tree of a template stands in a marker. -/
theorem namesAll_parse_subset (template : String) :
    Node.namesAll (parse template) ⊆ (tokenize template).filterMap Token.name? :=
  namesIn_build ⟨List.nil_subset _, List.forall_mem_nil _⟩ (List.Subset.refl _)

/-! ## What a template takes from its bindings -/

/-- A template mentions the names of its markers, other than the dot. -/
theorem mem_mentionedNames_iff {template name : String} :
    name ∈ mentionedNames template ↔
      name ∈ (tokenize template).filterMap Token.name? ∧ name ≠ "." := by
  unfold mentionedNames Text.sortDistinct Text.sort
  rw [List.mem_mergeSort, List.mem_eraseDups, List.mem_filterMap, List.mem_filterMap]
  constructor
  · rintro ⟨token, htoken, hname⟩
    cases token with
    | literal text => simp at hname
    | marker kind other text consumed =>
        obtain ⟨hdot, rfl⟩ := by simpa using hname
        exact ⟨⟨_, htoken, rfl⟩, hdot⟩
  · rintro ⟨⟨token, htoken, hname⟩, hdot⟩
    cases token with
    | literal text => simp [Token.name?] at hname
    | marker kind other text consumed =>
        obtain rfl := Option.some.inj hname
        exact ⟨_, htoken, by simp [hdot]⟩

/-- Bindings that agree on the names that a template mentions, and on the dot, give the same text,
or are refused alike. -/
theorem expandWith_of_agree {template : String} {bindings other : Entries}
    (h : ∀ name, name ∈ mentionedNames template ∨ name = "." →
      Entries.get? bindings name = Entries.get? other name) (strict : Bool) :
    expandWith strict template bindings = expandWith strict template other := by
  refine expandWith_congr (fun name hname => h name ?_) strict
  by_cases hdot : name = "."
  · exact .inr hdot
  · exact .inl (mem_mentionedNames_iff.mpr ⟨namesAll_parse_subset template hname, hdot⟩)

/-- A name that stands nowhere in the template has no influence, and neither has the order of the
bindings.  The dot is unbound in the first item, which the strict expansion refuses both times. -/
theorem expandWith_of_agree_items :
    let template := Catalogue.opens "items" ++ Catalogue.var "." ++ Catalogue.var "x" ++
      Catalogue.closes "items"
    let items := Value.list [.map [(.text "x", .int 1)], .text "a"]
    let bindings : Entries := [(.text "items", items), (.text "x", .text "b"), (.text "y", .null)]
    let other : Entries := [(.text "x", .text "b"), (.text "items", items)]
    (∀ name, name ∈ mentionedNames template ∨ name = "." →
      Entries.get? bindings name = Entries.get? other name) ∧
    expandWith false template bindings = expandWith false template other ∧
    expandWith true template bindings = expandWith true template other ∧
    expandWith false template other = .ok (Catalogue.var "." ++ "1ab") ∧
    expandWith true template other = .error (.unresolved ".") := by
  intro template items bindings other
  have hnames : (tokenize template).filterMap Token.name? = ["items", ".", "x", "items"] := by
    decide +kernel
  have hagree : ∀ name, name ∈ mentionedNames template ∨ name = "." →
      Entries.get? bindings name = Entries.get? other name := by
    intro name hname
    rw [mem_mentionedNames_iff, hnames] at hname
    simp only [List.mem_cons, List.not_mem_nil, or_false] at hname
    rcases hname with ⟨rfl | rfl | rfl | rfl, -⟩ | rfl <;> rfl
  exact ⟨hagree, expandWith_of_agree hagree false, expandWith_of_agree hagree true,
    by decide +kernel, by decide +kernel⟩

end PackageScaffold.Template
