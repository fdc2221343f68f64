import PackageScaffold.Template.Node

/-!
# Well-nested markers

The strict reading of a token sequence accepts exactly the sequences whose section markers nest,
and both readings of such a sequence give the tree that it spells.

`WellNested` is the grammar of the accepted sequences, and `Spells` is the same grammar with the
tree beside the tokens.  The readers are loops over a stack of open sections, so neither can be
compared with the grammar at an empty stack only:

* what a stretch of tokens that spells a forest does to *any* stack is `buildStrict_append` and
  `build_append`: the forest is put on top of the nodes read so far, and the stack stays as it is;
* what an accepted rest of the tokens looks like for *any* stack is `Completes`: one stretch of
  well-nested tokens for each open section, each followed by the closing marker of that section.
-/

namespace PackageScaffold.Template

/-- Token sequences whose section markers nest: every closing marker has the name of the nearest
opening marker that is still open, and no opening marker is left open. -/
inductive WellNested : List Token → Prop
  | nil : WellNested []
  | literal {tokens : List Token} (text : String) (rest : WellNested tokens) :
      WellNested (.literal text :: tokens)
  | value {tokens : List Token} (name text consumed : String) (rest : WellNested tokens) :
      WellNested (.marker .variable name text consumed :: tokens)
  | block {inner tokens : List Token} (name opening opened closing closed : String)
      (body : WellNested inner) (rest : WellNested tokens) :
      WellNested (.marker .opening name opening opened ::
        (inner ++ .marker .closing name closing closed :: tokens))

/-- A token sequence spells a forest: a literal, a variable or an opening marker, the children and
a closing marker for each of its trees, in order.  What a marker takes of the template besides its
own text is left open, since no tree keeps it. -/
inductive Spells : List Token → List Node → Prop
  | nil : Spells [] []
  | literal {tokens : List Token} {nodes : List Node} (text : String)
      (rest : Spells tokens nodes) :
      Spells (.literal text :: tokens) (.literal text :: nodes)
  | value {tokens : List Token} {nodes : List Node} (name source consumed : String)
      (rest : Spells tokens nodes) :
      Spells (.marker .variable name source consumed :: tokens) (.variable name source :: nodes)
  | block {inner tokens : List Token} {children nodes : List Node}
      (name opening opened closing closed : String)
      (body : Spells inner children) (rest : Spells tokens nodes) :
      Spells (.marker .opening name opening opened ::
          (inner ++ .marker .closing name closing closed :: tokens))
        (.block name children opening closing :: nodes)

/-! ## The two grammars -/

theorem WellNested.append {first second : List Token} (hfirst : WellNested first)
    (hsecond : WellNested second) : WellNested (first ++ second) := by
  induction hfirst with
  | nil => exact hsecond
  | literal text _ ih => exact .literal text ih
  | value name text consumed _ ih => exact .value name text consumed ih
  | block name opening opened closing closed body _ _ ih =>
      simp only [List.cons_append, List.append_assoc]
      exact .block name opening opened closing closed body ih

theorem Spells.append {first second : List Token} {nodes more : List Node}
    (hfirst : Spells first nodes) (hsecond : Spells second more) :
    Spells (first ++ second) (nodes ++ more) := by
  induction hfirst with
  | nil => exact hsecond
  | literal text _ ih => exact .literal text ih
  | value name source consumed _ ih => exact .value name source consumed ih
  | block name opening opened closing closed body _ _ ih =>
      simp only [List.cons_append, List.append_assoc]
      exact .block name opening opened closing closed body ih

theorem WellNested.exists_spells {tokens : List Token} (h : WellNested tokens) :
    ∃ forest, Spells tokens forest := by
  induction h with
  | nil => exact ⟨_, .nil⟩
  | literal text _ ih =>
      obtain ⟨nodes, hnodes⟩ := ih
      exact ⟨_, .literal text hnodes⟩
  | value name text consumed _ ih =>
      obtain ⟨nodes, hnodes⟩ := ih
      exact ⟨_, .value name text consumed hnodes⟩
  | block name opening opened closing closed _ _ ihbody ihrest =>
      obtain ⟨children, hchildren⟩ := ihbody
      obtain ⟨nodes, hnodes⟩ := ihrest
      exact ⟨_, .block name opening opened closing closed hchildren hnodes⟩

theorem Spells.wellNested {tokens : List Token} {forest : List Node} (h : Spells tokens forest) :
    WellNested tokens := by
  induction h with
  | nil => exact .nil
  | literal text _ ih => exact .literal text ih
  | value name source consumed _ ih => exact .value name source consumed ih
  | block name opening opened closing closed _ _ ihbody ihrest =>
      exact .block name opening opened closing closed ihbody ihrest

mutual

/-- The tokens of a node spell it. -/
theorem Node.spells_tokens : ∀ node : Node, Spells node.tokens [node]
  | .literal text => .literal text .nil
  | .variable name source => .value name source source .nil
  | .block name children opening closing =>
      .block name opening opening closing closing (Node.spells_tokensAll children) .nil

/-- The tokens of a forest spell it. -/
theorem Node.spells_tokensAll : ∀ forest : List Node, Spells (Node.tokensAll forest) forest
  | [] => .nil
  | node :: nodes => (Node.spells_tokens node).append (Node.spells_tokensAll nodes)

end

/-! ## What spelled tokens do to the stack of open sections -/

theorem buildStrict_append {spelled : List Token} {forest : List Node}
    (h : Spells spelled forest) (frames : List Frame) (nodes : List Node) (rest : List Token) :
    buildStrict frames nodes (spelled ++ rest) =
      buildStrict frames (forest.reverse ++ nodes) rest := by
  induction h generalizing frames nodes rest with
  | nil => rfl
  | literal text _ ih =>
      simp only [List.cons_append, buildStrict, ih, List.reverse_cons, List.append_assoc,
        List.nil_append]
  | value name source consumed _ ih =>
      simp only [List.cons_append, buildStrict, ih, List.reverse_cons, List.append_assoc,
        List.nil_append]
  | block name opening opened closing closed _ _ ihbody ihrest =>
      simp only [List.cons_append, List.append_assoc, buildStrict, ihbody, ihrest, Frame.close,
        List.reverse_cons, List.append_nil, List.reverse_reverse, List.nil_append, beq_self_eq_true,
        if_true]

theorem build_append {spelled : List Token} {forest : List Node}
    (h : Spells spelled forest) (frames : List Frame) (nodes : List Node) (rest : List Token) :
    build frames nodes (spelled ++ rest) = build frames (forest.reverse ++ nodes) rest := by
  induction h generalizing frames nodes rest with
  | nil => rfl
  | literal text _ ih =>
      simp only [List.cons_append, build, ih, List.reverse_cons, List.append_assoc,
        List.nil_append]
  | value name source consumed _ ih =>
      simp only [List.cons_append, build, ih, List.reverse_cons, List.append_assoc,
        List.nil_append]
  | block name opening opened closing closed _ _ ihbody ihrest =>
      simp only [List.cons_append, List.append_assoc, build, ihbody, ihrest, closeInnermost?,
        Frame.close, List.reverse_cons, List.append_nil, List.reverse_reverse, List.nil_append,
        beq_self_eq_true, if_true]

theorem nodesOfTokensStrict_of_spells {tokens : List Token} {forest : List Node}
    (h : Spells tokens forest) : nodesOfTokensStrict tokens = .ok forest := by
  have hbuild := buildStrict_append h [] [] []
  simp only [List.append_nil] at hbuild
  simp only [nodesOfTokensStrict, hbuild, buildStrict, List.reverse_reverse]

theorem nodesOfTokens_of_spells {tokens : List Token} {forest : List Node}
    (h : Spells tokens forest) : nodesOfTokens tokens = forest := by
  have hbuild := build_append h [] [] []
  simp only [List.append_nil] at hbuild
  simp only [nodesOfTokens, hbuild, build, abandonAll, List.reverse_reverse]

/-! ## What an accepted sequence looks like -/

/-- Tokens that close the given open sections one after the other, innermost first, with well-nested
tokens before, between and after the closing markers. -/
def Completes : List Frame → List Token → Prop
  | [], tokens => WellNested tokens
  | frame :: frames, tokens => ∃ inner closing closed outer,
      tokens = inner ++ .marker .closing frame.name closing closed :: outer ∧
        WellNested inner ∧ Completes frames outer

/-- Well-nested tokens in front change nothing about what is closed. -/
theorem Completes.prepend {frames : List Frame} {front tokens : List Token}
    (hfront : WellNested front) (h : Completes frames tokens) :
    Completes frames (front ++ tokens) := by
  cases frames with
  | nil => exact hfront.append h
  | cons frame frames =>
      obtain ⟨inner, closing, closed, outer, rfl, hinner, houter⟩ := h
      exact ⟨front ++ inner, closing, closed, outer, by simp, hfront.append hinner, houter⟩

/-- Every rest of the tokens that the strict reading accepts closes the open sections. -/
theorem completes_of_buildStrict {tokens : List Token} {frames : List Frame}
    {nodes result : List Node} (h : buildStrict frames nodes tokens = .ok result) :
    Completes frames tokens := by
  -- the stack grows and shrinks along the tokens, so it is general in the induction
  induction tokens generalizing frames nodes with
  | nil =>
      cases frames with
      | nil => exact .nil
      | cons frame frames => simp [buildStrict] at h
  | cons token tokens ih =>
      cases token with
      | literal text =>
          exact Completes.prepend (.literal text .nil) (ih h)
      | marker kind name text consumed =>
          cases kind with
          | «variable» =>
              exact Completes.prepend (.value name text consumed .nil) (ih h)
          | opening =>
              obtain ⟨inner, closing, closed, outer, rfl, hinner, houter⟩ := ih h
              have hblock := WellNested.block name text consumed closing closed hinner .nil
              simpa using Completes.prepend hblock houter
          | closing =>
              cases frames with
              | nil => simp [buildStrict] at h
              | cons frame outer =>
                  simp only [buildStrict] at h
                  split at h
                  · rename_i hname
                    rw [← beq_iff_eq.mp hname]
                    exact ⟨[], text, consumed, tokens, rfl, .nil, ih h⟩
                  · split at h <;> simp at h

theorem wellNested_iff_nodesOfTokensStrict {tokens : List Token} :
    WellNested tokens ↔ ∃ nodes, nodesOfTokensStrict tokens = .ok nodes := by
  constructor
  · intro h
    obtain ⟨forest, hforest⟩ := h.exists_spells
    exact ⟨forest, nodesOfTokensStrict_of_spells hforest⟩
  · rintro ⟨nodes, h⟩
    have hcompletes : Completes [] tokens := completes_of_buildStrict h
    exact hcompletes

/-- What the strict reading gives is what the tokens spell. -/
theorem spells_of_nodesOfTokensStrict {tokens : List Token} {nodes : List Node}
    (h : nodesOfTokensStrict tokens = .ok nodes) : Spells tokens nodes := by
  obtain ⟨forest, hforest⟩ := (wellNested_iff_nodesOfTokensStrict.mpr ⟨nodes, h⟩).exists_spells
  rw [nodesOfTokensStrict_of_spells hforest] at h
  cases h
  exact hforest

/-! ## Why a sequence is refused -/

/-- What there is to complain about: a section that is open or is opened among the tokens, and is
not closed in time, or a closing marker among the tokens that no open section waits for. -/
def Complains (frames : List Frame) (tokens : List Token) (fault : Fault) : Prop :=
  (∃ name, fault = .unclosed name ∧ (name ∈ frames.map Frame.name ∨
      ∃ text consumed, Token.marker .opening name text consumed ∈ tokens)) ∨
    ∃ name text consumed, fault = .unopened text ∧
      Token.marker .closing name text consumed ∈ tokens

/-- A complaint about the rest of the tokens is one about all of them. -/
theorem Complains.cons {frames outer : List Frame} {token : Token} {tokens : List Token}
    {fault : Fault} (h : Complains outer tokens fault)
    (hnames : ∀ name ∈ outer.map Frame.name, name ∈ frames.map Frame.name ∨
      ∃ text consumed, Token.marker .opening name text consumed = token) :
    Complains frames (token :: tokens) fault := by
  rcases h with ⟨name, rfl, hname | ⟨text, consumed, hmem⟩⟩ | ⟨name, text, consumed, rfl, hmem⟩
  · refine .inl ⟨name, rfl, (hnames name hname).imp_right ?_⟩
    rintro ⟨text, consumed, rfl⟩
    exact ⟨text, consumed, List.mem_cons_self⟩
  · exact .inl ⟨name, rfl, .inr ⟨text, consumed, List.mem_cons_of_mem _ hmem⟩⟩
  · exact .inr ⟨name, text, consumed, rfl, List.mem_cons_of_mem _ hmem⟩

theorem complains_of_buildStrict {tokens : List Token} {frames : List Frame} {nodes : List Node}
    {fault : Fault} (h : buildStrict frames nodes tokens = .error fault) :
    Complains frames tokens fault := by
  induction tokens generalizing frames nodes with
  | nil =>
      cases frames with
      | nil => simp [buildStrict] at h
      | cons frame frames =>
          simp only [buildStrict, Except.error.injEq] at h
          exact .inl ⟨frame.name, h.symm, .inl (by simp)⟩
  | cons token tokens ih =>
      cases token with
      | literal text => exact (ih h).cons fun name hname => .inl hname
      | marker kind name text consumed =>
          cases kind with
          | «variable» => exact (ih h).cons fun name hname => .inl hname
          | opening =>
              refine (ih h).cons fun other hother => ?_
              rcases List.mem_cons.mp hother with rfl | hother
              · exact .inr ⟨text, consumed, rfl⟩
              · exact .inl hother
          | closing =>
              -- a closing marker closes the innermost frame, names another, or has none to close
              cases frames with
              | nil =>
                  simp only [buildStrict, Except.error.injEq] at h
                  exact .inr ⟨name, text, consumed, h.symm, List.mem_cons_self⟩
              | cons frame outer =>
                  simp only [buildStrict] at h
                  split at h
                  · exact (ih h).cons fun other hother => .inl (List.mem_cons_of_mem _ hother)
                  · split at h <;> simp only [Except.error.injEq] at h
                    · exact .inl ⟨frame.name, h.symm, .inl (by simp)⟩
                    · exact .inr ⟨name, text, consumed, h.symm, List.mem_cons_self⟩

/-! ## The two readings -/

/-- The strict reading accepts exactly the token sequences whose section markers nest, and refuses
every other one with a complaint about one of its section markers.  What it accepts reads the same
leniently.  Both readings give a forest back from the tokens that spell it, whatever names its
sections have. -/
theorem nodesOfTokensStrict_accepts_exactly_wellNested :
    (∀ tokens, (∃ nodes, nodesOfTokensStrict tokens = .ok nodes) ↔ WellNested tokens) ∧
    (∀ tokens, ¬ WellNested tokens → ∃ fault, nodesOfTokensStrict tokens = .error fault ∧
      ((∃ name text consumed, fault = .unclosed name ∧
          Token.marker .opening name text consumed ∈ tokens) ∨
        ∃ name text consumed, fault = .unopened text ∧
          Token.marker .closing name text consumed ∈ tokens)) ∧
    (∀ tokens nodes, nodesOfTokensStrict tokens = .ok nodes → nodesOfTokens tokens = nodes) ∧
    (∀ tokens forest, Spells tokens forest →
      nodesOfTokensStrict tokens = .ok forest ∧ nodesOfTokens tokens = forest) ∧
    ∀ forest, Spells (Node.tokensAll forest) forest := by
  refine ⟨fun tokens => wellNested_iff_nodesOfTokensStrict.symm, ?_, ?_, ?_,
    Node.spells_tokensAll⟩
  · intro tokens hnot
    cases hresult : nodesOfTokensStrict tokens with
    | ok nodes => exact absurd (wellNested_iff_nodesOfTokensStrict.mpr ⟨nodes, hresult⟩) hnot
    | error fault =>
        refine ⟨fault, rfl, ?_⟩
        rcases complains_of_buildStrict hresult with ⟨name, hfault, hname | hmem⟩ | hunopened
        · simp at hname
        · obtain ⟨text, consumed, hmem⟩ := hmem
          exact .inl ⟨name, text, consumed, hfault, hmem⟩
        · exact .inr hunopened
  · intro tokens nodes h
    exact nodesOfTokens_of_spells (spells_of_nodesOfTokensStrict h)
  · intro tokens forest h
    exact ⟨nodesOfTokensStrict_of_spells h, nodesOfTokens_of_spells h⟩

/-- Two sections of one name inside each other are read back, and two sections that cross are
refused. -/
theorem nodesOfTokensStrict_nested_and_crossing :
    let forest := [Node.block "a" [.variable "x" "x", .block "a" [.literal "y"] "<a" "a>"] "<a" "a>"]
    let crossing := [Token.marker .opening "a" "<a" "<a", .marker .opening "b" "<b" "<b",
      .marker .closing "a" "a>" "a>", .marker .closing "b" "b>" "b>"]
    (Spells (Node.tokensAll forest) forest ∧
      nodesOfTokensStrict (Node.tokensAll forest) = .ok forest ∧
      nodesOfTokens (Node.tokensAll forest) = forest) ∧
    ¬ WellNested crossing ∧ ∃ fault, nodesOfTokensStrict crossing = .error fault := by
  intro forest crossing
  obtain ⟨haccepts, hrefuses, hagrees, hspells, hflat⟩ :=
    nodesOfTokensStrict_accepts_exactly_wellNested
  have hstrict := (hspells _ _ (hflat forest)).1
  have hcrossing : ¬ WellNested crossing := by
    rw [← haccepts]
    simp [crossing, nodesOfTokensStrict, buildStrict]
  obtain ⟨fault, hfault, -⟩ := hrefuses _ hcrossing
  exact ⟨⟨hflat forest, hstrict, hagrees _ _ hstrict⟩, hcrossing, fault, hfault⟩

end PackageScaffold.Template
