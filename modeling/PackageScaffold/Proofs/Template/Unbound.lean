import PackageScaffold.Catalogue.Line
import PackageScaffold.Proofs.Template.Pairing
import PackageScaffold.Proofs.Template.Scopes

/-!
# Templates without bindings

Where nothing is bound, every section is left out, and everything else stays as it is written.  The
sections are found by a loop over a stack of open ones, which turns sections that are left open back
into text; what is left out is stated by places, with `pairs` and `withoutSpans`.

**Strategy.**  `Stands` says what the stack of open sections is in terms of places: its frames stand
at the free opening markers, and the nodes of each frame write those tokens from its marker to the
next one that are in no pair.  Every token keeps this up (`Stands.step`), so at the end of the
template the nodes write all tokens that are in no pair (`toList_expandAll_build`).
-/

namespace PackageScaffold.Template

/-! ## The nodes of a template without bindings -/

/-- The text of nodes in reverse order where nothing is bound. -/
def bareText (nodes : List Node) : List Char :=
  (Node.expandAll [[]] nodes.reverse).toList

theorem bareText_append (first second : List Node) :
    bareText (first ++ second) = bareText second ++ bareText first := by
  rw [bareText, List.reverse_append, expandAll_append, String.toList_append]
  rfl

theorem bareText_cons (node : Node) (nodes : List Node) :
    bareText (node :: nodes) = bareText nodes ++ (node.expand [[]]).toList := by
  have hone := bareText_append [node] nodes
  simpa [bareText, Node.expandAll] using hone

theorem bareText_literal (text : String) (nodes : List Node) :
    bareText (.literal text :: nodes) = bareText nodes ++ text.toList := by
  rw [bareText_cons, Node.expand]

theorem bareText_block (name : String) (children : List Node) (opening closing : String)
    (nodes : List Node) :
    bareText (.block name children opening closing :: nodes) = bareText nodes := by
  rw [bareText_cons]
  simp [Node.expand, Scopes.get?, Entries.get?, bodyScopes]

theorem literalText_eq (text : String) {consumed : String} (h : consumed ≠ "") :
    literalText text consumed = consumed := by
  simp [literalText, h]

theorem Frame.abandon_eq {frame : Frame} (h : frame.consumed ≠ "") (nodes : List Node) :
    frame.abandon nodes = (nodes ++ [.literal frame.consumed]) ++ frame.before := by
  simp [Frame.abandon, literalText_eq frame.text h]

/-- Sections that are left open are written behind what is in front of them. -/
theorem abandonAll_append (inner outer : List Node) (frames : List Frame) :
    abandonAll (inner ++ outer) frames = abandonAll outer frames ++ inner.reverse := by
  induction frames generalizing inner outer with
  | nil => simp [abandonAll]
  | cons frame frames ih =>
      rw [abandonAll, abandonAll, Frame.abandon, List.append_assoc, ih, Frame.abandon]

/-! ## The stack of open sections -/

/-- The tokens from place `lo` to place `n` hold no free opening marker, and the nodes, which are in
reverse order, write those of them that are in no pair. -/
structure Segment (tokens : List Token) (pairs : List (Nat × Nat)) (lo n : Nat)
    (nodes : List Node) : Prop where
  text : bareText nodes = kept tokens pairs lo n
  taken : ∀ place, lo ≤ place → place < n → ∀ name, opensAt tokens name place = true →
    inside pairs place = true

/-- The frames stand at the free opening markers among the first `n` tokens, innermost first, and
the nodes of every frame are those from its surroundings' opening marker on. -/
inductive Stands (tokens : List Token) (pairs : List (Nat × Nat)) :
    Nat → List Frame → List Node → Prop
  | outside {n : Nat} {nodes : List Node} (segment : Segment tokens pairs 0 n nodes) :
      Stands tokens pairs n [] nodes
  | opened {n place : Nat} {frame : Frame} {frames : List Frame} {nodes : List Node}
      (outer : Stands tokens pairs place frames frame.before)
      (opens : tokens[place]? = some (.marker .opening frame.name frame.text frame.consumed))
      (free : inside pairs place = false) (lt : place < n)
      (segment : Segment tokens pairs (place + 1) n nodes) :
      Stands tokens pairs n (frame :: frames) nodes

section Stack

variable {tokens : List Token} {pairs pairs' : List (Nat × Nat)} {lo n m : Nat}
  {frames : List Frame} {nodes nodes' : List Node} {node : Node}

theorem Segment.push (h : Segment tokens pairs lo n nodes) (hlo : lo ≤ n)
    (hfree : inside pairs n = false) (hopens : ∀ name, opensAt tokens name n = false)
    (htext : (node.expand [[]]).toList = sourceAt tokens n) :
    Segment tokens pairs lo (n + 1) (node :: nodes) where
  text := by rw [bareText_cons, h.text, kept, if_pos ⟨hlo, hfree⟩, htext]
  taken place hfrom hto name hname := by
    rcases Nat.lt_succ_iff_lt_or_eq.mp hto with hless | rfl
    · exact h.taken place hfrom hless name hname
    · simp [hopens name] at hname

theorem Segment.skip (h : Segment tokens pairs lo n nodes) (hle : n ≤ m)
    (hinside : ∀ place, n ≤ place → place < m → inside pairs place = true)
    (htext : bareText nodes' = bareText nodes) : Segment tokens pairs lo m nodes' where
  text := by rw [htext, h.text, kept_of_inside hle hinside]
  taken place hfrom hto name hname := by
    by_cases hless : place < n
    · exact h.taken place hfrom hless name hname
    · exact hinside place (by omega) hto

theorem Segment.congr (h : Segment tokens pairs lo n nodes)
    (hpairs : ∀ place < n, inside pairs' place = inside pairs place) :
    Segment tokens pairs' lo n nodes where
  text := by rw [h.text, kept_congr hpairs]
  taken place hfrom hto name hname := by
    rw [hpairs place hto]
    exact h.taken place hfrom hto name hname

/-- The stack stands as long as its innermost segment goes on. -/
theorem Stands.advance (h : Stands tokens pairs n frames nodes) (hle : n ≤ m)
    (hsegment : ∀ lo ≤ n, Segment tokens pairs lo n nodes → Segment tokens pairs lo m nodes') :
    Stands tokens pairs m frames nodes' := by
  cases h with
  | outside segment => exact .outside (hsegment 0 (Nat.zero_le n) segment)
  | opened outer opens free lt segment =>
      exact .opened outer opens free (Nat.lt_of_lt_of_le lt hle) (hsegment _ lt segment)

theorem Stands.congr (h : Stands tokens pairs n frames nodes)
    (hpairs : ∀ place < n, inside pairs' place = inside pairs place) :
    Stands tokens pairs' n frames nodes := by
  induction h with
  | outside segment => exact .outside (segment.congr hpairs)
  | opened outer opens free lt segment ih =>
      refine .opened (ih fun place hplace => hpairs place (by omega)) opens ?_ lt
        (segment.congr hpairs)
      rw [hpairs _ lt, free]

theorem Stands.opening {name text consumed : String} (h : Stands tokens pairs n frames nodes)
    (htoken : tokens[n]? = some (.marker .opening name text consumed))
    (hfree : inside pairs n = false) :
    Stands tokens pairs (n + 1) (⟨name, text, consumed, nodes⟩ :: frames) [] := by
  refine .opened h htoken hfree (Nat.lt_succ_self n) ⟨?_, fun place hfrom hto => by omega⟩
  rw [kept_self]
  rfl

/-- A closing marker finds the nearest free opening marker of its name, and the nodes in front of it
are those of the section's surroundings; or there is no such marker. -/
theorem Stands.closing (h : Stands tokens pairs n frames nodes) (name closing : String)
    (inner : List Node) :
    match closeInnermost? name closing inner frames with
    | some (outer, result) => ∃ place before, place < n ∧ opensAt tokens name place = true ∧
        inside pairs place = false ∧
        (∀ other, place < other → other < n → opensAt tokens name other = true →
          inside pairs other = true) ∧
        Stands tokens pairs place outer before ∧ bareText result = bareText before
    | none => ∀ place < n, opensAt tokens name place = true → inside pairs place = true := by
  induction h generalizing inner with
  | outside segment =>
      intro place hplace hopens
      exact segment.taken place (Nat.zero_le place) hplace name hopens
  | @opened n place frame frames nodes outer opens free lt segment ih =>
      simp only [closeInnermost?]
      by_cases hname : (frame.name == name) = true
      · rw [if_pos hname]
        refine ⟨place, frame.before, lt, ?_, free, ?_, outer, ?_⟩
        · simp [opensAt, opens, hname]
        · intro other hover hother hopens
          exact segment.taken other hover hother name hopens
        · rw [Frame.close, bareText_block]
      · rw [if_neg hname]
        have hother : opensAt tokens name place = false := by
          simpa [opensAt, opens] using hname
        have hfar : ∀ other, place ≤ other → other < n → opensAt tokens name other = true →
            inside pairs other = true := by
          intro other hover hless hopens
          rcases Nat.lt_or_eq_of_le hover with hlater | rfl
          · exact segment.taken other hlater hless name hopens
          · simp [hother] at hopens
        -- the frame is given up, and the search goes on in front of it
        specialize ih (frame.abandon inner)
        split <;> rename_i hfound <;> rw [hfound] at ih
        · obtain ⟨place', before, hlt, hopens, hfree, hbetween, hstands, htext⟩ := ih
          refine ⟨place', before, by omega, hopens, hfree, fun other hover hless hopens' => ?_,
            hstands, htext⟩
          by_cases hnear : other < place
          · exact hbetween other hover hnear hopens'
          · exact hfar other (by omega) hless hopens'
        · intro other hless hopens
          by_cases hnear : other < place
          · exact ih other hnear hopens
          · exact hfar other (by omega) hless hopens

/-- At the end of the template the nodes write every token that is in no pair. -/
theorem Stands.toList_expandAll_abandonAll (h : Stands tokens pairs n frames nodes)
    (hconsumed : ∀ frame ∈ frames, frame.consumed ≠ "") :
    (Node.expandAll [[]] (abandonAll nodes frames)).toList = kept tokens pairs 0 n := by
  induction h with
  | outside segment => exact segment.text
  | @opened n place frame frames nodes outer opens free lt segment ih =>
      obtain ⟨hframe, hframes⟩ := List.forall_mem_cons.mp hconsumed
      have hsource : sourceAt tokens place = frame.consumed.toList := by
        rw [sourceAt_of_getElem? opens, Token.source]
      calc (Node.expandAll [[]] (abandonAll nodes (frame :: frames))).toList
          = (Node.expandAll [[]] (abandonAll frame.before frames)).toList ++
              (frame.consumed.toList ++ bareText nodes) := by
            rw [abandonAll, Frame.abandon_eq hframe, abandonAll_append, expandAll_append,
              String.toList_append, ← bareText, bareText_append, bareText_literal]
            rfl
        _ = kept tokens pairs 0 place ++ (sourceAt tokens place ++
              kept tokens pairs (place + 1) n) := by
            rw [ih hframes, hsource, segment.text]
        _ = kept tokens pairs 0 n := (kept_split (Nat.zero_le place) free lt).symm

end Stack

/-! ## A whole template -/

/-- A marker stands for some text, and one that stands for a value for exactly its own. -/
def KeepsText : Token → Prop
  | .literal _ => True
  | .marker kind _ text consumed => consumed ≠ "" ∧ (kind = .variable → text = consumed)

theorem keepsText_of_mem_tokenize {template : String} {token : Token}
    (h : token ∈ tokenize template) : KeepsText token := by
  obtain ⟨before, after, hsplit⟩ := List.append_of_mem h
  have hplaced := isPlaced_tokenize hsplit
  cases token with
  | literal text => trivial
  | marker kind name text consumed =>
      obtain ⟨body, indent, tail, htext, hconsumed, htaken⟩ := hplaced
      refine ⟨?_, ?_⟩
      · rintro rfl
        simp [spell] at hconsumed
      · rintro rfl
        obtain ⟨rfl, rfl⟩ : indent = [] ∧ tail = [] := by
          simpa [standsAlone, MarkerKind.isSection] using htaken
        apply String.toList_inj.mp
        rw [htext, hconsumed]
        simp

theorem Stands.consumed_ne {tokens : List Token} {pairs : List (Nat × Nat)} {n : Nat}
    {frames : List Frame} {nodes : List Node} (h : Stands tokens pairs n frames nodes)
    (hkeeps : ∀ token ∈ tokens, KeepsText token) : ∀ frame ∈ frames, frame.consumed ≠ "" := by
  induction h with
  | outside segment => simp
  | opened outer opens free lt segment ih =>
      exact List.forall_mem_cons.mpr ⟨(hkeeps _ (List.mem_of_getElem? opens)).1, ih⟩

section Run

variable {tokens : List Token} {n : Nat} {frames : List Frame} {nodes : List Node}

/-- A token that is written keeps up the stack. -/
theorem Stands.write {token : Token} {node : Node}
    (h : Stands tokens (pairsUpTo tokens n) n frames nodes) (htoken : tokens[n]? = some token)
    (hpairs : pairsUpTo tokens (n + 1) = pairsUpTo tokens n)
    (hopening : ∀ name text consumed, token ≠ .marker .opening name text consumed)
    (htext : (node.expand [[]]).toList = token.source.toList) :
    Stands tokens (pairsUpTo tokens (n + 1)) (n + 1) frames (node :: nodes) := by
  rw [hpairs]
  have hopens : ∀ name, opensAt tokens name n = false := by
    intro name
    rw [opensAt, htoken]
    split
    · rename_i other text consumed heq
      exact absurd (Option.some_inj.mp heq) (hopening other text consumed)
    · rfl
  refine h.advance (Nat.le_succ n) fun lo hlo segment => ?_
  exact segment.push hlo inside_pairsUpTo_self hopens (by rw [htext, sourceAt_of_getElem? htoken])

/-- A closing marker that has found its partner keeps up the stack. -/
theorem Stands.close {place : Nat} {outer : List Frame} {before result : List Node}
    (h : Stands tokens (pairsUpTo tokens n) place outer before) (hplace : place < n)
    (hpairs : pairsUpTo tokens (n + 1) = (place, n) :: pairsUpTo tokens n)
    (htext : bareText result = bareText before) :
    Stands tokens (pairsUpTo tokens (n + 1)) (n + 1) outer result := by
  rw [hpairs]
  have hbelow : ∀ other < place,
      inside ((place, n) :: pairsUpTo tokens n) other = inside (pairsUpTo tokens n) other := by
    intro other hother
    rw [Bool.eq_iff_iff, inside_cons]
    have hnot : ¬ place ≤ other := by omega
    simp [hnot]
  refine (h.congr hbelow).advance (by omega) fun lo _ segment => ?_
  refine segment.skip (by omega) (fun other hfrom hto => ?_) htext
  exact (inside_cons _ _ _).mpr (.inl ⟨hfrom, Nat.le_of_lt_succ hto⟩)

/-- Every token keeps up the stack of open sections. -/
theorem Stands.step {token : Token} (h : Stands tokens (pairsUpTo tokens n) n frames nodes)
    (htoken : tokens[n]? = some token) (hkeeps : KeepsText token) (rest : List Token) :
    ∃ frames' nodes', build frames nodes (token :: rest) = build frames' nodes' rest ∧
      Stands tokens (pairsUpTo tokens (n + 1)) (n + 1) frames' nodes' := by
  cases token with
  | literal text =>
      have hpairs := pairsUpTo_succ_of_ne htoken (by simp)
      exact ⟨_, _, rfl, h.write htoken hpairs (by simp) rfl⟩
  | marker kind name text consumed =>
      cases kind with
      | «variable» =>
          have hpairs := pairsUpTo_succ_of_ne htoken (by simp)
          refine ⟨_, _, rfl, h.write htoken hpairs (by simp) ?_⟩
          rw [hkeeps.2 rfl]
          rfl
      | opening =>
          refine ⟨_, _, rfl, ?_⟩
          rw [pairsUpTo_succ_of_ne htoken (by simp)]
          exact h.opening htoken inside_pairsUpTo_self
      | closing =>
          have hclosing := h.closing name text nodes
          simp only [build]
          cases hfound : closeInnermost? name text nodes frames with
          | none =>
              rw [hfound] at hclosing
              have hpairs := pairsUpTo_succ_of_none htoken hclosing
              refine ⟨_, _, rfl, h.write htoken hpairs (by simp) ?_⟩
              rw [literalText_eq text hkeeps.1]
              rfl
          | some closed =>
              rw [hfound] at hclosing
              obtain ⟨place, before, hplace, hopens, hfree, hbetween, hstands, htext⟩ := hclosing
              have hpairs := pairsUpTo_succ_of_nearest htoken hplace hopens hfree hbetween
              exact ⟨_, _, rfl, hstands.close hplace hpairs htext⟩

/-- What the rest of a template makes of the stack of open sections. -/
theorem toList_expandAll_build (hkeeps : ∀ token ∈ tokens, KeepsText token) {rest : List Token}
    (hrest : tokens.drop n = rest) (hn : n ≤ tokens.length)
    (h : Stands tokens (pairsUpTo tokens n) n frames nodes) :
    (Node.expandAll [[]] (build frames nodes rest)).toList =
      kept tokens (pairs tokens) 0 tokens.length := by
  induction rest generalizing n frames nodes with
  | nil =>
      obtain rfl : n = tokens.length := Nat.le_antisymm hn (List.drop_eq_nil_iff.mp hrest)
      exact h.toList_expandAll_abandonAll (h.consumed_ne hkeeps)
  | cons token rest ih =>
      have htoken : tokens[n]? = some token := by
        rw [← List.head?_drop, hrest, List.head?_cons]
      have hrest' : tokens.drop (n + 1) = rest := by
        rw [← List.tail_drop, hrest, List.tail_cons]
      obtain ⟨frames', nodes', hbuild, hstands⟩ :=
        h.step htoken (hkeeps token (List.mem_of_getElem? htoken)) rest
      rw [hbuild]
      exact ih hrest' (List.getElem?_eq_some_iff.mp htoken).1 hstands

end Run

/-- Where nothing is bound, a template writes its tokens that are in no pair. -/
theorem toList_expand_nil (template : String) :
    (expand template []).toList =
      kept (tokenize template) (pairs (tokenize template)) 0 (tokenize template).length := by
  refine toList_expandAll_build (n := 0) (fun token => keepsText_of_mem_tokenize) rfl
    (Nat.zero_le _) (.outside ⟨rfl, fun place _ hplace => by omega⟩)

/-- Where nothing is bound, a template is written as it stands, without the spans of its outermost
sections.  Its tokens stand for all of it, in order, and a span goes from the beginning of what the
opening marker stands for to the end of what the closing marker stands for: the marker, or the whole
line of a section marker that stands alone on it.  A template without a pair of section markers is
written as it stands. -/
theorem expand_nil_eq_withoutSpans (template : String) :
    (expand template []).toList =
        withoutSpans (sectionSpans (tokenize template)) template.toList ∧
      (pairs (tokenize template) = [] → expand template [] = template) ∧
      sources (tokenize template) = template.toList ∧
      ∀ before token after, tokenize template = before ++ token :: after →
        IsPlaced (sources before) token (sources after) := by
  have hspans : (expand template []).toList =
      withoutSpans (sectionSpans (tokenize template)) template.toList := by
    rw [toList_expand_nil, ← withoutSpans_sources, List.take_length, sources_tokenize]
  refine ⟨hspans, fun hnone => ?_, sources_tokenize template, fun before token after => ?_⟩
  · apply String.toList_inj.mp
    have hspan : sectionSpans (tokenize template) = [] := by
      rw [sectionSpans, hnone]
      rfl
    rw [hspans, hspan, withoutSpans_nil]
  · exact isPlaced_tokenize

/-- The first of two sections that cross is left out, and the marker that is left of the other one
is text, as both markers are where they stand the wrong way round. -/
theorem expand_nil_crossing :
    let crossing := "u" ++ Catalogue.opens "a" ++ "v" ++ Catalogue.opens "b" ++ "w" ++
      Catalogue.closes "a" ++ "x" ++ Catalogue.closes "b"
    let turned := Catalogue.closes "a" ++ "u" ++ Catalogue.opens "a"
    (expand crossing []).toList = ("ux" ++ Catalogue.closes "b").toList ∧
      expand turned [] = turned := by
  intro crossing turned
  have hspans : withoutSpans (sectionSpans (tokenize crossing)) crossing.toList =
      ("ux" ++ Catalogue.closes "b").toList := by
    decide +kernel
  refine ⟨(expand_nil_eq_withoutSpans crossing).1.trans hspans, ?_⟩
  exact (expand_nil_eq_withoutSpans turned).2.1 (by decide +kernel)

end PackageScaffold.Template
