import PackageScaffold.Proofs.Plan.Collision
import PackageScaffold.Proofs.Plan.Drawing

/-!
# Trees of paths

Paths are grown into a tree in the order of their texts.  As a slash stands behind the name of a
directory in the text of a path just as it does in its label, a step that comes up for the first
time is shown with a label that is greater than those of its siblings: so all siblings are in the
order of their labels, whichever characters their names have.

* `Text.sortDistinct_congr`: texts are sorted alike however they are listed;
* `lt_of_append_lt`: what the order of two texts says about the first names in which they differ;
* `Draws`, `AreClear`: paths as they are written, and paths that can be drawn together, which is
  decidable;
* `Ordered`, `Ordered.grow`: siblings in the order of their labels, and what keeps them in order;
* `IsPrefixTree`, `isPrefixTree_ofPaths`: the tree of a set of paths shows every front of one of them,
  once and in order.
-/

namespace PackageScaffold

open Path

/-! ## Sorted texts -/

namespace Text

/-- Sorted texts are in order, and none comes twice. -/
theorem pairwise_sortDistinct (texts : List String) : (sortDistinct texts).Pairwise (· < ·) := by
  have hle : (sortDistinct texts).Pairwise fun a b => decide (a ≤ b) = true := by
    refine List.pairwise_mergeSort (fun a b c hab hbc => ?_) (fun a b => ?_) _
    · rw [decide_eq_true_eq] at hab hbc ⊢
      exact String.le_trans hab hbc
    · simpa using String.le_total a b
  have hnodup : (sortDistinct texts).Nodup :=
    (List.mergeSort_perm _ _).nodup_iff.mpr (nodup_eraseDups _)
  refine (hle.and hnodup).imp fun {a b} hpair => ?_
  by_contra hnot
  exact hpair.2 (String.le_antisymm (of_decide_eq_true hpair.1) (String.not_lt.mp hnot))

theorem mem_sortDistinct {texts : List String} {text : String} :
    text ∈ sortDistinct texts ↔ text ∈ texts := by
  simp [sortDistinct, sort]

/-- Neither the order nor the repetition of texts matters once they are sorted. -/
theorem sortDistinct_congr {texts other : List String} (h : ∀ text, text ∈ other ↔ text ∈ texts) :
    sortDistinct other = sortDistinct texts := by
  have hnodup : ∀ texts, (sortDistinct texts).Nodup := by
    refine fun texts => (pairwise_sortDistinct texts).imp fun {a b} hlt => ?_
    rintro rfl
    exact String.lt_irrefl a hlt
  have hperm : (sortDistinct other).Perm (sortDistinct texts) := by
    refine (List.perm_ext_iff_of_nodup (hnodup other) (hnodup texts)).mpr fun text => ?_
    rw [mem_sortDistinct, mem_sortDistinct, h]
  refine hperm.eq_of_pairwise (fun a b _ _ hab hba => ?_) (pairwise_sortDistinct other)
    (pairwise_sortDistinct texts)
  exact absurd (String.lt_trans hab hba) (String.lt_irrefl a)

end Text

namespace PathTree

/-! ## The order of texts -/

theorem lt_of_append_left_lt {front first second : List Char}
    (h : front ++ first < front ++ second) :
    first < second := by
  induction front with
  | nil => exact h
  | cons c front ih =>
      rcases List.cons_lt_cons_iff.mp h with hlt | ⟨-, hrest⟩
      · exact absurd hlt (Char.lt_irrefl c)
      · exact ih hrest

/-- Two texts that begin with different names, with nothing or a slash behind them, are in the order
of these names with the slashes behind them. -/
theorem lt_of_append_lt {name other back further : List Char} (hname : '/' ∉ name)
    (hother : '/' ∉ other) (hne : name ≠ other) (hback : ∀ c ∈ back.head?, c = '/')
    (hfurther : ∀ c ∈ further.head?, c = '/') (h : name ++ back < other ++ further) :
    name ++ back.take 1 < other ++ further.take 1 := by
  induction name generalizing other with
  | nil =>
      -- one name is a front of the other: a slash, if there is one, meets a character of the other name
      cases other with
      | nil => exact absurd rfl hne
      | cons d other =>
          cases back with
          | nil => exact List.nil_lt_cons _ _
          | cons c back =>
              obtain rfl : c = '/' := hback c rfl
              have hd : '/' ≠ d := fun heq => hother (heq ▸ List.mem_cons_self)
              rcases List.cons_lt_cons_iff.mp h with hlt | ⟨heq, -⟩
              · exact List.cons_lt_cons_iff.mpr (.inl hlt)
              · exact absurd heq hd
  | cons c name ih =>
      cases other with
      | nil =>
          cases further with
          | nil => exact absurd h (List.not_lt_nil _)
          | cons d further =>
              obtain rfl : d = '/' := hfurther d rfl
              have hc : c ≠ '/' := fun heq => hname (heq ▸ List.mem_cons_self)
              rcases List.cons_lt_cons_iff.mp h with hlt | ⟨heq, -⟩
              · exact List.cons_lt_cons_iff.mpr (.inl hlt)
              · exact absurd heq hc
      | cons d other =>
          rcases List.cons_lt_cons_iff.mp h with hlt | ⟨rfl, hrest⟩
          · exact List.cons_lt_cons_iff.mpr (.inl hlt)
          · have hrestNe : name ≠ other := fun heq => hne (heq ▸ rfl)
            exact List.cons_lt_cons_iff.mpr
              (.inr ⟨rfl, ih (fun hmem => hname (List.mem_cons_of_mem _ hmem))
              (fun hmem => hother (List.mem_cons_of_mem _ hmem)) hrestNe hrest⟩)

/-! ## Written paths -/

/-- A path as it is given to be drawn: its steps with slashes between them, and one more behind them
if it is a directory. -/
structure Draws (path : String) (isDirectory : Bool) (steps : List String) : Prop where
  text : path = labelOf isDirectory (Text.join "/" steps)
  nonempty : steps ≠ []
  isStep : ∀ step ∈ steps, IsStep step

/-- Paths that can be drawn together: where a path that is no directory leads, no other
path passes. -/
structure AreClear (paths : List String) : Prop where
  drawn : ∀ path ∈ paths, ∃ isDirectory steps, Draws path isDirectory steps
  alone : ∀ path ∈ paths, ∀ other ∈ paths, ∀ steps isDirectory whole, Draws path false steps →
    Draws other isDirectory whole → steps <+: whole → other = path

theorem labelOf_eq_append_slash_iff {isDirectory : Bool} {step : String} :
    labelOf isDirectory step = step ++ "/" ↔ isDirectory = true := by
  have hne : step ≠ step ++ "/" := by
    intro heq
    simpa using congrArg String.length heq
  cases isDirectory <;> simp [labelOf, hne]

/-- Some steps are a front of a path. -/
def IsFront (paths : List String) (steps : List String) : Prop :=
  ∃ path ∈ paths, ∃ isDirectory whole, Draws path isDirectory whole ∧ steps <+: whole

namespace Draws

variable {path : String} {isDirectory : Bool} {steps : List String}
    (h : Draws path isDirectory steps)

include h

theorem stepsOf_eq : stepsOf path = steps := by
  have htext : (⟨.working, steps⟩ : Path).text = Text.join "/" steps := by
    simp [Path.text, Anchor.text, h.nonempty]
  have hjoin : withoutFinalSlashes (Text.join "/" steps) = Text.join "/" steps :=
    withoutFinalSlashes_eq_self (getLast?_join_ne h.nonempty h.isStep)
  have hwritten : withoutFinalSlashes path = Text.join "/" steps := by
    rw [h.text, labelOf]
    split
    · rw [withoutFinalSlashes_append_slash, hjoin]
    · exact hjoin
  rw [withoutFinalSlashes] at hwritten
  simp only [stepsOf, hwritten]
  rw [← htext, ofString_text h.isStep]
  rfl

theorem getLast?_eq : (path.toList.getLast? == some '/') = isDirectory := by
  have hlast := getLast?_join_ne h.nonempty h.isStep
  rw [h.text]
  cases isDirectory <;> simp [labelOf, hlast]

end Draws

instance (path : String) (isDirectory : Bool) (steps : List String) :
    Decidable (Draws path isDirectory steps) :=
  decidable_of_iff (path = labelOf isDirectory (Text.join "/" steps) ∧ steps ≠ [] ∧
      ∀ step ∈ steps, IsStep step)
    ⟨fun h => ⟨h.1, h.2.1, h.2.2⟩, fun h => ⟨h.text, h.nonempty, h.isStep⟩⟩

/-- Whether paths can be drawn together can be read off them. -/
theorem areClear_iff {paths : List String} :
    AreClear paths ↔
      (∀ path ∈ paths, Draws path (path.toList.getLast? == some '/') (stepsOf path)) ∧
      ∀ path ∈ paths, ∀ other ∈ paths, path.toList.getLast? ≠ some '/' →
        stepsOf path <+: stepsOf other → other = path := by
  have hread : ∀ {path isDirectory steps}, Draws path isDirectory steps →
      Draws path (path.toList.getLast? == some '/') (stepsOf path) := by
    intro path isDirectory steps hdraws
    rwa [hdraws.stepsOf_eq, hdraws.getLast?_eq]
  constructor
  · rintro ⟨hdrawn, halone⟩
    refine ⟨fun path hpath => ?_, fun path hpath other hother hlast hsteps => ?_⟩
    · obtain ⟨isDirectory, steps, hdraws⟩ := hdrawn path hpath
      exact hread hdraws
    · obtain ⟨isDirectory, steps, hdraws⟩ := hdrawn path hpath
      obtain ⟨isDirectory', whole, hdraws'⟩ := hdrawn other hother
      have hfile : Draws path false (stepsOf path) := by
        have hwritten := hread hdraws
        rwa [beq_false_of_ne hlast] at hwritten
      exact halone path hpath other hother _ _ _ hfile (hread hdraws') hsteps
  · rintro ⟨hdraws, halone⟩
    refine ⟨fun path hpath => ⟨_, _, hdraws path hpath⟩, ?_⟩
    intro path hpath other hother steps isDirectory whole hfile hwhole hsteps
    refine halone path hpath other hother ?_ ?_
    · intro hlast
      have hdirectory := hfile.getLast?_eq
      simp [hlast] at hdirectory
    · rwa [hfile.stepsOf_eq, hwhole.stepsOf_eq]

instance (paths : List String) : Decidable (AreClear paths) :=
  decidable_of_iff _ areClear_iff.symm

/-- What stands in front of a step in the text of a path: the steps before it, each with a slash. -/
def lead (front : List String) : String :=
  String.join (front.map (· ++ "/"))

theorem join_append_cons (front : List String) (step : String) (more : List String) :
    Text.join "/" (front ++ step :: more) = lead front ++ Text.join "/" (step :: more) := by
  induction front with
  | nil => simp [lead]
  | cons first front ih =>
      have hlead : lead (first :: front) = first ++ "/" ++ lead front := by simp [lead]
      rw [List.cons_append, hlead, String.append_assoc, ← ih, Text.join, Text.join,
        String.intercalate_cons_of_ne_nil (by simp)]

/-- In the text of a path, nothing or a slash stands behind a step, as in its label. -/
theorem Draws.exists_back {path : String} {isDirectory : Bool} {front more : List String}
    {step : String}
    (h : Draws path isDirectory (front ++ step :: more)) :
    ∃ back : List Char, path.toList = (lead front).toList ++ (step.toList ++ back) ∧
      (∀ c ∈ back.head?, c = '/') ∧
      (labelOf (isDirectory || !more.isEmpty) step).toList = step.toList ++ back.take 1 := by
  rw [h.text, join_append_cons]
  cases more with
  | nil =>
      refine ⟨if isDirectory then ['/'] else [], ?_, ?_, ?_⟩
      · cases isDirectory <;> simp [labelOf, Text.join]
      · cases isDirectory <;> simp
      · cases isDirectory <;> simp [labelOf]
  | cons next more =>
      refine ⟨'/' :: (labelOf isDirectory (Text.join "/" (next :: more))).toList, ?_, by simp, ?_⟩
      · have hjoin : Text.join "/" (step :: next :: more) =
            step ++ "/" ++ Text.join "/" (next :: more) := by
          rw [Text.join, Text.join, String.intercalate_cons_of_ne_nil (by simp)]
        rw [hjoin]
        cases isDirectory <;> simp [labelOf]
      · simp [labelOf]

/-- Two paths that part at some steps are in the order of these steps, as they are shown. -/
theorem label_lt_of_lt {path path' : String} {isDirectory isDirectory' : Bool}
    {front more more' : List String} {step step' : String}
    (h : Draws path isDirectory (front ++ step :: more))
    (h' : Draws path' isDirectory' (front ++ step' :: more')) (hne : step ≠ step')
    (hlt : path < path') :
    labelOf (isDirectory || !more.isEmpty) step < labelOf (isDirectory' || !more'.isEmpty)
      step' := by
  obtain ⟨back, htext, hback, hlabel⟩ := h.exists_back
  obtain ⟨back', htext', hback', hlabel'⟩ := h'.exists_back
  have hslash : '/' ∉ step.toList := (h.isStep step (by simp)).2.2
  have hslash' : '/' ∉ step'.toList := (h'.isStep step' (by simp)).2.2
  rw [String.lt_iff, htext, htext'] at hlt
  rw [String.lt_iff, hlabel, hlabel']
  exact lt_of_append_lt hslash hslash' (fun heq => hne (String.toList_inj.mp heq)) hback hback'
    (lt_of_append_left_lt hlt)

/-! ## Siblings in order -/

/-- Siblings are in the order of their labels, and so are those below each of them. -/
inductive Ordered : List PathTree → Prop
  | intro {siblings : List PathTree}
      (ascending : siblings.Pairwise fun first second => first.label < second.label)
      (below : ∀ sibling ∈ siblings, Ordered sibling.children) : Ordered siblings

theorem Ordered.nil : Ordered [] :=
  ⟨List.Pairwise.nil, nofun⟩

variable {directory : List String → Bool} {above : List String} {siblings : List PathTree}
  {isDirectory : Bool} {steps : List String}

/-- Some steps below siblings come last: wherever another way down leaves them, its step is shown
with a lesser label. -/
def ComesLast (directory : List String → Bool) (above : List String) (siblings : List PathTree)
    (steps : List String) : Prop :=
  ∀ front step more, steps = front ++ step :: more → ∀ other, other ≠ step →
    Leads siblings (front ++ [other]) →
      labelOf (directory (above ++ (front ++ [other]))) other <
        labelOf (directory (above ++ (front ++ [step]))) step

/-- What comes last below siblings comes last below the first of its steps. -/
theorem ComesLast.tail {step : String} {children : List PathTree}
    (h : ComesLast directory above siblings (step :: steps))
    (hchildren : ∀ way, way ≠ [] → Leads children way → Leads siblings (step :: way)) :
    ComesLast directory (above ++ [step]) children steps := by
  rintro front next more rfl other hne hleads
  have hless := h (step :: front) next more rfl other hne (hchildren _ (by simp) hleads)
  simpa using hless

/-- A drawing stays in order when a path that comes last is grown into it. -/
theorem Ordered.grow (h : Ordered siblings) (hdrawn : Drawn directory above siblings)
    (hagrees : Agrees directory isDirectory above steps)
    (hlast : ComesLast directory above siblings steps) :
    Ordered (PathTree.grow isDirectory siblings steps) := by
  induction steps generalizing above siblings with
  | nil => exact h
  | cons step steps ih =>
      obtain ⟨ascending, below⟩ := h
      obtain ⟨distinct, isStep, label, drawn⟩ := hdrawn
      by_cases hmem : step ∈ siblings.map PathTree.step
      · -- the labels stay as they are, and the path goes on below one of the siblings
        rw [grow_of_mem hmem]
        refine ⟨?_, ?_⟩
        · rw [List.pairwise_map]
          simpa using ascending
        · rw [List.forall_mem_map]
          intro sibling hsibling
          rw [children_followed]
          split
          · rename_i hstep
            subst hstep
            exact ih (below sibling hsibling) (drawn sibling hsibling) hagrees.tail
              (hlast.tail fun way _ hleads => ⟨sibling, hsibling, rfl, hleads⟩)
          · exact below sibling hsibling
      · -- a new sibling comes behind all others
        rw [grow_of_not_mem hmem]
        refine ⟨?_, ?_⟩
        · rw [List.pairwise_append]
          refine ⟨ascending, List.pairwise_singleton _ _, fun sibling hsibling new hnew => ?_⟩
          obtain rfl := List.mem_singleton.mp hnew
          have hne : sibling.step ≠ step := fun heq => hmem (heq ▸ List.mem_map_of_mem hsibling)
          rw [label sibling hsibling, hagrees.label_sprout]
          exact hlast [] step steps rfl sibling.step hne ⟨sibling, hsibling, rfl, trivial⟩
        · rw [List.forall_mem_append]
          refine ⟨below, ?_⟩
          rw [List.forall_mem_singleton, children_sprout]
          refine ih .nil (.nil directory _) hagrees.tail (hlast.tail fun way hway hleads => ?_)
          exact absurd (leads_nil_iff.mp hleads) hway

/-! ## Sets of paths -/

/-- Whether no path is written as some steps without a slash at the end. -/
def isFree (paths : List String) (steps : List String) : Bool :=
  !paths.contains (Text.join "/" steps)

section AreClear

variable {paths : List String} (h : AreClear paths)

include h

/-- Where another path passes, or one that is a directory ends, no path is written
without a slash. -/
theorem isFree_of_prefix {path : String} (hpath : path ∈ paths)
    (hdraws : Draws path isDirectory steps) {made : List String} (hne : made ≠ [])
    (hmade : made <+: steps) (hpassed : made ≠ steps ∨ isDirectory = true) :
    isFree paths made = true := by
  rw [isFree, Bool.not_eq_true', List.contains_eq_mem, decide_eq_false_iff_not]
  intro hfile
  have hfileDraws : Draws (Text.join "/" made) false made :=
    ⟨rfl, hne, fun step hstep => hdraws.isStep step (hmade.mem hstep)⟩
  obtain rfl := h.alone _ hfile path hpath made isDirectory steps hfileDraws hdraws hmade
  rcases hpassed with hother | hdirectory
  · exact hother (hfileDraws.stepsOf_eq.symm.trans hdraws.stepsOf_eq)
  · have hlast := hdraws.getLast?_eq
    rw [hfileDraws.getLast?_eq, hdirectory] at hlast
    exact Bool.false_ne_true hlast

/-- What is shown is a directory if it is written as one or if something is below it. -/
theorem isFree_iff {made : List String} (hne : made ≠ []) (hshown : IsFront paths made) :
    isFree paths made = true ↔
      Text.join "/" made ++ "/" ∈ paths ∨ ∃ next, IsFront paths (made ++ [next]) := by
  obtain ⟨path, hpath, isDirectory, whole, hdraws, hmade⟩ := hshown
  have hsteps : ∀ step ∈ made, IsStep step := fun step hstep => hdraws.isStep step (hmade.mem hstep)
  constructor
  · intro hfree
    obtain ⟨more, rfl⟩ := hmade
    cases more with
    | cons next more => exact .inr ⟨next, path, hpath, isDirectory, _, hdraws, ⟨more, by simp⟩⟩
    | nil =>
        have htext := hdraws.text
        rw [List.append_nil, labelOf] at htext
        split at htext
        · exact .inl (htext ▸ hpath)
        · simp [isFree, ← htext, hpath] at hfree
  · rintro (hwritten | ⟨next, other, hother, isDirectory', whole', hdraws', hfront⟩)
    · exact isFree_of_prefix h hwritten ⟨rfl, hne, hsteps⟩ hne (List.prefix_refl _) (.inr rfl)
    · refine isFree_of_prefix h hother hdraws' hne ((List.prefix_append _ _).trans hfront) (.inl ?_)
      rintro rfl
      have hlength := hfront.length_le
      rw [List.length_append, List.length_singleton] at hlength
      omega

theorem agrees_of_areClear : ∀ path ∈ paths,
    Agrees (isFree paths) (path.toList.getLast? == some '/') [] (stepsOf path) := by
  intro path hpath
  obtain ⟨isDirectory, steps, hdraws⟩ := h.drawn path hpath
  rw [hdraws.stepsOf_eq, hdraws.getLast?_eq]
  refine ⟨hdraws.isStep, fun made hne hmade hother => ?_, fun _ => ?_⟩
  · exact isFree_of_prefix h hpath hdraws hne hmade (.inl hother)
  · cases isDirectory with
    | true => exact isFree_of_prefix h hpath hdraws hdraws.nonempty (List.prefix_refl _) (.inr rfl)
    | false =>
        have hwritten : Text.join "/" steps ∈ paths := by
          have htext := hdraws.text
          rw [labelOf, if_neg Bool.false_ne_true] at htext
          rwa [← htext]
        simpa [isFree] using hwritten

/-- A path comes last below what lesser paths have been grown into. -/
theorem comesLast_of_lt {earlier : List String} (hearlier : earlier ⊆ paths) {path : String}
    (hpath : path ∈ paths) (hlt : ∀ other ∈ earlier, other < path) :
    ComesLast (isFree paths) [] (earlier.foldl insert []) (stepsOf path) := by
  have hshown : ∀ path ∈ paths, ∀ front step more, stepsOf path = front ++ step :: more →
      ∃ isDirectory, Draws path isDirectory (front ++ step :: more) ∧
        isFree paths (front ++ [step]) = (isDirectory || !more.isEmpty) := by
    intro path hpath front step more hsteps
    obtain ⟨isDirectory, steps, hdraws⟩ := h.drawn path hpath
    obtain rfl := hdraws.stepsOf_eq.symm.trans hsteps
    refine ⟨isDirectory, hdraws, ?_⟩
    have hagrees := agrees_of_areClear h path hpath
    rw [hsteps, hdraws.getLast?_eq] at hagrees
    cases more with
    | nil => simpa using hagrees.itself (by simp)
    | cons next more =>
        simpa using hagrees.passed (front ++ [step]) (by simp) ⟨next :: more, by simp⟩ (by simp)
  intro front step more hsteps other hne hleads
  obtain ⟨isDirectory, hdraws, hfree⟩ := hshown path hpath front step more hsteps
  rcases (leads_foldl_insert earlier [] _).mp hleads with hnone |
    ⟨lesser, hlesser, further, hfurther⟩
  · exact absurd (leads_nil_iff.mp hnone) (by simp)
  · obtain ⟨isDirectory', hdraws', hfree'⟩ :=
        hshown lesser (hearlier hlesser) front other further (by
      rw [← hfurther, List.append_assoc, List.singleton_append])
    rw [List.nil_append, List.nil_append, hfree, hfree']
    exact label_lt_of_lt hdraws' hdraws hne (hlt lesser hlesser)

/-- Paths that are grown one after the other, in the order of their texts, keep a
drawing in order. -/
theorem ordered_foldl_insert {earlier later : List String} (hsubset : earlier ++ later ⊆ paths)
    (hascending : (earlier ++ later).Pairwise (· < ·))
    (hordered : Ordered (earlier.foldl insert [])) :
    Ordered ((earlier ++ later).foldl insert []) := by
  -- on the paths that are still to come; each of them comes last below what has been grown so far
  induction later generalizing earlier with
  | nil => rwa [List.append_nil]
  | cons path later ih =>
      have hearlier : earlier ⊆ paths := fun _ hmem => hsubset (List.mem_append_left _ hmem)
      have hpath : path ∈ paths := hsubset (by simp)
      have hless : ∀ other ∈ earlier, other < path := fun other hother =>
        (List.pairwise_append.mp hascending).2.2 other hother path List.mem_cons_self
      have hdrawn : Drawn (isFree paths) [] (earlier.foldl insert []) :=
        Drawn.foldl_insert (fun other hother => agrees_of_areClear h other (hearlier hother))
          (.nil _ [])
      have hsplit : earlier ++ path :: later = (earlier ++ [path]) ++ later := by simp
      rw [hsplit] at hsubset hascending ⊢
      refine ih hsubset hascending ?_
      rw [List.foldl_append, List.foldl_cons, List.foldl_nil, insert]
      exact hordered.grow hdrawn (agrees_of_areClear h path hpath)
        (comesLast_of_lt h hearlier hpath hless)

end AreClear

/-- A tree shows a set of paths: each front of one of them once, with its last step as its label; a
slash stands behind it if it is written so or if something is below it; and siblings are in
order. -/
structure IsPrefixTree (tree : PathTree) (paths : List String) : Prop where
  mem_iff : ∀ steps, steps ∈ tree.nodes.map Prod.fst ↔ steps ≠ [] ∧ IsFront paths steps
  distinct : (tree.nodes.map Prod.fst).Nodup
  label : ∀ node ∈ tree.nodes, ∃ front step, node.1 = front ++ [step] ∧
    (node.2 = step ∨ node.2 = step ++ "/") ∧
    (node.2 = step ++ "/" ↔ Text.join "/" node.1 ++ "/" ∈ paths ∨
      ∃ next, node.1 ++ [next] ∈ tree.nodes.map Prod.fst)
  ordered : Ordered tree.children

/-- The tree of paths that can be drawn together shows them, however they are listed. -/
theorem isPrefixTree_ofPaths {paths : List String} (h : AreClear paths) (label : String) :
    IsPrefixTree (ofPaths label paths) paths ∧
      ∀ other, (∀ path, path ∈ other ↔ path ∈ paths) → ofPaths label other = ofPaths label paths := by
  have hagrees := agrees_of_areClear h
  have hmem : ∀ steps, steps ∈ (ofPaths label paths).nodes.map Prod.fst ↔
      steps ≠ [] ∧ IsFront paths steps := by
    intro steps
    rw [mem_nodes_ofPaths_iff hagrees]
    refine and_congr_right fun _ => exists_congr fun path => and_congr_right fun hpath => ?_
    constructor
    · intro hfront
      obtain ⟨isDirectory, whole, hdraws⟩ := h.drawn path hpath
      exact ⟨isDirectory, whole, hdraws, hdraws.stepsOf_eq ▸ hfront⟩
    · rintro ⟨isDirectory, whole, hdraws, hfront⟩
      rwa [hdraws.stepsOf_eq]
  refine ⟨⟨hmem, nodup_nodes_ofPaths hagrees label, fun node hnode => ?_, ?_⟩,
    fun other hother => ?_⟩
  · obtain ⟨front, step, -, hnodeSteps, hlabel⟩ :=
      (drawn_ofPaths hagrees label).exists_label_eq node hnode
    refine ⟨front, step, hnodeSteps, ?_, ?_⟩
    · rw [hlabel, labelOf]
      split <;> simp
    · obtain ⟨hne, hshown⟩ := (hmem node.1).mp (List.mem_map_of_mem hnode)
      rw [hlabel, labelOf_eq_append_slash_iff, isFree_iff h hne hshown]
      refine or_congr_right (exists_congr fun next => ?_)
      rw [hmem, and_iff_right (by simp)]
  · have hgrown : Ordered (([] ++ Text.sortDistinct paths).foldl insert []) :=
      ordered_foldl_insert h (fun _ hmem => Text.mem_sortDistinct.mp hmem)
        (Text.pairwise_sortDistinct paths) .nil
    exact hgrown
  · rw [ofPaths, ofPaths, Text.sortDistinct_congr hother]

/-- Paths whose names have characters on both sides of the slash, and their other listings. -/
theorem isPrefixTree_ofPaths_mixed :
    let paths := ["lib/src/", "lib-x", "lib0/a", "lib/b.dart"]
    AreClear paths ∧ IsPrefixTree (ofPaths "demo" paths) paths ∧
      ofPaths "demo" (paths.reverse ++ paths) = ofPaths "demo" paths := by
  intro paths
  have hclear : AreClear paths := by decide +kernel
  obtain ⟨htree, hother⟩ := isPrefixTree_ofPaths hclear "demo"
  exact ⟨hclear, htree, hother _ (by simp)⟩

end PathTree

end PackageScaffold
