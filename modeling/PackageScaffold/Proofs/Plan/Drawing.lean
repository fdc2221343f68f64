import PackageScaffold.Plan.PathTree
import PackageScaffold.Proofs.Plan.Spelling

/-!
# Drawings of paths

A tree of paths shows each path that it was grown from and each path on the way to one, once, and
nothing else.  The slash at the end of a label tells a directory, as long as the paths agree on what
is one: no path that is written without a slash at its end is on the way to another.

* `PathTree.nodes`: what is shown, with the path that the labels on the way spell;
* `PathTree.Leads`, `leads_grow`: the ways down from siblings, and what growing adds to them;
* `PathTree.Drawn`, `Drawn.grow`: siblings that differ and whose labels tell the directories;
* `Drawn.mem_shownAll_iff`, `Drawn.nodup_shownAll`: what is shown are the ways down, each once;
* `mem_nodes_ofPaths_iff`, `nodup_nodes_ofPaths`: what is shown of paths that agree.
-/

namespace PackageScaffold

open Path

namespace PathTree

mutual

/-- What is shown of a node and below it: every label with the path of its node, which is read off
the labels from the top on, without the slashes at their ends. -/
def shown (above : List String) : PathTree → List (List String × String)
  | .node _ label children =>
    (above ++ [withoutFinalSlashes label], label) ::
      shownAll (above ++ [withoutFinalSlashes label]) children

/-- What is shown of siblings and below them. -/
def shownAll (above : List String) : List PathTree → List (List String × String)
  | [] => []
  | first :: rest => shown above first ++ shownAll above rest

end

/-- What is shown below the top of a tree. -/
def nodes (tree : PathTree) : List (List String × String) :=
  shownAll [] tree.children

theorem shownAll_cons (above : List String) (first : PathTree) (rest : List PathTree) :
    shownAll above (first :: rest) =
      (above ++ [withoutFinalSlashes first.label], first.label) ::
        (shownAll (above ++ [withoutFinalSlashes first.label]) first.children ++
          shownAll above rest) := by
  cases first
  rfl

/-- Siblings are none at all, or a first one with what is below it and the others. -/
theorem siblings_induction {motive : List PathTree → Prop} (nil : motive [])
    (cons : ∀ first rest, motive first.children → motive rest → motive (first :: rest)) :
    ∀ siblings, motive siblings
  | [] => nil
  | .node step label children :: rest =>
    cons (.node step label children) rest (siblings_induction nil cons children)
      (siblings_induction nil cons rest)

/-! ## Growing -/

variable {isDirectory : Bool} {siblings : List PathTree} {step : String} {steps : List String}

/-- A sibling with a path grown into it, if it is the first step of the path. -/
def followed (isDirectory : Bool) (step : String) (steps : List String) (sibling : PathTree) : PathTree :=
  if sibling.step == step then
    .node sibling.step sibling.label (grow isDirectory sibling.children steps)
  else sibling

@[simp] theorem step_followed (sibling : PathTree) :
    (followed isDirectory step steps sibling).step = sibling.step := by
  unfold followed
  split <;> rfl

@[simp] theorem label_followed (sibling : PathTree) :
    (followed isDirectory step steps sibling).label = sibling.label := by
  unfold followed
  split <;> rfl

theorem children_followed (sibling : PathTree) :
    (followed isDirectory step steps sibling).children =
      if sibling.step = step then grow isDirectory sibling.children steps
        else sibling.children := by
  unfold followed
  simp only [beq_iff_eq]
  split <;> rfl

/-- A new sibling for a path that starts with its step. -/
def sprout (isDirectory : Bool) (step : String) (steps : List String) : PathTree :=
  .node step (if steps.isEmpty && !isDirectory then step else step ++ "/") (grow isDirectory [] steps)

@[simp] theorem step_sprout : (sprout isDirectory step steps).step = step := rfl

@[simp] theorem children_sprout :
    (sprout isDirectory step steps).children = grow isDirectory [] steps := rfl

theorem grow_of_mem (h : step ∈ siblings.map PathTree.step) :
    grow isDirectory siblings (step :: steps) = siblings.map (followed isDirectory step steps) := by
  have hany : (siblings.any fun sibling => sibling.step == step) = true := by simpa using h
  rw [grow, if_pos hany]
  rfl

theorem grow_of_not_mem (h : step ∉ siblings.map PathTree.step) :
    grow isDirectory siblings (step :: steps) = siblings ++ [sprout isDirectory step steps] := by
  have hany : ¬ (siblings.any fun sibling => sibling.step == step) = true := by simpa using h
  rw [grow, if_neg hany]
  rfl

/-! ## Ways down -/

/-- Steps that lead down from siblings. -/
def Leads (siblings : List PathTree) : List String → Prop
  | [] => True
  | step :: steps => ∃ sibling ∈ siblings, sibling.step = step ∧ Leads sibling.children steps

theorem leads_nil_iff {path : List String} : Leads [] path ↔ path = [] := by
  cases path <;> simp [Leads]

/-- Growing a path into siblings adds the ways along it, and no others. -/
theorem leads_grow (isDirectory : Bool) (siblings : List PathTree) (steps path : List String) :
    Leads (grow isDirectory siblings steps) path ↔ Leads siblings path ∨ path <+: steps := by
  induction steps generalizing siblings path with
  | nil =>
      rw [grow, List.prefix_nil]
      refine ⟨.inl, fun h => h.elim id ?_⟩
      rintro rfl
      trivial
  | cons step steps ih =>
      cases path with
      | nil => simp [Leads]
      | cons first path =>
          rw [List.cons_prefix_cons]
          -- the path goes on below the sibling with its first step, or sprouts behind all of them
          by_cases hmem : step ∈ siblings.map PathTree.step
          · rw [grow_of_mem hmem]
            simp only [Leads, List.mem_map, exists_exists_and_eq_and, step_followed,
              children_followed]
            constructor
            · rintro ⟨sibling, hsibling, rfl, hleads⟩
              split at hleads
              · rename_i hstep
                exact ((ih _ _).mp hleads).imp (fun hold => ⟨sibling, hsibling, rfl, hold⟩)
                  (⟨hstep, ·⟩)
              · exact .inl ⟨sibling, hsibling, rfl, hleads⟩
            · rintro (⟨sibling, hsibling, rfl, hleads⟩ | ⟨rfl, hpath⟩)
              · refine ⟨sibling, hsibling, rfl, ?_⟩
                split
                · exact (ih _ _).mpr (.inl hleads)
                · exact hleads
              · obtain ⟨sibling, hsibling, hstep⟩ := List.mem_map.mp hmem
                refine ⟨sibling, hsibling, hstep, ?_⟩
                rw [if_pos hstep]
                exact (ih _ _).mpr (.inr hpath)
          · rw [grow_of_not_mem hmem]
            have hsprout : Leads (sprout isDirectory step steps).children path ↔
                path <+: steps := by
              rw [children_sprout, ih, leads_nil_iff]
              exact ⟨fun h => h.elim (fun hnil => hnil ▸ List.nil_prefix) id, .inr⟩
            simp only [Leads, List.mem_append, List.mem_singleton, or_and_right, exists_or,
              exists_eq_left, hsprout]
            exact or_congr_right (and_congr_left fun _ => eq_comm)

/-! ## Drawings -/

/-- A step as it is shown. -/
def labelOf (isDirectory : Bool) (step : String) : String :=
  if isDirectory then step ++ "/" else step

theorem withoutFinalSlashes_labelOf {step : String} (h : IsStep step) (isDirectory : Bool) :
    withoutFinalSlashes (labelOf isDirectory step) = step := by
  have hlast : step.toList.getLast? ≠ some '/' := fun hlast => h.2.2 (List.mem_of_getLast? hlast)
  unfold labelOf
  split
  · rw [withoutFinalSlashes_append_slash, withoutFinalSlashes_eq_self hlast]
  · exact withoutFinalSlashes_eq_self hlast

/-- The label of a step ends in a slash if it is that of a directory. -/
theorem getLast?_labelOf {step : String} (h : IsStep step) (isDirectory : Bool) :
    (labelOf isDirectory step).toList.getLast? = some '/' ↔ isDirectory = true := by
  have hlast : step.toList.getLast? ≠ some '/' := fun hlast => h.2.2 (List.mem_of_getLast? hlast)
  cases isDirectory <;> simp [labelOf, hlast]

/-- Siblings below a path are drawn: they differ, each is a step with the label that it should have,
and so is all that is below them. -/
inductive Drawn (directory : List String → Bool) : List String → List PathTree → Prop
  | intro {above : List String} {siblings : List PathTree}
      (distinct : (siblings.map PathTree.step).Nodup)
      (isStep : ∀ sibling ∈ siblings, IsStep sibling.step)
      (label : ∀ sibling ∈ siblings,
        sibling.label = labelOf (directory (above ++ [sibling.step])) sibling.step)
      (below : ∀ sibling ∈ siblings, Drawn directory (above ++ [sibling.step]) sibling.children) :
      Drawn directory above siblings

variable {directory : List String → Bool} {above : List String}

theorem Drawn.nil (directory : List String → Bool) (above : List String) :
    Drawn directory above [] :=
  ⟨List.nodup_nil, nofun, nofun, nofun⟩

/-- A written path agrees on the directories: all that it passes are directories, and it is one
itself if it is written as one. -/
structure Agrees (directory : List String → Bool) (isDirectory : Bool) (above steps : List String) :
    Prop where
  isStep : ∀ step ∈ steps, IsStep step
  passed : ∀ made, made ≠ [] → made <+: steps → made ≠ steps → directory (above ++ made) = true
  itself : steps ≠ [] → directory (above ++ steps) = isDirectory

/-- What is below the first step of a path agrees as the path does. -/
theorem Agrees.tail (h : Agrees directory isDirectory above (step :: steps)) :
    Agrees directory isDirectory (above ++ [step]) steps where
  isStep other hother := h.isStep other (List.mem_cons_of_mem _ hother)
  passed made hmade hfront hne := by
    rw [List.append_assoc]
    exact h.passed (step :: made) (by simp) (List.cons_prefix_cons.mpr ⟨rfl, hfront⟩)
      (by simpa using hne)
  itself _ := by
    rw [List.append_assoc]
    exact h.itself (by simp)

theorem Agrees.label_sprout (h : Agrees directory isDirectory above (step :: steps)) :
    (sprout isDirectory step steps).label = labelOf (directory (above ++ [step])) step := by
  cases steps with
  | nil =>
      rw [h.itself (by simp)]
      cases isDirectory <;> rfl
  | cons next more =>
      rw [h.passed [step] (by simp) (List.cons_prefix_cons.mpr ⟨rfl, List.nil_prefix⟩) (by simp)]
      rfl

/-- A drawing stays one when a path is grown into it. -/
theorem Drawn.grow (h : Drawn directory above siblings)
    (hagrees : Agrees directory isDirectory above steps) :
    Drawn directory above (PathTree.grow isDirectory siblings steps) := by
  induction steps generalizing above siblings with
  | nil => exact h
  | cons step steps ih =>
      obtain ⟨distinct, isStep, label, below⟩ := h
      -- either one of the siblings is drawn further, or there is a new one behind them
      by_cases hmem : step ∈ siblings.map PathTree.step
      · rw [grow_of_mem hmem]
        refine ⟨?_, ?_, ?_, ?_⟩
        · rwa [List.map_map, show PathTree.step ∘ followed isDirectory step steps =
            PathTree.step from
            funext fun sibling => step_followed sibling]
        · simpa using isStep
        · simpa using label
        · simp only [List.forall_mem_map, step_followed, children_followed]
          intro sibling hsibling
          split
          · rename_i hstep
            exact ih (below sibling hsibling) (hstep ▸ hagrees.tail)
          · exact below sibling hsibling
      · rw [grow_of_not_mem hmem]
        refine ⟨?_, ?_, ?_, ?_⟩
        · rw [List.map_append, List.nodup_append]
          refine ⟨distinct, List.nodup_singleton _, ?_⟩
          rintro first hfirst _ hlast rfl
          obtain rfl := List.mem_singleton.mp hlast
          exact hmem hfirst
        · rw [List.forall_mem_append]
          exact ⟨isStep, by simpa using hagrees.isStep step List.mem_cons_self⟩
        · rw [List.forall_mem_append]
          exact ⟨label, by simpa using hagrees.label_sprout⟩
        · rw [List.forall_mem_append]
          exact ⟨below, by simpa using ih (.nil directory _) hagrees.tail⟩

namespace Drawn

variable {first : PathTree} {rest : List PathTree}

theorem head (h : Drawn directory above (first :: rest)) :
    IsStep first.step ∧ first.label = labelOf (directory (above ++ [first.step])) first.step ∧
      Drawn directory (above ++ [first.step]) first.children := by
  obtain ⟨-, isStep, label, below⟩ := h
  exact ⟨isStep first List.mem_cons_self, label first List.mem_cons_self,
    below first List.mem_cons_self⟩

theorem tail (h : Drawn directory above (first :: rest)) : Drawn directory above rest := by
  obtain ⟨distinct, isStep, label, below⟩ := h
  rw [List.map_cons, List.nodup_cons] at distinct
  rw [List.forall_mem_cons] at isStep label below
  exact ⟨distinct.2, isStep.2, label.2, below.2⟩

/-- The path of a node is read off its label. -/
theorem withoutFinalSlashes_label (h : Drawn directory above (first :: rest)) :
    withoutFinalSlashes first.label = first.step := by
  obtain ⟨isStep, label, -⟩ := h.head
  rw [label, withoutFinalSlashes_labelOf isStep]

/-- What is shown of drawn siblings are the ways down from them. -/
theorem mem_paths_iff (h : Drawn directory above siblings) {path : List String} :
    path ∈ (shownAll above siblings).map Prod.fst ↔
      ∃ steps, steps ≠ [] ∧ Leads siblings steps ∧ path = above ++ steps := by
  induction siblings using siblings_induction generalizing above with
  | nil =>
      refine ⟨fun hmem => by simp [shownAll] at hmem, ?_⟩
      rintro ⟨steps, hsteps, hleads, -⟩
      exact absurd (leads_nil_iff.mp hleads) hsteps
  | cons first rest ihChildren ihRest =>
      rw [shownAll_cons, h.withoutFinalSlashes_label, List.map_cons, List.map_append, List.mem_cons,
        List.mem_append, ihChildren h.head.2.2, ihRest h.tail]
      constructor
      · rintro (rfl | ⟨steps, -, hleads, rfl⟩ | ⟨steps, hsteps, hleads, rfl⟩)
        · exact ⟨[first.step], by simp, ⟨first, List.mem_cons_self, rfl, trivial⟩, rfl⟩
        · exact ⟨first.step :: steps, by simp, ⟨first, List.mem_cons_self, rfl, hleads⟩, by simp⟩
        · obtain ⟨step, more, rfl⟩ := List.exists_cons_of_ne_nil hsteps
          obtain ⟨sibling, hsibling, hway⟩ := hleads
          exact ⟨step :: more, hsteps, ⟨sibling, List.mem_cons_of_mem _ hsibling, hway⟩, rfl⟩
      · rintro ⟨steps, hsteps, hleads, rfl⟩
        obtain ⟨step, more, rfl⟩ := List.exists_cons_of_ne_nil hsteps
        obtain ⟨sibling, hsibling, rfl, hleads⟩ := hleads
        rcases List.mem_cons.mp hsibling with rfl | hsibling
        · by_cases hmore : more = []
          · exact .inl (by rw [hmore])
          · exact .inr (.inl ⟨more, hmore, hleads, by simp⟩)
        · exact .inr (.inr ⟨_, hsteps, ⟨sibling, hsibling, rfl, hleads⟩, rfl⟩)

/-- Drawn siblings show every path once. -/
theorem nodup_paths (h : Drawn directory above siblings) :
    ((shownAll above siblings).map Prod.fst).Nodup := by
  induction siblings using siblings_induction generalizing above with
  | nil => exact List.nodup_nil
  | cons first rest ihChildren ihRest =>
      have hother : ∀ sibling ∈ rest, sibling.step ≠ first.step := by
        obtain ⟨distinct, -⟩ := h
        rw [List.map_cons, List.nodup_cons] at distinct
        exact fun sibling hsibling heq => distinct.1 (heq ▸ List.mem_map_of_mem hsibling)
      -- what is shown further on starts with another step
      have hrest : ∀ more, above ++ first.step :: more ∉ (shownAll above rest).map Prod.fst := by
        intro more hmem
        obtain ⟨steps, hsteps, hleads, hpath⟩ := h.tail.mem_paths_iff.mp hmem
        obtain rfl := List.append_cancel_left hpath
        obtain ⟨sibling, hsibling, hstep, -⟩ := hleads
        exact hother sibling hsibling hstep
      rw [shownAll_cons, h.withoutFinalSlashes_label, List.map_cons, List.map_append,
        List.nodup_cons, List.mem_append, List.nodup_append, not_or]
      refine ⟨⟨fun hmem => ?_, hrest []⟩, ihChildren h.head.2.2, ihRest h.tail, ?_⟩
      · obtain ⟨steps, hsteps, -, hpath⟩ := h.head.2.2.mem_paths_iff.mp hmem
        exact hsteps (by simpa using hpath)
      · rintro path hbelow _ hfurther rfl
        obtain ⟨steps, -, -, rfl⟩ := h.head.2.2.mem_paths_iff.mp hbelow
        exact hrest steps (by simpa using hfurther)

/-- The path of a node ends in a step, and its label is this step as it is shown. -/
theorem exists_label_eq (h : Drawn directory above siblings) :
    ∀ shown ∈ shownAll above siblings, ∃ front step, IsStep step ∧ shown.1 = front ++ [step] ∧
      shown.2 = labelOf (directory shown.1) step := by
  induction siblings using siblings_induction generalizing above with
  | nil => simp [shownAll]
  | cons first rest ihChildren ihRest =>
      obtain ⟨isStep, label, below⟩ := h.head
      rw [shownAll_cons, h.withoutFinalSlashes_label, List.forall_mem_cons, List.forall_mem_append]
      exact ⟨⟨above, first.step, isStep, rfl, label⟩, ihChildren below, ihRest h.tail⟩

/-- The slash at the end of a label tells a directory. -/
theorem getLast?_label (h : Drawn directory above siblings) :
    ∀ shown ∈ shownAll above siblings,
      shown.2.toList.getLast? = some '/' ↔ directory shown.1 = true := by
  intro shown hshown
  obtain ⟨front, step, isStep, -, hlabel⟩ := h.exists_label_eq shown hshown
  rw [hlabel, getLast?_labelOf isStep]

end Drawn

/-! ## Sets of paths -/

/-- A path that does not end in a slash is grown along its steps. -/
theorem stepsOf_of_isInner {path : String} (h : IsInner path)
    (hlast : path.toList.getLast? ≠ some '/') :
    stepsOf path = (ofString path).steps := by
  have htrim := withoutFinalSlashes_eq_self hlast
  rw [withoutFinalSlashes] at htrim
  simp only [stepsOf, htrim, h.anchor, beq_self_eq_true, if_true]

/-- A path is grown along its steps also with a slash at its end. -/
theorem stepsOf_append_slash (path : String) : stepsOf (path ++ "/") = stepsOf path := by
  have htrim := withoutFinalSlashes_append_slash path
  rw [withoutFinalSlashes, withoutFinalSlashes] at htrim
  rw [stepsOf, htrim, stepsOf]

section OfPaths

variable {paths : List String} (hagrees : ∀ path ∈ paths,
  Agrees directory (path.toList.getLast? == some '/') [] (stepsOf path))

/-- Paths that are grown one after the other add the ways along them. -/
theorem leads_foldl_insert (paths : List String) (siblings : List PathTree) (steps : List String) :
    Leads (paths.foldl insert siblings) steps ↔
      Leads siblings steps ∨ ∃ path ∈ paths, steps <+: stepsOf path := by
  induction paths generalizing siblings with
  | nil => simp
  | cons path paths ih =>
      rw [List.foldl_cons, ih, insert, leads_grow, or_assoc, List.exists_mem_cons_iff]

include hagrees

theorem Drawn.foldl_insert (h : Drawn directory [] siblings) :
    Drawn directory [] (paths.foldl insert siblings) := by
  induction paths generalizing siblings with
  | nil => exact h
  | cons path paths ih =>
      obtain ⟨hfirst, hrest⟩ := List.forall_mem_cons.mp hagrees
      exact ih hrest (h.grow hfirst)

theorem drawn_ofPaths (label : String) : Drawn directory [] (ofPaths label paths).children := by
  refine Drawn.foldl_insert (fun path hpath => hagrees path ?_) (.nil directory [])
  simpa [Text.sortDistinct, Text.sort] using hpath

/-- The tree of a set of paths shows them and what is on the way to them. -/
theorem mem_nodes_ofPaths_iff (label : String) {steps : List String} :
    steps ∈ (nodes (ofPaths label paths)).map Prod.fst ↔
      steps ≠ [] ∧ ∃ path ∈ paths, steps <+: stepsOf path := by
  have hmem : ∀ path, path ∈ Text.sortDistinct paths ↔ path ∈ paths := by
    simp [Text.sortDistinct, Text.sort]
  rw [nodes, (drawn_ofPaths hagrees label).mem_paths_iff]
  simp only [ofPaths, children, leads_foldl_insert, leads_nil_iff, hmem, List.nil_append]
  constructor
  · rintro ⟨_, hne, hnil | hway, rfl⟩
    · exact absurd hnil hne
    · exact ⟨hne, hway⟩
  · exact fun ⟨hne, hway⟩ => ⟨steps, hne, .inr hway, rfl⟩

/-- The tree of a set of paths shows nothing twice. -/
theorem nodup_nodes_ofPaths (label : String) :
    ((nodes (ofPaths label paths)).map Prod.fst).Nodup :=
  (drawn_ofPaths hagrees label).nodup_paths

theorem getLast?_label_ofPaths (label : String) : ∀ shown ∈ nodes (ofPaths label paths),
    shown.2.toList.getLast? = some '/' ↔ directory shown.1 = true :=
  (drawn_ofPaths hagrees label).getLast?_label

end OfPaths

end PathTree

end PackageScaffold
