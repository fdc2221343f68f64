import PackageScaffold.Proofs.Files.Computation
import PackageScaffold.Proofs.Files.Erasure

/-!
# The place that a path leads to

Two dots in a path lead back, so a path may go through directories that are not above its end.  The
place that it leads to, and those that it passes, can be read off the path all the same.

* `Disk.place`: where a path leads if it can be followed;
* `makeDirectory_spec`: making a directory makes directories at places that its path passes, and at
  no other;
* `Disk.IsDirect`: a path that does not pass through anything inside the place that it leads to, as
  those without dots do (`isDirect_of_forward`);
* `item?_below_of_not_exists`: where a path shows nothing, nothing stands at its place;
* `Rooted.without`: such a path still leads to its place if something inside is removed.
-/

namespace PackageScaffold.Disk

variable {d d₁ : Disk} {root : Path} {top : List String}

/-! ## Places -/

/-- Where a path leads, if it can be followed. -/
def place (disk : Disk) (path : Path) : List String :=
  path.steps.foldl advance (disk.start path)

theorem place_of_working (h : d₁.working = d.working) (path : Path) :
    d₁.place path = d.place path := by
  simp only [place, start, h]

theorem eq_place_of_locate {path : Path} {steps : List String} (h : d.locate path = .ok steps) :
    steps = d.place path :=
  eq_foldl_of_follow (follow_of_locate h)

theorem Rooted.eq_place (h : Rooted d root top) : top = d.place root :=
  eq_place_of_locate h.located

/-- Where a path leads that goes on from a root without leading back. -/
theorem place_below {steps : List String} (hforward : ".." ∉ steps) (d : Disk) (root : Path) :
    d.place (root.below steps) = d.place root ++ steps := by
  rw [place, Path.below, List.foldl_append, foldl_advance_of_forward hforward]
  rfl

theorem place_extend {s : String} (hinner : Path.IsInner s) (d : Disk) (root : Path) :
    d.place (root.extend s) = d.place root ++ (Path.ofString s).steps := by
  rw [Path.extend_eq_below hinner, place_below hinner.forward]

/-- The places that a path passes: those of its first steps. -/
def Passes (disk : Disk) (path : Path) (place : List String) : Prop :=
  ∃ steps, steps <+: path.steps ∧ place = disk.place ⟨path.anchor, steps⟩

theorem Passes.self (disk : Disk) (path : Path) : Passes disk path (disk.place path) :=
  ⟨path.steps, List.prefix_refl _, rfl⟩

theorem Passes.of_front {anchor : Anchor} {made steps place : List String} (h : made <+: steps)
    (hpasses : Passes d ⟨anchor, made⟩ place) : Passes d ⟨anchor, steps⟩ place := by
  obtain ⟨front, hfront, hplace⟩ := hpasses
  exact ⟨front, hfront.trans h, hplace⟩

theorem Passes.of_working {path : Path} {place : List String} (h : d₁.working = d.working)
    (hpasses : Passes d₁ path place) : Passes d path place := by
  obtain ⟨front, hfront, rfl⟩ := hpasses
  exact ⟨front, hfront, place_of_working h _⟩

/-- Steps that can be followed lead through directories. -/
theorem isDirectory_of_follow {tree : FileTree} {done steps made reached : List String}
    {step : String}
    (h : follow tree done steps = .ok reached) (hmade : made ++ [step] <+: steps) :
    tree.item? (made.foldl advance done) = some .directory := by
  obtain ⟨more, rfl⟩ := hmade
  rw [List.append_assoc, follow_append] at h
  cases hfollow : follow tree done made with
  | error refusal => simp [hfollow, Except.bind] at h
  | ok middle =>
      rw [hfollow] at h
      rw [← eq_foldl_of_follow hfollow]
      simp only [Except.bind, List.singleton_append, follow] at h
      rcases hget : tree.get? middle with _ | content | entries
      · simp [hget] at h
      · simp [hget] at h
      · exact FileTree.item?_eq_directory_iff.mpr ⟨entries, hget⟩

/-- Where the start of a path is missing, the path leads nowhere. -/
theorem exists_locate_eq_error {path : Path} (hstart : d.tree.item? (d.start path) = none)
    (hsteps : path.steps ≠ []) : ∃ refusal, d.locate path = .error refusal := by
  cases hlocate : d.locate path with
  | error refusal => exact ⟨refusal, rfl⟩
  | ok place =>
      exfalso
      obtain ⟨step, more, hcons⟩ := List.exists_cons_of_ne_nil hsteps
      have hfirst : [] ++ [step] <+: path.steps := by
        rw [hcons]
        simp
      have hdirectory := isDirectory_of_follow (follow_of_locate hlocate) hfirst
      rw [List.foldl_nil, hstart] at hdirectory
      simp at hdirectory

/-- Where something is missing, steps lead to nothing on the way. -/
theorem exists_missing_of_follow {tree : FileTree} {done steps : List String}
    (h : follow tree done steps = .error .missing) :
    ∃ made step, made ++ [step] <+: steps ∧ tree.item? (made.foldl advance done) = none := by
  induction steps generalizing done with
  | nil => simp [follow] at h
  | cons step steps ih =>
      rcases hget : tree.get? done with _ | content | entries
      · exact ⟨[], step, by simp, FileTree.item?_eq_none_iff.mpr hget⟩
      · simp [follow, hget] at h
      · have hnext : follow tree (advance done step) steps = .error .missing := by
          simp only [follow, hget] at h
          unfold advance
          split at h
          · rwa [if_pos ‹_›]
          · rw [if_neg ‹_›]
            split at h
            · simp at h
            · exact h
        obtain ⟨made, last, hmade, hnone⟩ := ih hnext
        exact ⟨step :: made, last, by simpa using hmade, hnone⟩

/-! ## Making directories on the way to a place -/

/-- One directory is made at the place of its path. -/
theorem makeOne_spec {path : Path} (hsteps : path.steps ≠ []) (h : d.makeOne path = .ok d₁) :
    Adds (fun place item => item = .directory ∧ place = d.place path) d d₁ ∧
      d₁.itemAt path = .ok .directory := by
  cases hlocate : d.locate path with
  | error refusal => simp [makeOne_of_error hlocate] at h
  | ok place =>
      have hplace := eq_place_of_locate hlocate
      have hnone : d.tree.item? place = none := by
        cases hitem : d.tree.item? place with
        | none => rfl
        | some item => simp [makeOne_of_item (itemAt_of_locate hlocate hitem)] at h
      obtain ⟨tree, hmake, rfl⟩ : ∃ tree, d.tree.makeDirectory place = .ok tree ∧
          { d with tree } = d₁ := by
        rw [FileTree.item?_eq_none_iff] at hnone
        cases hmake : d.tree.makeDirectory place with
        | error refusal => simp [makeOne, hlocate, hnone, hmake, bind, Except.bind] at h
        | ok tree =>
            refine ⟨tree, rfl, ?_⟩
            simpa [makeOne, hlocate, hnone, hmake, bind, Except.bind, pure, Except.pure] using h
      have hadds :
          Adds (fun new item => item = .directory ∧ new = d.place path) d { d with tree } := by
        -- the last step leads into a directory that is there
        have hpath := List.dropLast_concat_getLast hsteps
        have hfollow := follow_of_locate hlocate
        have hwhole : path.steps.dropLast ++ [path.steps.getLast hsteps] <+: path.steps :=
          ⟨[], by rw [List.append_nil, hpath]⟩
        have habove := isDirectory_of_follow hfollow hwhole
        rw [← hpath, follow_append] at hfollow
        cases hbefore : follow d.tree (d.start path) path.steps.dropLast with
        | error refusal => simp [hbefore, Except.bind] at hfollow
        | ok above =>
            rw [← eq_foldl_of_follow hbefore] at habove
            rw [hbefore] at hfollow
            have hlast := eq_foldl_of_follow hfollow
            simp only [List.foldl_cons, List.foldl_nil, advance] at hlast
            split at hlast
            · subst hlast
              rw [FileTree.item?_of_front (List.dropLast_prefix above) habove] at hnone
              simp at hnone
            · rw [← hplace]
              subst hlast
              refine (adds_of_makeDirectory hmake habove hnone).mono ?_
              rintro new item ⟨hnew, hitem⟩
              exact ⟨hitem, hnew⟩
      refine ⟨hadds, itemAt_of_locate (locate_of_grows hadds.grows hlocate (by simp)) ?_⟩
      rw [FileTree.item?_makeDirectory hmake, if_pos (List.prefix_refl _)]

/-- A refusal is passed over only where there is a directory, and nothing is made. -/
theorem allowDirectory_spec {path : Path} {refusal : Refusal} {refusal? : Option Refusal}
    (h : d.allowDirectory path refusal = (d₁, refusal?)) :
    d₁ = d ∧ (refusal? = none → d₁.itemAt path = .ok .directory) := by
  rw [allowDirectory_eq] at h
  split at h
  · obtain ⟨rfl, rfl⟩ := Prod.mk.injEq .. ▸ h
    exact ⟨rfl, fun _ => ‹_›⟩
  · obtain ⟨rfl, rfl⟩ := Prod.mk.injEq .. ▸ h
    exact ⟨rfl, by simp⟩

/-- Making a directory makes directories at places that its path passes, and at no other. -/
theorem makeFrom_spec (anchor : Anchor) (d : Disk) (reversed : List String) {after : Disk}
    {refusal? : Option Refusal} (h : makeFrom anchor d reversed = (after, refusal?)) :
    Adds (fun place item => item = .directory ∧ Passes d ⟨anchor, reversed.reverse⟩ place) d after ∧
      (refusal? = none → reversed ≠ [] →
        after.itemAt ⟨anchor, reversed.reverse⟩ = .ok .directory) := by
  induction reversed generalizing after refusal? with
  | nil =>
      obtain ⟨rfl, rfl⟩ := Prod.mk.injEq .. ▸ h
      exact ⟨.refl _ d, by simp⟩
  | cons step above ih =>
      have hstarts : above.reverse <+: (step :: above).reverse := by simp
      have hsteps : (⟨anchor, (step :: above).reverse⟩ : Path).steps ≠ [] := by simp
      have hmade : ∀ {d₁ d₂ : Disk}, d₁.working = d.working →
          d₁.makeOne ⟨anchor, (step :: above).reverse⟩ = .ok d₂ →
          Adds (fun place item => item = .directory ∧
            Passes d ⟨anchor, (step :: above).reverse⟩ place) d₁ d₂ ∧
          d₂.itemAt ⟨anchor, (step :: above).reverse⟩ = .ok .directory := by
        intro d₁ d₂ hworking hmake
        obtain ⟨hadds, hitem⟩ := makeOne_spec hsteps hmake
        refine ⟨hadds.mono ?_, hitem⟩
        rintro place item ⟨hdirectory, rfl⟩
        exact ⟨hdirectory, (Passes.self d₁ _).of_working hworking⟩
      rw [makeFrom] at h
      split at h
      · obtain ⟨rfl, rfl⟩ := Prod.mk.injEq .. ▸ h
        obtain ⟨hadds, hitem⟩ := hmade rfl ‹_›
        exact ⟨hadds, fun _ _ => hitem⟩
      · -- something above is missing, and is made first
        split at h
        · rename_i middle refusal hmiddle
          obtain ⟨rfl, rfl⟩ := Prod.mk.injEq .. ▸ h
          refine ⟨(ih hmiddle).1.mono ?_, by simp⟩
          rintro place item ⟨hitem, hpasses⟩
          exact ⟨hitem, hpasses.of_front hstarts⟩
        · rename_i middle hmiddle
          have habove : Adds (fun place item => item = .directory ∧
              Passes d ⟨anchor, (step :: above).reverse⟩ place) d middle := by
            refine (ih hmiddle).1.mono ?_
            rintro place item ⟨hitem, hpasses⟩
            exact ⟨hitem, hpasses.of_front hstarts⟩
          split at h
          · obtain ⟨rfl, rfl⟩ := Prod.mk.injEq .. ▸ h
            obtain ⟨hadds, hitem⟩ := hmade habove.working ‹_›
            exact ⟨habove.trans hadds, fun _ _ => hitem⟩
          · obtain ⟨rfl, hitem⟩ := allowDirectory_spec h
            exact ⟨habove, fun hnone _ => hitem hnone⟩
      · obtain ⟨rfl, hitem⟩ := allowDirectory_spec h
        exact ⟨.refl _ _, fun hnone _ => hitem hnone⟩

theorem makeDirectory_spec {path : Path} {after : Disk} {refusal? : Option Refusal}
    (h : d.makeDirectory path = (after, refusal?)) :
    Adds (fun place item => item = .directory ∧ Passes d path place) d after ∧
      (refusal? = none → path.steps ≠ [] → after.itemAt path = .ok .directory) := by
  have hspec := makeFrom_spec path.anchor d path.steps.reverse h
  simpa using hspec

/-- What making sure of a directory comes to, wherever its path leads. -/
theorem ensureDirectory_passes {path : Path} {result : Except Failure Unit} {after : Disk}
    (h : (FileM.ensureDirectory path).outcome d = (result, after)) :
    Adds (fun place item => item = .directory ∧ Passes d path place) d after ∧
      (result = .ok () → path.hasNull = false ∧
        (path.steps ≠ [] → after.itemAt path = .ok .directory)) := by
  cases hnull : path.hasNull with
  | true =>
      rw [FileM.outcome_ensureDirectory_of_hasNull hnull] at h
      obtain ⟨rfl, rfl⟩ := Prod.mk.injEq .. ▸ h
      exact ⟨.refl _ _, by simp⟩
  | false =>
      rw [FileM.outcome_ensureDirectory hnull] at h
      rcases hmake : d.makeDirectory path with ⟨made, refusal?⟩
      rw [hmake] at h
      obtain ⟨rfl, rfl⟩ := Prod.mk.injEq .. ▸ h
      obtain ⟨hadds, hitem⟩ := makeDirectory_spec hmake
      refine ⟨hadds, fun hok => ⟨rfl, hitem ?_⟩⟩
      cases refusal? with
      | none => rfl
      | some refusal => simp at hok

/-- Nothing can be made from a start that is not there. -/
theorem makeFrom_of_missing_start {anchor : Anchor}
    (hstart : d.tree.item? (d.start ⟨anchor, []⟩) = none) {reversed : List String}
    (hsteps : reversed ≠ []) : ∃ refusal, makeFrom anchor d reversed = (d, some refusal) := by
  induction reversed with
  | nil => exact absurd rfl hsteps
  | cons step above ih =>
      obtain ⟨refusal, hlocate⟩ :=
        @exists_locate_eq_error d ⟨anchor, (step :: above).reverse⟩ hstart
        (by simp)
      have hallow : ∀ refusal', d.allowDirectory ⟨anchor, (step :: above).reverse⟩ refusal' =
          (d, some refusal') := by
        intro refusal'
        rw [allowDirectory_eq, itemAt_eq, hlocate]
        rfl
      rw [makeFrom, makeOne_of_error hlocate]
      cases refusal with
      | missing =>
          simp only
          by_cases habove : above = []
          · subst habove
            simp only [makeFrom, makeOne_of_error hlocate]
            exact ⟨_, hallow _⟩
          · obtain ⟨refusal', hmake⟩ := ih habove
            exact ⟨refusal', by rw [hmake]⟩
      | _ => exact ⟨_, hallow _⟩

/-! ## Paths that do not pass through what they lead to -/

/-- A path does not pass through anything inside the place that it leads to. -/
def IsDirect (disk : Disk) (path : Path) : Prop :=
  ∀ step more, ¬ Passes disk path (disk.place path ++ step :: more)

theorem IsDirect.of_working {path : Path} (hdirect : IsDirect d path) (h : d₁.working = d.working) :
    IsDirect d₁ path := by
  intro step more hpasses
  rw [place_of_working h] at hpasses
  exact hdirect step more (hpasses.of_working h)

/-- Without dots that lead back, a path only passes what is above its end. -/
theorem isDirect_of_forward {path : Path} (hforward : ".." ∉ path.steps) : IsDirect d path := by
  rintro step more ⟨made, hmade, heq⟩
  have hmadeForward : ".." ∉ made := fun hmem => hforward (hmade.mem hmem)
  rw [place, place, foldl_advance_of_forward hforward, foldl_advance_of_forward hmadeForward] at heq
  have hlength := congrArg List.length heq
  have hle := hmade.length_le
  have hstart : d.start ⟨path.anchor, made⟩ = d.start path := rfl
  simp only [List.length_append, List.length_cons, hstart] at hlength
  omega

/-- Steps that lead to something can be refused for their length only. -/
theorem eq_tooLong_of_follow {tree : FileTree} {done steps : List String} {refusal : Refusal}
    (hforward : ".." ∉ steps) (hitem : tree.item? (done ++ steps) ≠ none)
    (h : follow tree done steps = .error refusal) : refusal = .tooLong := by
  induction steps generalizing done with
  | nil => simp [follow] at h
  | cons step steps ih =>
      simp only [List.mem_cons, not_or] at hforward
      have hdirectory := FileTree.item?_of_item?_append (by simp) hitem
      obtain ⟨entries, hget⟩ := FileTree.item?_eq_directory_iff.mp hdirectory
      have hstep : (step == "..") = false := beq_false_of_ne (Ne.symm hforward.1)
      simp only [follow, hget, hstep, Bool.false_eq_true, if_false] at h
      split at h
      · exact (Except.error.inj h).symm
      · exact ih hforward.2 (by simpa using hitem) h

/-- Where the way to a root is there and a path below it does not lead back, nothing stands at its
place if it shows nothing. -/
theorem item?_below_of_not_exists {reached steps : List String}
    (hway : follow d.tree (d.start root) root.steps = .ok reached) (hforward : ".." ∉ steps)
    (hnull : (root.below steps).hasNull = false)
    (hfree : d.exists? (root.below steps) = .ok false) :
    d.tree.item? (reached ++ steps) = none := by
  obtain ⟨refusal, hlong, hitem⟩ := exists?_false hfree hnull
  have hsize := size_le_of_exists? hnull hfree
  have hlocate : d.locate (root.below steps) = follow d.tree reached steps := by
    rw [locate, if_neg (by omega)]
    change follow d.tree (d.start root) (root.steps ++ steps) = _
    rw [follow_append, hway]
    rfl
  rw [itemAt_eq, hlocate] at hitem
  cases hfound : d.tree.item? (reached ++ steps) with
  | none => rfl
  | some item =>
      exfalso
      cases hfollow : follow d.tree reached steps with
      | error refused =>
          obtain rfl := eq_tooLong_of_follow hforward (by simp [hfound]) hfollow
          rw [hfollow] at hitem
          exact hlong (Except.error.inj hitem).symm
      | ok place =>
          obtain rfl := eq_append_of_follow hforward hfollow
          simp [hfollow, Except.bind, hfound] at hitem

/-- Where the way to a root is there, a path inside it that shows nothing leads to nothing. -/
theorem item?_of_followed {reached : List String}
    (hway : follow d.tree (d.start root) root.steps = .ok reached) {path : String}
    (hinner : Path.IsInner path) (hnull : (root.extend path).hasNull = false)
    (hfree : d.exists? (root.extend path) = .ok false) :
    d.tree.item? (d.place (root.extend path)) = none := by
  have hreached : reached = d.place root := eq_foldl_of_follow hway
  rw [place_extend hinner, ← hreached]
  rw [Path.extend_eq_below hinner] at hnull hfree
  exact item?_below_of_not_exists hway hinner.forward hnull hfree

/-- Where a path below a root shows nothing, nothing stands at its place. -/
theorem Rooted.item?_of_not_exists (h : Rooted d root top) {path : String}
    (hinner : Path.IsInner path) (hnull : (root.extend path).hasNull = false)
    (hfree : d.exists? (root.extend path) = .ok false) :
    d.tree.item? (top ++ (Path.ofString path).steps) = none := by
  rw [h.eq_place, ← place_extend hinner]
  exact item?_of_followed (follow_of_locate h.located) hinner hnull hfree

/-- Where a path that never leads back shows nothing, nothing stands at its place. -/
theorem item?_place_of_not_exists {path : Path} (hforward : ".." ∉ path.steps)
    (hnull : path.hasNull = false) (h : d.exists? path = .ok false) :
    d.tree.item? (d.place path) = none := by
  rw [place, foldl_advance_of_forward hforward]
  exact @item?_below_of_not_exists d ⟨path.anchor, []⟩ (d.start path) path.steps rfl hforward hnull
    h

/-! ## A root from which something is removed -/

/-- A root stays a root if only something inside it is removed, unless its path passes through
that. -/
theorem Rooted.without (h : Rooted d root top) (hdirect : IsDirect d root) {paths : List Path}
    (hplaces : ∀ place ∈ d.places paths, ∃ step more, place = top ++ step :: more) :
    Rooted (d.without paths) root top := by
  have hne : ∀ place ∈ d.places paths, place ≠ [] := by
    intro place hmem
    obtain ⟨step, more, rfl⟩ := hplaces place hmem
    simp
  have hgrows := grows_without hne
  have hkept : ∀ passed, Passes d root passed →
      (d.without paths).tree.item? passed = d.tree.item? passed := by
    intro passed hpassed
    refine item?_without_of_kept hne fun place hmem hstarts => ?_
    obtain ⟨step, more, rfl⟩ := hplaces place hmem
    obtain ⟨rest, rfl⟩ := hstarts
    rw [h.eq_place, List.append_assoc] at hpassed
    exact hdirect step (more ++ rest) hpassed
  -- a step that is missing now was removed, but nothing on the way to the root was
  have hmissing : (d.without paths).locate root ≠ .error .missing := by
    intro hlocate
    have hlocated := h.located
    unfold locate at hlocate hlocated
    split at hlocated
    · simp at hlocated
    · rw [if_neg ‹_›] at hlocate
      obtain ⟨made, step, hmade, hnone⟩ := exists_missing_of_follow hlocate
      have hdirectory := isDirectory_of_follow hlocated hmade
      have hpasses : Passes d root (made.foldl advance (d.start root)) :=
        ⟨made, (List.prefix_append _ _).trans hmade, rfl⟩
      have hstart : (d.without paths).start root = d.start root := start_of_grows hgrows root ▸ rfl
      rw [hstart, hkept _ hpasses, hdirectory] at hnone
      simp at hnone
  refine ⟨h.noNull, ?_, ?_⟩
  · rw [← locate_of_grows hgrows rfl hmissing]
    exact h.located
  · rw [hkept top (h.eq_place ▸ Passes.self d root)]
    exact h.isDirectory

end PackageScaffold.Disk
