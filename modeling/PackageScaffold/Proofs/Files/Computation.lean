import PackageScaffold.Proofs.Files.Root

/-!
# What computations do to a disk

A computation on a disk comes to a result or a failure, and to the disk as it leaves it.  This file
states what the computations that make directories and write files come to.

* `FileM.outcome`, with one equation for each way of putting computations together;
* `ensureDirectory_below`, `writeFile_below`: what they come to below a root.  A refusal that is
  reported on purpose stays a refusal however the disk grows.
-/

namespace PackageScaffold

namespace Disk

variable {d d₁ : Disk} {path : Path}

/-! ## Looking at a disk that has grown -/

/-- The only way in which looking fails is that a path cannot be looked at. -/
theorem exists?_error {failure : Failure} (h : d.exists? path = .error failure) :
    path.hasNull = false ∧ d.itemAt path = .error .tooLong ∧
      failure = .unreachable (described path .tooLong) := by
  rw [exists?_eq] at h
  split at h
  · simp at h
  · split at h
    · simp at h
    · exact ⟨by simpa using ‹¬ path.hasNull = true›, ‹_›, by simpa using h.symm⟩
    · simp at h

theorem exists?_true_iff :
    d.exists? path = .ok true ↔ path.hasNull = false ∧ ∃ item, d.itemAt path = .ok item := by
  rw [exists?_eq]
  split
  · simp [*]
  · split <;> simp_all

theorem isDirectory_true_iff :
    d.isDirectory path = .ok true ↔ path.hasNull = false ∧ d.itemAt path = .ok .directory := by
  rw [isDirectory_eq]
  split
  · simp [*]
  · split <;> simp_all

theorem exists?_true_of_grows (h : d.exists? path = .ok true) (hgrows : Grows d d₁) :
    d₁.exists? path = .ok true := by
  obtain ⟨hnull, item, hitem⟩ := exists?_true_iff.mp h
  exact exists?_true_iff.mpr ⟨hnull, item, itemAt_of_grows hgrows hitem (by simp)⟩

theorem exists?_error_of_grows {failure : Failure} (h : d.exists? path = .error failure)
    (hgrows : Grows d d₁) : d₁.exists? path = .error failure := by
  obtain ⟨hnull, hitem, rfl⟩ := exists?_error h
  rw [exists?_eq, hnull, itemAt_of_grows hgrows hitem (by simp)]
  rfl

/-- Nothing is there, and the path can be looked at. -/
theorem exists?_false (h : d.exists? path = .ok false) (hnull : path.hasNull = false) :
    ∃ refusal, refusal ≠ .tooLong ∧ d.itemAt path = .error refusal := by
  rw [exists?_eq, hnull] at h
  cases hitem : d.itemAt path with
  | ok item => simp [hitem] at h
  | error refusal =>
      refine ⟨refusal, ?_, rfl⟩
      rintro rfl
      simp [hitem] at h

/-- Beside something that is there, a path that can be looked at can be looked at later. -/
theorem exists?_ok_of_grows {root : Path} {top : List String} (h : Rooted d root top)
    (steps : List String) {name : String} (hforward : ".." ∉ steps ++ [name])
    (habove : d.tree.item? (top ++ steps) ≠ none) {isThere : Bool}
    (hexists : d.exists? (root.below (steps ++ [name])) = .ok isThere) (hgrows : Grows d d₁) :
    ∃ isThere', d₁.exists? (root.below (steps ++ [name])) = .ok isThere' := by
  cases hafter : d₁.exists? (root.below (steps ++ [name])) with
  | ok isThere' => exact ⟨isThere', rfl⟩
  | error failure =>
      obtain ⟨hnull, hitem, -⟩ := exists?_error hafter
      have hafter := locate_of_itemAt_tooLong hitem
      have hlocate : d.locate (root.below (steps ++ [name])) = .error .tooLong := by
        rwa [locate_of_grows hgrows rfl (locate_concat_ne_missing h hforward habove)] at hafter
      rw [exists?_eq, hnull, itemAt_eq, hlocate] at hexists
      simp [Except.bind] at hexists

/-- A path that can be looked at can be looked at later if the disk grows by files alone. -/
theorem exists?_ok_of_adds (h : Adds (fun _ item => item ≠ .directory) d d₁) {isThere : Bool}
    (hexists : d.exists? path = .ok isThere) : ∃ isThere', d₁.exists? path = .ok isThere' := by
  cases hafter : d₁.exists? path with
  | ok isThere' => exact ⟨isThere', rfl⟩
  | error failure =>
      obtain ⟨hnull, hitem, -⟩ := exists?_error hafter
      have hlong := locate_of_itemAt_tooLong hitem
      have hlocate : d.locate path = .error .tooLong := by
        unfold locate at hlong ⊢
        split
        · rfl
        · rw [if_neg ‹_›, start_of_grows h.grows] at hlong
          exact follow_tooLong_of_adds h hlong
      rw [exists?_eq, hnull, itemAt_eq, hlocate] at hexists
      simp [Except.bind] at hexists

/-- A path that can be looked at is not too long as a whole. -/
theorem size_le_of_exists? (hnull : path.hasNull = false) {isThere : Bool}
    (h : d.exists? path = .ok isThere) : path.text.utf8ByteSize ≤ longestPath := by
  refine Nat.le_of_not_lt fun hlong => ?_
  rw [exists?_eq, hnull, itemAt_eq, locate, if_pos hlong] at h
  simp [Except.bind] at h

/-- Where the way to a neighbour is blocked, a path can be looked at: its last name could only be
too long for a directory that is there. -/
theorem exists?_ok_of_blocked {root : Path} {top steps other : List String} {name : String}
    (h : Rooted d root top) (hfits : ∀ step ∈ steps, Fits step) (hname : name ≠ "..")
    (hsize : (root.below (steps ++ [name])).text.utf8ByteSize ≤ longestPath)
    (hother : ∀ step ∈ other, Fits step) (hinit : other.dropLast <+: steps)
    (hsize' : (root.below other).text.utf8ByteSize ≤ longestPath)
    (hblocked : Blocked d (root.below other)) :
    ∃ isThere, d.exists? (root.below (steps ++ [name])) = .ok isThere := by
  cases hexists : d.exists? (root.below (steps ++ [name])) with
  | ok isThere => exact ⟨isThere, rfl⟩
  | error failure =>
      obtain ⟨-, hitem, -⟩ := exists?_error hexists
      have hlong := locate_of_itemAt_tooLong hitem
      rw [h.locate_below, if_neg (by omega)] at hlong
      have hdirectory := isDirectory_of_follow_tooLong hfits hname hlong
      obtain ⟨more, rfl⟩ := hinit
      have habove : d.tree.item? (top ++ other.dropLast) = some .directory := by
        by_cases hnil : more = []
        · rwa [hnil, List.append_nil] at hdirectory
        · rw [← List.append_assoc] at hdirectory
          exact FileTree.item?_of_item?_append hnil (by rw [hdirectory]; simp)
      obtain ⟨refusal, -, hlocate⟩ := hblocked
      rw [h.locate_below, if_neg (by omega), follow_eq_ok hother fun _ => habove] at hlocate
      simp at hlocate

end Disk

namespace FileM

open Disk

variable {α β : Type} {d : Disk} {root : Path} {top : List String}

/-! ## Outcomes -/

/-- What a computation comes to on a disk, and the disk as it leaves it. -/
def outcome (x : FileM α) (disk : Disk) : Except Failure α × Disk :=
  x.run.run disk

/-- A computation that has not failed has come to a result. -/
theorem exists_outcome_ok {x : FileM α} {d : Disk} (h : (x.outcome d).1.isOk = true) :
    ∃ a after, x.outcome d = (.ok a, after) := by
  rcases hrun : x.outcome d with ⟨failure | a, after⟩
  · simp [hrun, Except.isOk, Except.toBool] at h
  · exact ⟨a, after, rfl⟩

theorem exists_outcome_eq {x : FileM α} {d : Disk} {result : Except Failure α}
    (h : (x.outcome d).1 = result) : ∃ after, x.outcome d = (result, after) :=
  ⟨_, Prod.ext h rfl⟩

@[simp] theorem outcome_pure (a : α) (d : Disk) : (pure a : FileM α).outcome d = (.ok a, d) := rfl

@[simp] theorem outcome_throw (failure : Failure) (d : Disk) :
    (throw failure : FileM α).outcome d = (.error failure, d) := rfl

theorem outcome_bind (x : FileM α) (f : α → FileM β) (d : Disk) :
    (x >>= f).outcome d =
      match x.outcome d with
      | (.ok a, after) => (f a).outcome after
      | (.error failure, after) => (.error failure, after) := by
  unfold outcome ExceptT.run StateT.run
  simp only [bind, ExceptT.bind, ExceptT.mk, StateT.bind]
  rcases x d with ⟨_ | _, _⟩ <;> rfl

theorem outcome_tryCatch (x : FileM α) (handle : Failure → FileM α) (d : Disk) :
    (tryCatch x handle).outcome d =
      match x.outcome d with
      | (.ok a, after) => (.ok a, after)
      | (.error failure, after) => (handle failure).outcome after := by
  unfold outcome ExceptT.run StateT.run
  simp only [tryCatch, tryCatchThe, MonadExceptOf.tryCatch, ExceptT.tryCatch, ExceptT.mk, bind,
    StateT.bind]
  rcases x d with ⟨_ | _, _⟩ <;> rfl

@[simp] theorem outcome_look (f : Disk → α) (d : Disk) : (look f).outcome d = (.ok (f d), d) := rfl

@[simp] theorem outcome_get (d : Disk) : (get : FileM Disk).outcome d = (.ok d, d) := rfl

theorem outcome_inspect (f : Disk → Except Failure α) (d : Disk) :
    (inspect f).outcome d = (f d, d) := by
  unfold inspect
  rw [outcome_bind, outcome_get]
  dsimp only
  cases f d <;> rfl

theorem outcome_checkPath (path : Path) (d : Disk) :
    (checkPath path).outcome d = (if path.hasNull then .error .nullInPath else .ok (), d) := by
  unfold checkPath
  split <;> rfl

/-- A computation ended with a result, or with a failure that is reported on purpose. -/
def Deliberate (result : Except Failure α) : Prop :=
  ∀ failure, result = .error failure → failure.isExpected = true

theorem Deliberate.of_map {result : Except Failure α} {f : α → β}
    (h : Deliberate (result.map f)) : Deliberate result := by
  rintro failure rfl
  exact h failure rfl

/-! ## Making directories -/

theorem outcome_ensureDirectory {path : Path} (hnull : path.hasNull = false) (d : Disk) :
    (ensureDirectory path).outcome d =
      (match (d.makeDirectory path).2 with
        | none => .ok ()
        | some refusal => .error (.refused path.text refusal.text), (d.makeDirectory path).1) := by
  unfold ensureDirectory makeFor
  rw [outcome_bind, outcome_checkPath, hnull]
  simp only [Bool.false_eq_true, if_false]
  rw [outcome_bind, outcome_get]
  simp only
  rcases d.makeDirectory path with ⟨after, _ | refusal⟩ <;> rfl

theorem outcome_ensureDirectory_of_hasNull {path : Path} (hnull : path.hasNull = true) (d : Disk) :
    (ensureDirectory path).outcome d = (.error .nullInPath, d) := by
  unfold ensureDirectory makeFor
  rw [outcome_bind, outcome_checkPath, hnull]
  rfl

/-- What making a directory comes to where nothing is: the directory is there, or the way to it is
blocked. -/
theorem ensureDirectory_below (h : Rooted d root top) {steps : List String}
    (hforward : ".." ∉ steps) (hfree : d.exists? (root.below steps) = .ok false)
    {result : Except Failure Unit} {after : Disk}
    (hrun : (ensureDirectory (root.below steps)).outcome d = (result, after))
    (hdeliberate : Deliberate result) :
    Adds (fun place item => item = .directory ∧ ∃ made, made <+: steps ∧ place = top ++ made)
      d after ∧
    (result = .ok () ∧ after.exists? (root.below steps) = .ok true ∨
      (∃ failure, result = .error failure) ∧ Blocked after (root.below steps)) := by
  by_cases hnull : (root.below steps).hasNull = true
  · rw [outcome_ensureDirectory_of_hasNull hnull] at hrun
    obtain ⟨rfl, rfl⟩ := Prod.mk.injEq .. ▸ hrun
    exact absurd (hdeliberate _ rfl) (by decide)
  · have hnull' : (root.below steps).hasNull = false := by simpa using hnull
    obtain ⟨made, refusal?, hmake, hmakes⟩ := makeDirectory_below h hforward
    rw [outcome_ensureDirectory hnull', hmake] at hrun
    obtain ⟨rfl, rfl⟩ := Prod.mk.injEq .. ▸ hrun
    refine ⟨hmakes.adds, ?_⟩
    cases refusal? with
    | none => exact .inl ⟨rfl, exists?_true_iff.mpr ⟨hnull', _, hmakes.made rfl⟩⟩
    | some refusal =>
        refine .inr ⟨⟨_, rfl⟩, ?_⟩
        rcases hmakes.blocked (by simp) with hblocked | ⟨content, hfile⟩
        · exact hblocked
        · rw [exists?_true_iff.mpr ⟨hnull', _, hfile⟩] at hfree
          simp at hfree

/-- On a blocked way no directory is made. -/
theorem ensureDirectory_of_blocked (h : Rooted d root top) {steps : List String}
    (hblocked : Blocked d (root.below steps)) :
    ∃ failure, (ensureDirectory (root.below steps)).outcome d = (.error failure, d) := by
  by_cases hnull : (root.below steps).hasNull = true
  · exact ⟨_, outcome_ensureDirectory_of_hasNull hnull d⟩
  · obtain ⟨refusal, hmake⟩ := makeDirectory_of_blocked h hblocked
    rw [outcome_ensureDirectory (by simpa using hnull), hmake]
    exact ⟨_, rfl⟩

/-! ## Writing files -/

theorem outcome_checkDraft (path : Path) (d : Disk) :
    (checkDraft path).outcome d =
      (if (d.draftSteps path).any Path.isNullStep then .error .nullInPath
        else
          match follow d.tree [] (d.draftSteps path) with
          | .error refusal => .error (.refused path.text refusal.text)
          | .ok _ => .ok (), d) := by
  unfold checkDraft
  rw [outcome_bind, outcome_get]
  simp only
  split
  · rfl
  · cases follow d.tree [] (d.draftSteps path) <;> rfl

theorem outcome_change {path : Path} (hnull : path.hasNull = false)
    (f : Disk → Except Refusal Disk) (d : Disk) :
    (change path f).outcome d =
      match f d with
      | .ok after => (.ok (), after)
      | .error refusal => (.error (.refused path.text refusal.text), d) := by
  unfold change
  rw [outcome_bind, outcome_checkPath, hnull]
  simp only [Bool.false_eq_true, if_false]
  rw [outcome_bind, outcome_get]
  simp only
  cases f d <;> rfl

/-- Writing a file where nothing is: its draft is checked, and then it is moved to its place. -/
theorem outcome_writeFile {path : Path} (content : Content) (hfree : d.exists? path = .ok false) :
    (writeFile path content false).outcome d =
      (do checkDraft path; change path (·.moveTo path content) : FileM Unit).outcome d := by
  unfold writeFile
  simp only [Bool.false_eq_true, if_false]
  rw [outcome_bind, outcome_inspect, hfree]
  simp only [Bool.false_eq_true, if_false]

section Below

variable (h : Rooted d root top) {steps : List String} {name : String}
  (hforward : ".." ∉ steps ++ [name]) (habove : d.tree.item? (top ++ steps) ≠ none)

include h hforward habove

/-- Growth of the disk has no influence on the check of a draft. -/
theorem outcome_checkDraft_of_grows {later : Disk} (hgrows : Grows d later) :
    (checkDraft (root.below (steps ++ [name]))).outcome later =
      (((checkDraft (root.below (steps ++ [name]))).outcome d).1, later) := by
  have hsteps : ".." ∉ steps := fun hmem => hforward (by simp [hmem])
  have hdraft : later.draftSteps (root.below (steps ++ [name])) =
      d.draftSteps (root.below (steps ++ [name])) := by
    rw [draftSteps_below h hsteps, draftSteps_below (h.grows hgrows) hsteps]
  have hfollow := follow_of_grows hgrows rfl (follow_draft_ne_missing h hsteps habove name)
  rw [outcome_checkDraft, outcome_checkDraft, hdraft, hfollow]

/-- A draft is moved to its place, or this is refused for good. -/
theorem change_moveTo_below (hfree : d.exists? (root.below (steps ++ [name])) = .ok false)
    {content : Content} {result : Except Failure Unit} {after : Disk}
    (hrun : (change (root.below (steps ++ [name]))
      (·.moveTo (root.below (steps ++ [name])) content)).outcome d = (result, after))
    (hdeliberate : Deliberate result) :
    (result = .ok () ∧
      Adds (fun place item => place = top ++ (steps ++ [name]) ∧ item = .file content) d after ∧
      after.exists? (root.below (steps ++ [name])) = .ok true) ∨
    ((∃ failure, result = .error failure) ∧ after = d ∧
      ∀ later, Grows d later → ∃ failure, (change (root.below (steps ++ [name]))
        (·.moveTo (root.below (steps ++ [name])) content)).outcome later =
          (.error failure, later)) := by
  have hname : name ≠ ".." := by
    rintro rfl
    simp at hforward
  cases hnull : (root.below (steps ++ [name])).hasNull with
  | true =>
      unfold change at hrun
      rw [outcome_bind, outcome_checkPath, if_pos hnull] at hrun
      obtain ⟨rfl, rfl⟩ := Prod.mk.injEq .. ▸ hrun
      exact absurd (hdeliberate _ rfl) (by decide)
  | false =>
      have hmove : ∀ disk : Disk, disk.moveTo (root.below (steps ++ [name])) content =
          disk.write (root.below (steps ++ [name])) content := fun disk => by
        simp only [moveTo, Path.isNamed_below root steps hname, if_true]
      rw [outcome_change hnull, hmove] at hrun
      cases hlocate : d.locate (root.below (steps ++ [name])) with
      | ok place =>
          obtain ⟨refusal, -, hitem⟩ := exists?_false hfree hnull
          have hnone : d.tree.item? place = none := by
            cases hplace : d.tree.item? place with
            | none => rfl
            | some item => simp [itemAt_of_locate hlocate hplace] at hitem
          obtain ⟨after', hwrite, hadds, hafter⟩ :=
            exists_write_below h hforward content hlocate hnone
          rw [hwrite] at hrun
          obtain ⟨rfl, rfl⟩ := Prod.mk.injEq .. ▸ hrun
          exact .inl ⟨rfl, hadds, exists?_true_iff.mpr ⟨hnull, _, hafter⟩⟩
      | error refusal =>
          have hwrite : ∀ disk : Disk, disk.locate (root.below (steps ++ [name])) =
              .error refusal → disk.write (root.below (steps ++ [name])) content =
                .error refusal := by
            intro disk hdisk
            rw [write, hdisk]
            rfl
          rw [hwrite d hlocate] at hrun
          obtain ⟨rfl, rfl⟩ := Prod.mk.injEq .. ▸ hrun
          -- the directory above is there, so nothing was missing, and every other refusal stays
          refine .inr ⟨⟨_, rfl⟩, rfl, fun later hgrows => ?_⟩
          have hmissing := locate_concat_ne_missing h hforward habove
          rw [hlocate] at hmissing
          rw [outcome_change hnull, hmove, hwrite later (locate_of_grows hgrows hlocate hmissing)]
          exact ⟨_, rfl⟩

/-- What writing a file comes to where nothing is, below a directory that is there: the file is
written, or it is refused for good. -/
theorem writeFile_below (hfree : d.exists? (root.below (steps ++ [name])) = .ok false)
    {content : Content} {result : Except Failure Unit} {after : Disk}
    (hrun : (writeFile (root.below (steps ++ [name])) content false).outcome d = (result, after))
    (hdeliberate : Deliberate result) :
    (result = .ok () ∧
      Adds (fun place item => place = top ++ (steps ++ [name]) ∧ item = .file content) d after ∧
      after.exists? (root.below (steps ++ [name])) = .ok true) ∨
    ((∃ failure, result = .error failure) ∧ after = d ∧
      ∀ later, Grows d later → later.exists? (root.below (steps ++ [name])) = .ok false →
        ∃ failure, (writeFile (root.below (steps ++ [name])) content false).outcome later =
          (.error failure, later)) := by
  have hdraft {later : Disk} (hgrows : Grows d later) :=
    outcome_checkDraft_of_grows h hforward habove hgrows
  have hself : Grows d d := Adds.refl _ d
  rw [outcome_writeFile content hfree, outcome_bind, hdraft hself] at hrun
  cases hcheck : ((checkDraft (root.below (steps ++ [name]))).outcome d).1 with
  | error failure =>
      rw [hcheck] at hrun
      obtain ⟨rfl, rfl⟩ := Prod.mk.injEq .. ▸ hrun
      refine .inr ⟨⟨_, rfl⟩, rfl, fun later hgrows hfree' => ?_⟩
      rw [outcome_writeFile content hfree', outcome_bind, hdraft hgrows, hcheck]
      exact ⟨_, rfl⟩
  | ok _ =>
      rw [hcheck] at hrun
      refine (change_moveTo_below h hforward habove hfree hrun hdeliberate).imp_right ?_
      rintro ⟨hresult, hafter, hrefused⟩
      refine ⟨hresult, hafter, fun later hgrows hfree' => ?_⟩
      rw [outcome_writeFile content hfree', outcome_bind, hdraft hgrows, hcheck]
      exact hrefused later hgrows

end Below

end FileM

end PackageScaffold
