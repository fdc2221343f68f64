import PackageScaffold.Proofs.Files.Writing

/-!
# Computations that keep what is there

Whatever a computation comes to, the disk that it leaves may still have a property that the disk had
before.  A computation has this from its steps, so it is shown for the steps that change a disk, and
carried on by the equations for outcomes.

Work on a disk may also have leave to replace some of the files.  Everything else stays: the
directories, so that paths lead where they led before, and the files at all other places.

* `FileM.Keeps`: a property of disks that a computation keeps, with a lemma for each way of putting
  computations together;
* `keeps_makeFor`, `keeps_writeFile`: making directories, and writing files without leave to
  overwrite, keep everything that is on a disk, wherever their paths lead;
* `Disk.Spares`: what was on a disk is still there, apart from files that may have been replaced;
* `Spares.locate`, `Spares.itemAt`, `Spares.exists?_true`: what paths show afterwards;
* `keeps_of_grows`, `keeps_writeFile_sparing`: work that only adds spares everything, and the writing of
  a file everything but its own place;
* `exists?_of_writeFile`: a file that was written is there.
-/

namespace PackageScaffold

/-! ## Changes that only add -/

namespace FileTree

/-- Directories are made below directories only. -/
theorem eq_directory_of_makeDirectory {tree after : FileTree} {made steps : List String}
    {item : Item} (h : tree.makeDirectory made = .ok after) (hsteps : steps <+: made)
    (hitem : tree.item? steps = some item) : item = .directory := by
  induction made generalizing tree after steps with
  | nil =>
      obtain rfl := List.prefix_nil.mp hsteps
      cases tree with
      | file content => simp [makeDirectory] at h
      | directory entries => simpa [FileTree.item] using hitem.symm
  | cons step made ih =>
      cases tree with
      | file content => simp [makeDirectory] at h
      | directory entries =>
          cases steps with
          | nil => simpa [FileTree.item] using hitem.symm
          | cons s steps =>
              obtain ⟨rfl, hmade⟩ := List.cons_prefix_cons.mp hsteps
              rw [item?_directory_cons] at hitem
              rw [makeDirectory_cons] at h
              cases hlookup : entries.lookup s with
              | none => simp [hlookup] at hitem
              | some tree =>
                  rw [hlookup] at hitem h
                  cases hbelow : tree.makeDirectory made with
                  | error refusal => simp [hbelow, Except.map] at h
                  | ok below => exact ih hbelow hmade hitem

end FileTree

namespace Disk

variable {d after : Disk} {path : Path}

theorem grows_makeOne (h : d.makeOne path = .ok after) : Grows d after := by
  unfold makeOne at h
  cases hlocate : d.locate path with
  | error refusal => simp [hlocate, bind, Except.bind] at h
  | ok steps =>
      simp only [hlocate, bind, Except.bind] at h
      split at h
      · simp at h
      · cases hmake : d.tree.makeDirectory steps with
        | error refusal => simp [hmake] at h
        | ok tree =>
            obtain rfl : { d with tree } = after := by
              simpa [hmake, pure, Except.pure] using h
            refine ⟨rfl, fun {place item} hitem => ?_, fun _ _ => trivial⟩
            rw [FileTree.item?_makeDirectory hmake]
            split
            · rw [FileTree.eq_directory_of_makeDirectory hmake ‹_› hitem]
            · exact hitem

theorem grows_allowDirectory (d : Disk) (path : Path) (refusal : Refusal) :
    Grows d (d.allowDirectory path refusal).1 := by
  rw [allowDirectory_eq]
  split <;> exact Adds.refl _ d

theorem grows_makeFrom (anchor : Anchor) (d : Disk) (steps : List String) :
    Grows d (makeFrom anchor d steps).1 := by
  induction steps generalizing d with
  | nil => exact Adds.refl _ d
  | cons step above ih =>
      rw [makeFrom]
      split
      · rename_i hmake
        exact grows_makeOne hmake
      · have habove := ih d
        split
        · rename_i hfrom
          rwa [hfrom] at habove
        · rename_i hfrom
          rw [hfrom] at habove
          split
          · rename_i hmake
            exact habove.trans (grows_makeOne hmake)
          · exact habove.trans (grows_allowDirectory _ _ _)
      · exact grows_allowDirectory _ _ _

theorem grows_makeDirectory (d : Disk) (path : Path) : Grows d (d.makeDirectory path).1 :=
  grows_makeFrom path.anchor d path.steps.reverse

/-- A file that is moved to a path at which nothing is takes no place that is taken. -/
theorem grows_moveTo {content : Content} (hnull : path.hasNull = false)
    (hfree : d.exists? path = .ok false) (h : d.moveTo path content = .ok after) :
    Grows d after := by
  obtain ⟨-, hlocate, tree, hwrite, rfl⟩ := moveTo_eq_ok h
  obtain ⟨refusal, -, hitem⟩ := exists?_false hfree hnull
  refine (adds_of_write hwrite ?_).grows
  cases hplace : d.tree.item? (d.place path) with
  | none => rfl
  | some item => simp [itemAt_of_locate hlocate hplace] at hitem

end Disk

namespace FileM

open Disk

variable {α β : Type} {I : Disk → Prop}

/-! ## Properties that computations keep -/

/-- The disk that a computation leaves has a property if the disk before had it, whether the
computation fails or not. -/
def Keeps (I : Disk → Prop) (x : FileM α) : Prop :=
  ∀ d, I d → I (x.outcome d).2

namespace Keeps

theorem pure (a : α) : Keeps I (Pure.pure a : FileM α) :=
  fun _ h => h

theorem throw (failure : Failure) : Keeps I (MonadExcept.throw failure : FileM α) :=
  fun _ h => h

/-- Nothing is done behind a failure. -/
theorem throw_bind (failure : Failure) (f : α → FileM β) :
    Keeps I ((MonadExcept.throw failure : FileM α) >>= f) :=
  fun _ h => h

theorem get : Keeps I (MonadState.get : FileM Disk) :=
  fun _ h => h

theorem look (f : Disk → α) : Keeps I (FileM.look f) :=
  fun _ h => h

theorem inspect (f : Disk → Except Failure α) : Keeps I (FileM.inspect f) := by
  intro d h
  rwa [outcome_inspect]

theorem bind {x : FileM α} {f : α → FileM β} (hx : Keeps I x) (hf : ∀ a, Keeps I (f a)) :
    Keeps I (x >>= f) := by
  intro d h
  have hmiddle := hx d h
  rw [outcome_bind]
  rcases houtcome : x.outcome d with ⟨failure | a, middle⟩ <;> rw [houtcome] at hmiddle
  · exact hmiddle
  · exact hf a middle hmiddle

theorem tryCatch {x : FileM α} {handle : Failure → FileM α} (hx : Keeps I x)
    (hhandle : ∀ failure, Keeps I (handle failure)) : Keeps I (tryCatchThe Failure x handle) := by
  intro d h
  have hmiddle := hx d h
  change I ((MonadExcept.tryCatch x handle).outcome d).2
  rw [outcome_tryCatch]
  rcases houtcome : x.outcome d with ⟨failure | a, middle⟩ <;> rw [houtcome] at hmiddle
  · exact hhandle failure middle hmiddle
  · exact hmiddle

theorem checkPath (path : Path) : Keeps I (FileM.checkPath path) := by
  intro d h
  rwa [outcome_checkPath]

end Keeps

/-! ## Keeping what is on a disk -/

variable {base : Disk}

theorem keeps_makeFor (path directory : Path) : Keeps (Grows base) (makeFor path directory) := by
  refine .bind (.checkPath path) fun _ => ?_
  intro d h
  have hgrows := h.trans (grows_makeDirectory d directory)
  rw [outcome_bind, outcome_get]
  simp only
  rcases hmake : d.makeDirectory directory with ⟨after, _ | refusal⟩
  · rw [hmake] at hgrows
    exact hgrows
  · rw [hmake] at hgrows
    exact hgrows

theorem keeps_writeFile (path : Path) (content : Content) :
    Keeps (Grows base) (writeFile path content false) := by
  intro d h
  cases hexists : d.exists? path with
  | error failure =>
      unfold writeFile
      simp only [Bool.false_eq_true, if_false, outcome_bind, outcome_inspect, hexists]
      exact h
  | ok isThere =>
      cases isThere with
      | true =>
          unfold writeFile
          simp only [Bool.false_eq_true, if_false, outcome_bind, outcome_inspect, hexists]
          exact h
      | false =>
          -- the draft is only checked, so the disk is still the one that was looked at
          rw [outcome_writeFile content hexists, outcome_bind, outcome_checkDraft]
          split
          · rename_i hcheck
            obtain ⟨-, rfl⟩ := Prod.mk.injEq .. ▸ hcheck
            cases hnull : path.hasNull with
            | true =>
                rw [change, outcome_bind, outcome_checkPath, if_pos hnull]
                exact h
            | false =>
                rw [outcome_change hnull]
                cases hmove : d.moveTo path content with
                | error refusal => exact h
                | ok after => exact h.trans (grows_moveTo hnull hexists hmove)
          · rename_i hcheck
            obtain ⟨-, rfl⟩ := Prod.mk.injEq .. ▸ hcheck
            exact h

end FileM

/-! ## Sparing all but some files -/

namespace Disk

variable {isOpen : List String → Prop} {d d₁ d₂ : Disk} {path : Path} {place : List String}

/-- Everything on a disk is still there.  Only a file at an open place may be another one now. -/
structure Spares (isOpen : List String → Prop) (before after : Disk) : Prop where
  working : after.working = before.working
  keeps : ∀ {place item}, before.tree.item? place = some item →
    after.tree.item? place = some item ∨
      isOpen place ∧ item ≠ .directory ∧ ∃ content, after.tree.item? place = some (.file content)

namespace Spares

theorem of_grows (h : Grows d d₁) : Spares isOpen d d₁ :=
  ⟨h.working, fun hitem => .inl (h.keeps hitem)⟩

theorem refl (isOpen : List String → Prop) (d : Disk) : Spares isOpen d d :=
  ⟨rfl, fun hitem => .inl hitem⟩

theorem trans (h₁ : Spares isOpen d d₁) (h₂ : Spares isOpen d₁ d₂) : Spares isOpen d d₂ where
  working := h₂.working.trans h₁.working
  keeps hitem := by
    rcases h₁.keeps hitem with hkept | ⟨hopen, hfile, content, hwritten⟩
    · exact h₂.keeps hkept
    · rcases h₂.keeps hwritten with hkept | ⟨-, -, hagain⟩
      · exact .inr ⟨hopen, hfile, content, hkept⟩
      · exact .inr ⟨hopen, hfile, hagain⟩

theorem directory (h : Spares isOpen d d₁) (hitem : d.tree.item? place = some .directory) :
    d₁.tree.item? place = some .directory := by
  rcases h.keeps hitem with hkept | ⟨-, hfile, -⟩
  · exact hkept
  · exact absurd rfl hfile

theorem item? (h : Spares isOpen d d₁) (hclosed : ¬ isOpen place) {item : Item}
    (hitem : d.tree.item? place = some item) : d₁.tree.item? place = some item :=
  (h.keeps hitem).resolve_right fun hreplaced => hclosed hreplaced.1

/-- A path that leads somewhere still leads there. -/
theorem locate (h : Spares isOpen d d₁) (hlocate : d.locate path = .ok place) :
    d₁.locate path = .ok place := by
  have hstart : d₁.start path = d.start path := by simp only [start, h.working]
  unfold Disk.locate at hlocate ⊢
  split at hlocate
  · simp at hlocate
  · rw [if_neg ‹_›, hstart]
    exact follow_of_directories (fun _ => h.directory) hlocate (by simp) (by simp)

/-- What a path to a closed place shows does not change. -/
theorem itemAt (h : Spares isOpen d d₁) (hclosed : ¬ isOpen (d.place path)) {item : Item}
    (hitem : d.itemAt path = .ok item) : d₁.itemAt path = .ok item := by
  obtain ⟨reached, hlocate, hfound⟩ := exists_locate_of_itemAt hitem
  obtain rfl := eq_place_of_locate hlocate
  exact itemAt_of_locate (h.locate hlocate) (h.item? hclosed hfound)

/-- A path at which something is still shows something. -/
theorem exists?_true (h : Spares isOpen d d₁) (hexists : d.exists? path = .ok true) :
    d₁.exists? path = .ok true := by
  obtain ⟨hnull, item, hitem⟩ := exists?_true_iff.mp hexists
  obtain ⟨reached, hlocate, hfound⟩ := exists_locate_of_itemAt hitem
  refine exists?_true_iff.mpr ⟨hnull, ?_⟩
  rcases h.keeps hfound with hkept | ⟨-, -, content, hwritten⟩
  · exact ⟨item, itemAt_of_locate (h.locate hlocate) hkept⟩
  · exact ⟨.file content, itemAt_of_locate (h.locate hlocate) hwritten⟩

/-- A root that is there stays there. -/
theorem rooted {root : Path} {top : List String} (h : Spares isOpen d d₁)
    (hrooted : Rooted d root top) :
    Rooted d₁ root top where
  noNull := hrooted.noNull
  located := h.locate hrooted.located
  isDirectory := h.directory hrooted.isDirectory

end Spares

/-- A file that is moved to its place spares all else. -/
theorem spares_moveTo {content : Content} (hopen : isOpen (d.place path))
    (h : d.moveTo path content = .ok d₁) : Spares isOpen d d₁ := by
  obtain ⟨hsame, hview⟩ := moveTo_spec h
  obtain ⟨-, -, tree, hwrite, -⟩ := moveTo_eq_ok h
  refine ⟨hsame.working, fun {place item} hitem => ?_⟩
  rw [hview]
  split
  · rename_i hplace
    subst hplace
    refine .inr ⟨hopen, ?_, content, rfl⟩
    rintro rfl
    exact FileTree.item?_ne_directory_of_write hwrite hitem
  · exact .inl hitem

end Disk

namespace FileM

open Disk

variable {α : Type} {isOpen : List String → Prop} {base : Disk}

/-- Work that only adds to what is there spares all of it. -/
theorem keeps_of_grows {x : FileM α} (h : ∀ d, Keeps (Grows d) x) : Keeps (Spares isOpen base) x :=
  fun d hspares => hspares.trans (.of_grows (h d d (Adds.refl _ d)))

/-- A file that may be replaced stands at an open place. -/
theorem keeps_writeFile_sparing {path : Path} {overwrite : Bool} (content : Content)
    (hopen : overwrite = true → isOpen (base.place path)) :
    Keeps (Spares isOpen base) (writeFile path content overwrite) := by
  cases overwrite with
  | false => exact keeps_of_grows fun _ => keeps_writeFile path content
  | true =>
      intro d h
      rcases hwrite : (writeFile path content true).outcome d with ⟨failure | _, after⟩
      · rw [eq_of_writeFile_eq_error hwrite]
        exact h
      · obtain ⟨-, -, -, hmove⟩ := writeFile_eq_ok hwrite
        refine h.trans (spares_moveTo ?_ hmove)
        rw [place_of_working h.working]
        exact hopen rfl

/-- A file that was written is there. -/
theorem exists?_of_writeFile {d d₁ : Disk} {path : Path} {content : Content} {overwrite : Bool}
    (h : (writeFile path content overwrite).outcome d = (.ok (), d₁)) :
    d₁.exists? path = .ok true := by
  obtain ⟨-, -, hnull, hmove⟩ := writeFile_eq_ok h
  obtain ⟨-, hlocate, -⟩ := moveTo_eq_ok hmove
  have hspares : Spares (· = d.place path) d d₁ := spares_moveTo rfl hmove
  refine exists?_true_iff.mpr ⟨hnull, .file content, itemAt_of_locate (hspares.locate hlocate) ?_⟩
  rw [(moveTo_spec hmove).2, if_pos rfl]

end FileM

end PackageScaffold
