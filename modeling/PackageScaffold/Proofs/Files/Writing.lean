import PackageScaffold.Proofs.Except
import PackageScaffold.Proofs.Files.Place

/-!
# Writing one file among others

A file that is written takes its own place and no other, and a write that is refused changes
nothing.  Which way a path goes, and how far, depends on the directories of a disk alone.  So a
write that leaves the directories where they are has no influence on the writing of a file at
another place.

* `Content.unifyLines_eq_self`: a text without carriage returns is read as it is written;
* `SameDirectories`: two disks have their directories in the same places;
* `exists?_congr`: there, a path shows the same as long as its own place is taken or free;
* `write_spec`, `eq_of_writeFile_eq_error`: what a write leaves, whether it is done or refused;
* `saveText_eq_ok`: a text that was saved is found again;
* `exists_writeFile_congr`: a file that can be written on one disk can be written on the other.
-/

namespace PackageScaffold

/-! ## Ends of lines -/

namespace Content

/-- A piece without carriage returns is read as it is written, whatever follows. -/
theorem unifyLines_eq_append {piece : List Char} (hreturn : '\r' ∉ piece) (rest : List Char) :
    unifyLines (piece ++ rest) = piece ++ unifyLines rest := by
  induction piece with
  | nil => rfl
  | cons c piece ih =>
      rw [List.mem_cons, not_or] at hreturn
      rw [List.cons_append, unifyLines, ih hreturn.2, List.cons_append]
      · exact fun more heq => absurd heq.symm hreturn.1
      · exact fun heq => absurd heq.symm hreturn.1

theorem unifyLines_eq_self {cs : List Char} (hreturn : '\r' ∉ cs) : unifyLines cs = cs := by
  simpa [unifyLines] using unifyLines_eq_append hreturn []

end Content

namespace Disk

variable {d d₁ d₂ : Disk} {path : Path}

/-! ## Disks with the same directories -/

/-- Where the directories of one tree are directories as well, its steps are followed as far. -/
theorem follow_of_directories {before after : FileTree}
    (h : ∀ place, before.item? place = some .directory → after.item? place = some .directory)
    {done steps : List String} {result : Except Refusal (List String)}
    (hfollow : Disk.follow before done steps = result) (hmissing : result ≠ .error .missing)
    (hfile : result ≠ .error .notDirectory) : Disk.follow after done steps = result := by
  induction steps generalizing done with
  | nil => exact hfollow
  | cons step steps ih =>
      simp only [Disk.follow] at hfollow ⊢
      rcases hget : before.get? done with _ | content | entries
      · rw [hget] at hfollow
        exact absurd hfollow.symm hmissing
      · rw [hget] at hfollow
        exact absurd hfollow.symm hfile
      · rw [hget] at hfollow
        obtain ⟨entries', hafter⟩ := FileTree.item?_eq_directory_iff.mp
          (h done (FileTree.item?_eq_directory_iff.mpr ⟨entries, hget⟩))
        rw [hafter]
        simp only at hfollow ⊢
        split
        · rw [if_pos ‹_›] at hfollow
          exact ih hfollow
        · rw [if_neg ‹_›] at hfollow
          split
          · rw [if_pos ‹_›] at hfollow
            exact hfollow
          · rw [if_neg ‹_›] at hfollow
            exact ih hfollow

/-- Two disks have their directories in the same places. -/
structure SameDirectories (before after : Disk) : Prop where
  working : after.working = before.working
  item?_iff : ∀ steps, after.tree.item? steps = some .directory ↔
    before.tree.item? steps = some .directory

namespace SameDirectories

theorem refl (d : Disk) : SameDirectories d d :=
  ⟨rfl, fun _ => Iff.rfl⟩

theorem symm (h : SameDirectories d d₁) : SameDirectories d₁ d :=
  ⟨h.working.symm, fun steps => (h.item?_iff steps).symm⟩

theorem trans (h₁ : SameDirectories d d₁) (h₂ : SameDirectories d₁ d₂) : SameDirectories d d₂ :=
  ⟨h₂.working.trans h₁.working, fun steps => (h₂.item?_iff steps).trans (h₁.item?_iff steps)⟩

/-- Steps are followed through directories alone; only what else stands in their way can differ. -/
theorem follow (h : SameDirectories d d₁) {done steps : List String}
    {result : Except Refusal (List String)} (hfollow : Disk.follow d.tree done steps = result)
    (hmissing : result ≠ .error .missing) (hfile : result ≠ .error .notDirectory) :
    Disk.follow d₁.tree done steps = result :=
  follow_of_directories (fun place => (h.item?_iff place).mpr) hfollow hmissing hfile

theorem locate (h : SameDirectories d d₁) {result : Except Refusal (List String)}
    (hlocate : d.locate path = result) (hmissing : result ≠ .error .missing)
    (hfile : result ≠ .error .notDirectory) : d₁.locate path = result := by
  have hstart : d₁.start path = d.start path := by simp only [start, h.working]
  unfold Disk.locate at hlocate ⊢
  split
  · rw [if_pos ‹_›] at hlocate
    exact hlocate
  · rw [if_neg ‹_›] at hlocate
    rw [hstart]
    exact h.follow hlocate hmissing hfile

end SameDirectories

/-- What a path shows is decided by the directories and by whether its own place is taken. -/
theorem exists?_congr (h : SameDirectories d d₁)
    (hplace : (d₁.tree.item? (d.place path)).isSome = (d.tree.item? (d.place path)).isSome) :
    d₁.exists? path = d.exists? path := by
  rw [exists?_eq, exists?_eq, itemAt_eq, itemAt_eq]
  cases hlocate : d.locate path with
  | ok steps =>
      obtain rfl := eq_place_of_locate hlocate
      rw [h.locate hlocate (by simp) (by simp)]
      simp only [Except.bind]
      cases hbefore : d.tree.item? (d.place path) <;>
        cases hafter : d₁.tree.item? (d.place path) <;> simp_all
  | error refusal =>
      cases hlocate' : d₁.locate path with
      | ok steps => simp [h.symm.locate hlocate' (by simp) (by simp)] at hlocate
      | error refusal' =>
          -- both refusals mean that nothing is there, unless the path is too long
          have htooLong : refusal = .tooLong ↔ refusal' = .tooLong := by
            constructor
            · rintro rfl
              simpa [hlocate'] using h.locate hlocate (by simp) (by simp)
            · rintro rfl
              simpa [hlocate] using h.symm.locate hlocate' (by simp) (by simp)
          simp only [Except.bind]
          cases refusal <;> cases refusal' <;> simp_all

/-! ## A file at its place -/

/-- A path that ends in a name leads to something in the directory that it passes last. -/
theorem exists_place_of_isNamed (hnamed : path.isNamed = true) {steps : List String}
    (hlocate : d.locate path = .ok steps) :
    ∃ above name, d.place path = above ++ [name] ∧ d.tree.item? above = some .directory := by
  unfold Path.isNamed at hnamed
  cases hlast : path.steps.getLast? with
  | none => simp [hlast] at hnamed
  | some name =>
      obtain ⟨above, hsteps⟩ := List.getLast?_eq_some_iff.mp hlast
      have hback : (name == "..") = false := by simpa [hlast] using hnamed
      refine ⟨above.foldl advance (d.start path), name, ?_,
        isDirectory_of_follow (follow_of_locate hlocate) ⟨[], by rw [List.append_nil, hsteps]⟩⟩
      rw [place, hsteps, List.foldl_append, List.foldl_cons, List.foldl_nil, advance, hback]
      rfl

/-- What is known once a file has been written at its place. -/
theorem write_eq_ok {content : Content} {after : Disk} (h : d.write path content = .ok after) :
    d.locate path = .ok (d.place path) ∧
      ∃ tree, d.tree.write content (d.place path) = .ok tree ∧ { d with tree } = after := by
  obtain ⟨steps, hlocate, h⟩ := bind_eq_ok h
  obtain rfl := eq_place_of_locate hlocate
  obtain ⟨tree, hwrite, h⟩ := bind_eq_ok h
  exact ⟨hlocate, tree, hwrite, Except.ok.inj h⟩

/-- A file that has been written at its place is all that has changed, and no
directory was there. -/
theorem write_spec {content : Content} {after : Disk} (h : d.write path content = .ok after) :
    SameDirectories d after ∧ ∀ steps, after.tree.item? steps =
      if steps = d.place path then some (.file content) else d.tree.item? steps := by
  obtain ⟨-, tree, hwrite, rfl⟩ := write_eq_ok h
  have hview := FileTree.item?_write hwrite
  refine ⟨⟨rfl, fun steps => ?_⟩, hview⟩
  rw [show ({ d with tree } : Disk).tree = tree from rfl, hview]
  split
  · rename_i heq
    simp [heq, FileTree.item?_ne_directory_of_write hwrite]
  · rfl

/-- The content that was written is the one that is found. -/
theorem content_of_write {content : Content} {after : Disk} (h : d.write path content = .ok after) :
    after.content path = .ok content := by
  obtain ⟨hsame, hview⟩ := write_spec h
  have hitem : after.itemAt path = .ok (.file content) := by
    refine itemAt_of_locate (hsame.locate (write_eq_ok h).1 (by simp) (by simp)) ?_
    rw [hview, if_pos rfl]
  obtain ⟨tree, hfind, htree⟩ := map_eq_ok hitem
  unfold Disk.content
  rw [hfind]
  cases tree with
  | file found => exact congrArg Except.ok (Item.file.inj htree)
  | directory entries => cases htree

/-- A file is moved only to a place that has a name, and is written there. -/
theorem write_of_moveTo {content : Content} {after : Disk} (h : d.moveTo path content = .ok after) :
    path.isNamed = true ∧ d.write path content = .ok after := by
  unfold moveTo at h
  split at h
  · exact ⟨‹_›, h⟩
  · obtain ⟨_, -, hbusy⟩ := bind_eq_ok h
    cases hbusy

/-- What is known once a file has been moved to its place. -/
theorem moveTo_eq_ok {content : Content} {after : Disk} (h : d.moveTo path content = .ok after) :
    path.isNamed = true ∧ d.locate path = .ok (d.place path) ∧
      ∃ tree, d.tree.write content (d.place path) = .ok tree ∧ { d with tree } = after := by
  obtain ⟨hnamed, hwrite⟩ := write_of_moveTo h
  exact ⟨hnamed, write_eq_ok hwrite⟩

/-- A file that has been moved to its place is all that has changed, and no directory was there. -/
theorem moveTo_spec {content : Content} {after : Disk} (h : d.moveTo path content = .ok after) :
    SameDirectories d after ∧ ∀ steps, after.tree.item? steps =
      if steps = d.place path then some (.file content) else d.tree.item? steps :=
  write_spec (write_of_moveTo h).2

/-- A file that can be moved to its place on one disk can be moved there on the other. -/
theorem exists_moveTo_congr (h : SameDirectories d d₁) {content : Content} {after : Disk}
    (hmove : d.moveTo path content = .ok after) :
    ∃ after₁, d₁.moveTo path content = .ok after₁ := by
  obtain ⟨hnamed, hlocate, tree, hwrite, -⟩ := moveTo_eq_ok hmove
  obtain ⟨above, name, hplace, habove⟩ := exists_place_of_isNamed hnamed hlocate
  have hfree := FileTree.item?_ne_directory_of_write hwrite
  rw [hplace] at hfree
  obtain ⟨tree₁, hwrite₁⟩ := FileTree.exists_write content ((h.item?_iff above).mpr habove)
    (mt (h.item?_iff _).mp hfree)
  refine ⟨{ d₁ with tree := tree₁ }, ?_⟩
  rw [moveTo, if_pos hnamed, write, h.locate hlocate (by simp) (by simp), hplace]
  simp [hwrite₁, bind, Except.bind, pure, Except.pure]

end Disk

namespace FileM

open Disk

variable {d d₁ : Disk} {path : Path} {content : Content} {overwrite : Bool}

/-! ## Writing a file -/

/-- Where nothing is or may be overwritten, the draft of a file is checked and moved
to its place. -/
theorem outcome_writeFile_of_free (content : Content)
    (hfree : overwrite = false → d.exists? path = .ok false) :
    (writeFile path content overwrite).outcome d =
      (do checkDraft path; change path (·.moveTo path content) : FileM Unit).outcome d := by
  cases overwrite with
  | false => exact outcome_writeFile content (hfree rfl)
  | true => simp [writeFile]

/-- What is known once a disk has been changed. -/
theorem change_eq_ok {f : Disk → Except Refusal Disk} {after : Disk}
    (h : (change path f).outcome d = (.ok (), after)) : path.hasNull = false ∧ f d = .ok after := by
  cases hnull : path.hasNull with
  | true =>
      simp only [change, outcome_bind, outcome_checkPath, if_pos hnull] at h
      simp at h
  | false =>
      refine ⟨rfl, ?_⟩
      rw [outcome_change hnull] at h
      cases hchange : f d with
      | error refusal => simp [hchange] at h
      | ok last => simpa [hchange] using h

/-- A text that was saved is the content of its file. -/
theorem saveText_eq_ok {text : String} {after : Disk}
    (h : (saveText path text).outcome d = (.ok (), after)) :
    path.hasNull = false ∧ after.content path = .ok (.text text) := by
  unfold saveText at h
  rw [outcome_bind] at h
  rcases hmake : (makeFor path path.parent).outcome d with ⟨failure | _, made⟩
  · simp [hmake] at h
  · rw [hmake] at h
    obtain ⟨hnull, hwrite⟩ := change_eq_ok h
    exact ⟨hnull, content_of_write hwrite⟩

/-- What is known once a file has been written. -/
theorem writeFile_eq_ok {after : Disk}
    (h : (writeFile path content overwrite).outcome d = (.ok (), after)) :
    (overwrite = false → d.exists? path = .ok false) ∧
      ((checkDraft path).outcome d).1 = .ok () ∧ path.hasNull = false ∧
      d.moveTo path content = .ok after := by
  have hfree : overwrite = false → d.exists? path = .ok false := by
    rintro rfl
    unfold writeFile at h
    simp only [Bool.false_eq_true, if_false] at h
    rw [outcome_bind, outcome_inspect] at h
    cases hexists : d.exists? path with
    | error failure => simp [hexists] at h
    | ok isThere =>
        cases isThere with
        | false => rfl
        | true =>
            rw [hexists] at h
            simp only [if_true, outcome_bind, outcome_throw] at h
            simp at h
  rw [outcome_writeFile_of_free content hfree, outcome_bind] at h
  have hdisk : ((checkDraft path).outcome d).2 = d := by rw [outcome_checkDraft]
  rcases hcheck : (checkDraft path).outcome d with ⟨failure | _, middle⟩
  · simp [hcheck] at h
  · rw [hcheck] at hdisk h
    subst hdisk
    exact ⟨hfree, rfl, change_eq_ok h⟩

/-- A file is written if nothing speaks against it. -/
theorem outcome_writeFile_ok (hfree : overwrite = false → d.exists? path = .ok false)
    (hdraft : ((checkDraft path).outcome d).1 = .ok ()) (hnull : path.hasNull = false)
    {after : Disk}
    (hmove : d.moveTo path content = .ok after) :
    (writeFile path content overwrite).outcome d = (.ok (), after) := by
  rw [outcome_checkDraft] at hdraft
  simp only at hdraft
  rw [outcome_writeFile_of_free content hfree, outcome_bind, outcome_checkDraft, hdraft]
  simp only [outcome_change hnull, hmove]

/-- A write that fails leaves the disk as it is. -/
theorem eq_of_writeFile_eq_error {failure : Failure} {after : Disk}
    (h : (writeFile path content overwrite).outcome d = (.error failure, after)) : after = d := by
  -- either the file is in the way, which is noticed first, or only the move could change anything
  by_cases hfree : overwrite = false → d.exists? path = .ok false
  · rw [outcome_writeFile_of_free content hfree, outcome_bind, outcome_checkDraft] at h
    split at h
    · rename_i hcheck
      obtain rfl := congrArg Prod.snd hcheck
      cases hnull : path.hasNull with
      | true =>
          simp only [change, outcome_bind, outcome_checkPath, if_pos hnull] at h
          exact (congrArg Prod.snd h).symm
      | false =>
          rw [outcome_change hnull] at h
          cases hmove : d.moveTo path content with
          | error refusal => simpa [hmove, eq_comm] using congrArg Prod.snd h
          | ok last => simp [hmove] at h
    · rename_i hcheck
      obtain rfl := congrArg Prod.snd hcheck
      exact (congrArg Prod.snd h).symm
  · simp only [Classical.not_imp] at hfree
    obtain ⟨rfl, hoccupied⟩ := hfree
    unfold writeFile at h
    simp only [Bool.false_eq_true, if_false, outcome_bind, outcome_inspect] at h
    cases hexists : d.exists? path with
    | error failure => simpa [hexists, eq_comm] using congrArg Prod.snd h
    | ok isThere =>
        cases isThere with
        | false => exact absurd hexists hoccupied
        | true =>
            rw [hexists] at h
            simp only [if_true, outcome_bind, outcome_throw] at h
            exact (congrArg Prod.snd h).symm

/-- On disks with the same directories, the same drafts can be made. -/
theorem checkDraft_congr (h : SameDirectories d d₁)
    (hdraft : ((checkDraft path).outcome d).1 = .ok ()) :
    ((checkDraft path).outcome d₁).1 = .ok () := by
  have hsteps : d₁.draftSteps path = d.draftSteps path := by
    simp only [draftSteps, start, h.working]
  rw [outcome_checkDraft] at hdraft ⊢
  rw [hsteps]
  simp only at hdraft ⊢
  split at hdraft
  · simp at hdraft
  · rw [if_neg ‹_›]
    cases hfollow : follow d.tree [] (d.draftSteps path) with
    | error refusal => simp [hfollow] at hdraft
    | ok steps => rw [h.follow hfollow (by simp) (by simp)]

/-- Where directories are the same, and its place is taken or free as before or may be overwritten,
a file that can be written on one disk can be written on the other. -/
theorem exists_writeFile_congr (h : SameDirectories d d₁)
    (hplace : overwrite = false →
      (d₁.tree.item? (d.place path)).isSome = (d.tree.item? (d.place path)).isSome) {after : Disk}
    (hwrite : (writeFile path content overwrite).outcome d = (.ok (), after)) :
    ∃ after₁, (writeFile path content overwrite).outcome d₁ = (.ok (), after₁) := by
  obtain ⟨hfree, hdraft, hnull, hmove⟩ := writeFile_eq_ok hwrite
  obtain ⟨after₁, hmove₁⟩ := exists_moveTo_congr h hmove
  refine ⟨after₁, outcome_writeFile_ok (fun hover => ?_) (checkDraft_congr h hdraft) hnull hmove₁⟩
  rw [exists?_congr h (hplace hover), hfree hover]

end FileM

end PackageScaffold
