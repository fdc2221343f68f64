import PackageScaffold.Proofs.Plan.CarryOut

/-!
# Completing a project

A plan is carried out on a disk from which some of what the plan makes is missing, and of which it
is known how it looks when everything is there.  Then the plan can be carried out: each directory
and each file can be made where it once was, and nothing comes up that was not there.

* `HoldsPlan`: everything that a plan makes stands on a disk;
* `carryOut_within`: on a disk that lacks some of it, the plan is carried out, and the result lies
  between the two disks.
-/

namespace PackageScaffold

open Disk FileM

/-- What is new on a disk is on another one, so this one holds all of it. -/
theorem Disk.Adds.within {new : List String → Item → Prop} {d after full : Disk}
    (h : Adds new d after) (hgrows : Grows d full)
    (hnew : ∀ place item, new place item → full.tree.item? place = some item) :
    Grows after full where
  working := hgrows.working.trans h.working.symm
  keeps {steps item} hitem := by
    rcases h.item?_cases hitem with hold | ⟨-, hadded⟩
    · exact hgrows.keeps hold
    · exact hnew steps item hadded
  adds _ _ := trivial

/-- A file of a plan stands at its path, and its draft could be written beside it. -/
structure HoldsFile (disk : Disk) (root : Path) (contents : Contents) (file : String) : Prop where
  inner : Path.IsInner file
  noNull : (root.extend file).hasNull = false
  content : ∃ text, contents.lookup file = some text ∧
    disk.itemAt (root.extend file) = .ok (.file (.text text))
  drafted : ((checkDraft (root.extend file)).outcome disk).1 = .ok ()

theorem HoldsFile.exists {disk : Disk} {root : Path} {contents : Contents} {file : String}
    (h : HoldsFile disk root contents file) : disk.exists? (root.extend file) = .ok true := by
  obtain ⟨text, -, hitem⟩ := h.content
  exact exists?_true_iff.mpr ⟨h.noNull, _, hitem⟩

/-- Everything that a plan makes stands on a disk. -/
structure HoldsPlan (disk : Disk) (root : Path) (entries : List PlanEntry) (contents : Contents) :
    Prop where
  directories : ∀ directory ∈ wantedDirectories entries,
    Path.IsInner directory ∧ disk.isDirectory (root.extend directory) = .ok true
  files : ∀ file ∈ plannedFiles entries, HoldsFile disk root contents file

theorem HoldsPlan.isInnerPlan {disk : Disk} {root : Path} {entries : List PlanEntry}
    {contents : Contents} (h : HoldsPlan disk root entries contents) : IsInnerPlan entries where
  directories directory hmem := (h.directories directory (List.mem_append_left _ hmem)).1
  files file hmem := (h.files file hmem).inner

variable {d full : Disk} {root : Path} {top : List String}

/-- Whatever is there in the end can be looked at before. -/
theorem exists?_ok_within (hgrows : Grows d full) {path : Path}
    (hfull : full.exists? path = .ok true) : ∃ isThere, d.exists? path = .ok isThere := by
  cases hexists : d.exists? path with
  | ok isThere => exact ⟨isThere, rfl⟩
  | error failure =>
      rw [exists?_error_of_grows hexists hgrows] at hfull
      simp at hfull

section Steps

variable (h : Rooted d root top) (hgrows : Grows d full)

include h hgrows

/-- A directory that is there in the end can be made. -/
theorem ensureDirectory_within {directory : String} (hinner : Path.IsInner directory)
    (hfull : full.isDirectory (root.extend directory) = .ok true) :
    ∃ after, (ensureDirectory (root.extend directory)).outcome d = (.ok (), after) ∧
      Grows d after ∧ Grows after full ∧ after.exists? (root.extend directory) = .ok true := by
  rw [Path.extend_eq_below hinner] at hfull ⊢
  obtain ⟨hnull, hitem⟩ := isDirectory_true_iff.mp hfull
  have hplace := (h.grows hgrows).item?_of_itemAt hinner.forward hitem
  obtain ⟨after, refusal?, hmake, hmakes⟩ := makeDirectory_below h hinner.forward
  have hwithin : Grows after full := by
    refine hmakes.adds.within hgrows ?_
    rintro place item ⟨rfl, made, hmade, rfl⟩
    exact FileTree.item?_of_front ((List.prefix_append_right_inj top).mpr hmade) hplace
  have hnone : refusal? = none := by
    cases refusal? with
    | none => rfl
    | some refusal =>
        exfalso
        rcases hmakes.blocked (by simp) with hblocked | ⟨content, hfile⟩
        · obtain ⟨refusal', -, hlocate⟩ := hblocked.grows hwithin
          simp [itemAt_eq, hlocate, Except.bind] at hitem
        · rw [itemAt_of_grows hgrows hfile (by simp)] at hitem
          simp at hitem
  subst hnone
  refine ⟨after, ?_, hmakes.adds.grows, hwithin, exists?_true_iff.mpr ⟨hnull, _, hmakes.made rfl⟩⟩
  rw [outcome_ensureDirectory hnull, hmake]

/-- A file that is there in the end can be written. -/
theorem writeFile_within {contents : Contents} {file text : String}
    (hfull : HoldsFile full root contents file) (hlookup : contents.lookup file = some text)
    (hparent : HasParent top d file) (hfree : d.exists? (root.extend file) = .ok false) :
    ∃ after, (writeFile (root.extend file) (.text text) false).outcome d = (.ok (), after) ∧
      Grows d after ∧ Grows after full ∧ after.exists? (root.extend file) = .ok true := by
  obtain ⟨hinner, hnull, ⟨text', hlookup', hitem⟩, hdrafted⟩ := hfull
  obtain rfl : text' = text := Option.some.inj (hlookup'.symm.trans hlookup)
  have hsteps := List.dropLast_concat_getLast hinner.nonempty
  have hforward := hinner.forward
  have hplace := Path.extend_eq_below hinner root
  rw [hplace] at hnull hitem hdrafted hfree ⊢
  rw [← hsteps] at hforward hnull hitem hdrafted hfree ⊢
  have hname : (Path.ofString file).steps.getLast hinner.nonempty ≠ ".." := by
    intro heq
    rw [heq] at hforward
    simp at hforward
  have hdraft := outcome_checkDraft_of_grows h hforward hparent hgrows
  have hself := outcome_checkDraft_of_grows h hforward hparent (Adds.refl _ d)
  rw [hdraft] at hdrafted
  -- the way to the file does not depend on what stands at its end
  have hmissing := locate_concat_ne_missing h hforward hparent
  have hlocated : ∃ place, d.locate (root.below ((Path.ofString file).steps.dropLast ++
      [(Path.ofString file).steps.getLast hinner.nonempty])) = .ok place := by
    cases hlocate : d.locate (root.below ((Path.ofString file).steps.dropLast ++
        [(Path.ofString file).steps.getLast hinner.nonempty])) with
    | ok place => exact ⟨place, rfl⟩
    | error refusal =>
        rw [hlocate] at hmissing
        simp [itemAt_eq, locate_of_grows hgrows hlocate hmissing, Except.bind] at hitem
  obtain ⟨place, hlocate⟩ := hlocated
  obtain ⟨refusal, -, hnone⟩ := exists?_false hfree hnull
  have hfreePlace : d.tree.item? place = none := by
    cases hthere : d.tree.item? place with
    | none => rfl
    | some item => simp [itemAt_of_locate hlocate hthere] at hnone
  obtain ⟨after, hwrite, hadds, hafter⟩ :=
    exists_write_below h hforward (.text text') hlocate hfreePlace
  refine ⟨after, ?_, hadds.grows, hadds.within hgrows ?_, exists?_true_iff.mpr ⟨hnull, _, hafter⟩⟩
  · rw [outcome_writeFile _ hfree, outcome_bind, hself, hdrafted]
    simp only
    rw [outcome_change hnull, moveTo, if_pos (Path.isNamed_below root _ hname), hwrite]
  · rintro place item ⟨rfl, rfl⟩
    exact (h.grows hgrows).item?_of_itemAt hforward hitem

end Steps

/-- Directories that are there in the end can all be made. -/
theorem makeMissing_within (h : Rooted d root top) (hgrows : Grows d full)
    {directories : List String} (hfull : ∀ directory ∈ directories,
      Path.IsInner directory ∧ full.isDirectory (root.extend directory) = .ok true) :
    ∃ made after, (makeMissing root directories).outcome d = (.ok made, after) ∧
      Grows d after ∧ Grows after full ∧
      ∀ directory ∈ directories, after.exists? (root.extend directory) = .ok true := by
  induction directories generalizing d with
  | nil => exact ⟨[], d, rfl, .refl _ d, hgrows, by simp⟩
  | cons directory rest ih =>
      obtain ⟨⟨hinner, hdirectory⟩, hrest⟩ := List.forall_mem_cons.mp hfull
      obtain ⟨hnull, hitem⟩ := isDirectory_true_iff.mp hdirectory
      obtain ⟨isThere, hexists⟩ :=
        exists?_ok_within hgrows (exists?_true_iff.mpr ⟨hnull, _, hitem⟩)
      cases isThere with
      | true =>
          obtain ⟨made, after, hrun, hbefore, hafter, hpresent⟩ := ih h hgrows hrest
          refine ⟨made, after, ?_, hbefore, hafter, List.forall_mem_cons.mpr
            ⟨exists?_true_of_grows hexists hbefore, hpresent⟩⟩
          rw [makeMissing_of_there rest hexists, hrun]
      | false =>
          obtain ⟨middle, hensure, hmiddle, hwithin, hmade⟩ :=
            ensureDirectory_within h hgrows hinner hdirectory
          obtain ⟨made, after, hrun, hbefore, hafter, hpresent⟩ :=
            ih (h.grows hmiddle) hwithin hrest
          refine ⟨directory :: made, after, ?_, hmiddle.trans hbefore, hafter,
            List.forall_mem_cons.mpr ⟨exists?_true_of_grows hmade hbefore, hpresent⟩⟩
          rw [makeMissing, outcome_bind, outcome_inspect, hexists]
          simp only [Bool.false_eq_true, if_false, outcome_bind, hensure, hrun, outcome_pure]

/-- Files that are there in the end can all be written. -/
theorem writeFiles_within (h : Rooted d root top) (hgrows : Grows d full) {contents : Contents}
    {files : List String} (hfull : ∀ file ∈ files, HoldsFile full root contents file)
    (hparents : ∀ file ∈ files, HasParent top d file) :
    ∃ marks after, (writeFiles root .skip contents none files).outcome d = (.ok marks, after) ∧
      Grows d after ∧ Grows after full ∧
      ∀ file ∈ files, after.exists? (root.extend file) = .ok true := by
  induction files generalizing d with
  | nil => exact ⟨([], none), d, rfl, .refl _ d, hgrows, by simp⟩
  | cons file rest ih =>
      obtain ⟨hfile, hrest⟩ := List.forall_mem_cons.mp hfull
      obtain ⟨hparent, hparents'⟩ := List.forall_mem_cons.mp hparents
      -- the file is there in the end, so it can be looked for on the way
      obtain ⟨isThere, hexists⟩ := exists?_ok_within hgrows hfile.exists
      cases isThere with
      | true =>
          obtain ⟨marks, after, hrun, hbefore, hafter, hpresent⟩ := ih h hgrows hrest hparents'
          refine ⟨markFirst (file, .skipped) marks, after, ?_, hbefore, hafter,
            List.forall_mem_cons.mpr ⟨exists?_true_of_grows hexists hbefore, hpresent⟩⟩
          rw [writeFiles_of_there rest hexists, hrun]
          rfl
      | false =>
          obtain ⟨text, hlookup, -⟩ := hfile.content
          obtain ⟨middle, hwrite, hmiddle, hwithin, hwritten⟩ :=
            writeFile_within h hgrows hfile hlookup hparent hexists
          obtain ⟨marks, after, hrun, hbefore, hafter, hpresent⟩ :=
            ih (h.grows hmiddle) hwithin hrest
            fun other hother => (hparents' other hother).grows hmiddle
          refine ⟨markFirst (file, .written) marks, after, ?_, hmiddle.trans hbefore, hafter,
            List.forall_mem_cons.mpr ⟨exists?_true_of_grows hwritten hbefore, hpresent⟩⟩
          rw [writeFiles_of_free rest hexists hlookup, hwrite]
          simp only [hrun]
          rfl

/-- A plan that was carried out in full can be carried out again where something of it is missing,
and brings nothing back that was not there. -/
theorem carryOut_within (h : Rooted d root top) (hgrows : Grows d full) {entries : List PlanEntry}
    {contents : Contents} (hfull : HoldsPlan full root entries contents) :
    ∃ done after, (carryOut entries root contents .skip none).outcome d = (.ok done, after) ∧
      Grows d after ∧ Grows after full ∧
      ∀ file ∈ plannedFiles entries, after.exists? (root.extend file) = .ok true := by
  obtain ⟨made, middle, hmake, hmiddle, hwithin, hmade⟩ :=
    makeMissing_within h hgrows hfull.directories
  have hparents := hfull.isInnerPlan.hasParent (h.grows hmiddle) hmade
  obtain ⟨marks, after, hwrite, hbefore, hafter, hpresent⟩ :=
    writeFiles_within (h.grows hmiddle) hwithin hfull.files hparents
  refine ⟨ledgerOf entries made marks, after, ?_, hmiddle.trans hbefore, hafter, hpresent⟩
  rw [outcome_carryOut, hmake]
  simp only [hwrite]
  rfl

end PackageScaffold
