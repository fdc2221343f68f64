import PackageScaffold.Proofs.Plan.Accounting
import PackageScaffold.Proofs.Plan.Collision

/-!
# The directories of a plan

A plan for a new project names every directory on the way to what it is needed for, and each of them
behind those above it.  So no directory is made in passing: where nothing is yet, exactly the
directories of the plan are made, in its order.

* `mem_plannedDirectories_iff`, `wantedDirectories_withDirectories`: the directories of a plan, which
  are all that it needs;
* `pairwise_plannedDirectories`: none of them stands in front of one above it;
* `makeMissing_fresh`: directories in such an order are all made, and listed.
-/

namespace PackageScaffold

open Path Disk FileM

/-! ## Depth -/

theorem Text.length_splitOn (separator : Char) (cs : List Char) :
    (splitOn separator cs).length = cs.count separator + 1 := by
  induction cs with
  | nil => rfl
  | cons c cs ih =>
      by_cases hc : c == separator
      · simp [splitOn, hc, ih, List.count_cons]
      · cases hsplit : splitOn separator cs with
        | nil => exact absurd hsplit (splitOn_ne_nil _ _)
        | cons piece pieces =>
            rw [hsplit] at ih
            simpa [splitOn, hc, hsplit, List.count_cons] using ih

/-- A path that is spelled by its steps is written with one slash less than it has steps. -/
theorem depth_of_spells {s : String} {steps : List String} (h : Spells s steps) :
    depth s + 1 = steps.length := by
  have hsplit := Text.split_join Path.toList_slash h.nonempty fun step hstep =>
    (h.isStep step hstep).2.2
  rw [← h.text] at hsplit
  rw [depth, ← Text.length_splitOn, ← List.length_map (f := String.ofList), ← hsplit]
  rfl

/-! ## The directories in front of files -/

/-- Shallow directories stand in front of deeper ones. -/
theorem pairwise_directoriesFor (files directories : List String) :
    (directoriesFor files directories).Pairwise fun earlier later =>
      shallowFirst earlier later = true := by
  rw [directoriesFor_eq_insertionSort]
  exact List.pairwise_insertionSort _ _

/-- The paths above an inner path are those that its first steps spell. -/
theorem mem_parentsOf_iff {path directory : String} (h : IsInner path) :
    directory ∈ parentsOf path ↔
      ∃ made, Spells directory made ∧ made <+: (ofString path).steps.dropLast := by
  refine ⟨exists_of_mem_parentsOf h, ?_⟩
  rintro ⟨made, hspells, hmade⟩
  have hlength := hmade.length_le
  rw [List.length_dropLast] at hlength
  have hpositive := List.length_pos_of_ne_nil hspells.nonempty
  have htake : (ofString path).steps.take made.length = made :=
    (List.prefix_iff_eq_take.mp (hmade.trans (List.dropLast_prefix _))).symm
  have htext : (⟨.working, made⟩ : Path).text = directory := by
    simp [Path.text, Anchor.text, hspells.nonempty, hspells.text]
  simp only [parentsOf, ancestors, List.mem_filter, List.mem_map, List.mem_reverse, List.mem_range,
    List.map_map, Function.comp_apply]
  refine ⟨⟨made.length, by omega, ?_⟩, ?_⟩
  · rw [htake, h.anchor, htext]
  · have hdot : directory ≠ "." := by
      rintro rfl
      have hsteps := hspells.steps_eq
      exact hspells.nonempty (hsteps.symm.trans (by decide))
    simpa using hdot

section WithDirectories

variable {files : List PlanEntry} {directories : List String}
  (hfiles : ∀ entry ∈ files, entry.isDirectory = false)
  (hinner : ∀ path ∈ needers files directories, IsInner path)

include hfiles hinner

theorem plannedDirectories_withDirectories :
    plannedDirectories (withDirectories files directories) =
      directoriesFor (files.map PlanEntry.path) directories := by
  have hnone : files.filter PlanEntry.isDirectory = [] := by
    rw [List.filter_eq_nil_iff]
    exact fun entry hentry => by simp [hfiles entry hentry]
  have hall : ∀ paths : List String, (paths.map directoryEntry).filter PlanEntry.isDirectory =
      paths.map directoryEntry := by
    intro paths
    rw [List.filter_eq_self]
    intro entry hentry
    obtain ⟨path, -, rfl⟩ := List.mem_map.mp hentry
    exact isDirectory_directoryEntry path
  rw [plannedDirectories, withDirectories, List.filter_append, hnone, hall, List.append_nil,
    map_path_directoryEntry hinner]

/-- The directories of a plan are all those on the way to what they are needed for. -/
theorem mem_plannedDirectories_iff {directory : String} :
    directory ∈ plannedDirectories (withDirectories files directories) ↔
      ∃ path ∈ needers files directories, ∃ made, Spells directory made ∧
        made <+: (ofString path).steps.dropLast := by
  rw [plannedDirectories_withDirectories hfiles hinner]
  simp only [directoriesFor, List.mem_mergeSort, List.mem_eraseDups, List.mem_flatMap]
  exact exists_congr fun path => and_congr_right fun hpath => mem_parentsOf_iff (hinner path hpath)

/-- Every directory above a directory of a plan is one of the plan. -/
theorem exists_plannedDirectory_of_front {directory : String} {made : List String}
    (hdirectory : directory ∈ plannedDirectories (withDirectories files directories))
    (hmade : made <+: (ofString directory).steps) (hne : made ≠ []) :
    ∃ above ∈ plannedDirectories (withDirectories files directories), Spells above made := by
  obtain ⟨path, hpath, steps, hspells, hsteps⟩ :=
    (mem_plannedDirectories_iff hfiles hinner).mp hdirectory
  rw [hspells.steps_eq] at hmade
  have habove : Spells _ made := .of_front hmade hne hspells.isStep hspells.forward
  exact ⟨_, (mem_plannedDirectories_iff hfiles hinner).mpr
    ⟨path, hpath, made, habove, hmade.trans hsteps⟩, habove⟩

/-- The directories on the way to a file of a plan are directories of the plan. -/
theorem exists_plannedDirectory_of_file {file : String} {made : List String}
    (hfile : file ∈ plannedFiles (withDirectories files directories))
    (hmade : made <+: (ofString file).steps.dropLast) (hne : made ≠ []) :
    ∃ above ∈ plannedDirectories (withDirectories files directories), Spells above made := by
  rw [plannedFiles_withDirectories hfiles] at hfile
  have hneeds : file ∈ needers files directories := List.mem_append_left _ hfile
  have habove : Spells _ made := .of_front (hmade.trans (List.dropLast_prefix _)) hne
    (fun _ hstep => isStep_of_mem_steps hstep) (hinner file hneeds).forward
  exact ⟨_, (mem_plannedDirectories_iff hfiles hinner).mpr ⟨file, hneeds, made, habove, hmade⟩,
    habove⟩

/-- A plan needs no directories besides its own. -/
theorem wantedDirectories_withDirectories :
    wantedDirectories (withDirectories files directories) =
      plannedDirectories (withDirectories files directories) := by
  have himplied : impliedDirectories (plannedDirectories (withDirectories files directories))
      (plannedFiles (withDirectories files directories)) = [] := by
    rw [List.eq_nil_iff_forall_not_mem]
    intro directory hmem
    simp only [impliedDirectories, List.mem_mergeSort, List.mem_filter, List.mem_eraseDups,
      List.mem_map] at hmem
    obtain ⟨⟨⟨file, hfile, rfl⟩, hdot⟩, hother⟩ := hmem
    have hfile' := hfile
    rw [plannedFiles_withDirectories hfiles] at hfile'
    rcases (hinner file (List.mem_append_left _ hfile')).parent with ⟨hparent, -⟩ |
      ⟨hparent, hsteps⟩
    · simp [hparent] at hdot
    · obtain ⟨above, habove, hspells⟩ := exists_plannedDirectory_of_file hfiles hinner hfile
        (List.prefix_refl _) (hsteps ▸ hparent.nonempty)
      have htext : (ofString file).parent.text = above := by
        rw [Path.parent, (hinner file (List.mem_append_left _ hfile')).anchor]
        simp [Path.text, Anchor.text, hspells.nonempty, hspells.text]
      simp [htext, habove] at hother
  rw [wantedDirectories, himplied, List.append_nil]

/-- No directory of a plan stands behind one inside it. -/
theorem pairwise_plannedDirectories :
    (plannedDirectories (withDirectories files directories)).Pairwise fun earlier later =>
      ¬ (ofString later).steps <+: (ofString earlier).steps := by
  have hspelled : ∀ directory ∈ plannedDirectories (withDirectories files directories),
      Spells directory (ofString directory).steps := by
    intro directory hdirectory
    obtain ⟨-, -, steps, hspells, -⟩ := (mem_plannedDirectories_iff hfiles hinner).mp hdirectory
    rwa [hspells.steps_eq]
  have hdistinct : (plannedDirectories (withDirectories files directories)).Nodup := by
    rw [plannedDirectories_withDirectories hfiles hinner]
    exact nodup_directoriesFor _ _
  have hordered : (plannedDirectories (withDirectories files directories)).Pairwise
      fun earlier later => depth earlier ≤ depth later := by
    rw [plannedDirectories_withDirectories hfiles hinner]
    refine (pairwise_directoriesFor _ _).imp fun {earlier later} hle => ?_
    rcases shallowFirst_iff.mp hle with hdeeper | ⟨hsame, -⟩ <;> omega
  refine (hordered.and hdistinct).imp_of_mem fun {earlier later} hearlier hlater hpair hleads => ?_
  obtain ⟨hdepth, hne⟩ := hpair
  -- a directory that is no deeper than one inside it is that one
  have hlength := hleads.length_le
  rw [← depth_of_spells (hspelled _ hearlier), ← depth_of_spells (hspelled _ hlater)] at hlength
  have hsteps : (ofString later).steps = (ofString earlier).steps := by
    refine hleads.eq_of_length ?_
    rw [← depth_of_spells (hspelled _ hearlier), ← depth_of_spells (hspelled _ hlater)]
    omega
  exact hne ((hspelled _ hearlier).eq_of_steps_eq (hsteps ▸ hspelled _ hlater))

end WithDirectories

/-! ## Making directories where nothing is -/

variable {d : Disk} {root : Path} {top : List String}

/-- Where nothing is, all directories are made if none of them stands behind one inside it. -/
theorem makeMissing_fresh (h : Rooted d root top) {directories : List String}
    (hinner : ∀ directory ∈ directories, IsInner directory)
    (hfree : ∀ directory ∈ directories, d.tree.item? (top ++ (ofString directory).steps) = none)
    (horder : directories.Pairwise fun earlier later =>
      ¬ (ofString later).steps <+: (ofString earlier).steps)
    {made : List String} {after : Disk}
    (hrun : (makeMissing root directories).outcome d = (.ok made, after)) : made = directories := by
  induction directories generalizing d made with
  | nil =>
      obtain ⟨hmade, -⟩ := Prod.mk.injEq .. ▸ hrun
      exact (Except.ok.inj hmade).symm
  | cons directory rest ih =>
      obtain ⟨hfirst, hrest⟩ := List.forall_mem_cons.mp hinner
      obtain ⟨hfreeFirst, hfreeRest⟩ := List.forall_mem_cons.mp hfree
      obtain ⟨hbehind, horder⟩ := List.pairwise_cons.mp horder
      cases makeMissing_cons hrun with
      | unseen _ hresult => simp at hresult
      | there hexists => exact absurd hfreeFirst (h.item?_of_exists hfirst hexists)
      | refused _ _ hresult => simp at hresult
      | made hexists hensure hmissing hresult =>
          obtain ⟨more, rfl, rfl⟩ := map_eq_ok hresult.symm
          rw [extend_eq_below hfirst] at hexists hensure
          obtain ⟨hadds, -⟩ := ensureDirectory_below h hfirst.forward hexists hensure
            (by simp [Deliberate])
          congr 1
          refine ih (h.grows hadds.grows) hrest (fun other hother => ?_) horder hmissing
          rw [hadds.item?_eq fun item => ?_, hfreeRest other hother]
          rintro ⟨-, steps, hsteps, hplace⟩
          exact hbehind other hother (List.append_cancel_left hplace ▸ hsteps)

/-! ## The directories of a project -/

namespace Layout

variable {l : Layout} (hname : Name.isPackageName l.model.name = true)

include hname

theorem wantedDirectories_plan : wantedDirectories l.plan = plannedDirectories l.plan := by
  rw [plan_eq]
  exact wantedDirectories_withDirectories (fun _ => isDirectory_of_mem_files hname)
    fun _ => isInner_of_mem_needers hname

theorem pairwise_plan : (plannedDirectories l.plan).Pairwise fun earlier later =>
    ¬ (ofString later).steps <+: (ofString earlier).steps := by
  rw [plan_eq]
  exact pairwise_plannedDirectories (fun _ => isDirectory_of_mem_files hname)
    fun _ => isInner_of_mem_needers hname

theorem exists_plannedDirectory_plan {directory : String} {made : List String}
    (hdirectory : directory ∈ plannedDirectories l.plan)
    (hmade : made <+: (ofString directory).steps) (hne : made ≠ []) :
    ∃ above ∈ plannedDirectories l.plan, Spells above made := by
  rw [plan_eq] at hdirectory ⊢
  exact exists_plannedDirectory_of_front (fun _ => isDirectory_of_mem_files hname)
    (fun _ => isInner_of_mem_needers hname) hdirectory hmade hne

end Layout

end PackageScaffold
