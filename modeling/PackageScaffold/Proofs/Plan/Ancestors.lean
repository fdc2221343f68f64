import PackageScaffold.Proofs.Plan.Directories

/-!
# The directories that files need

In front of files stand the directories that the files and some further directories need: every
directory on the way to one of them, and the further directories themselves, each once.  Shallow
ones come first, so a directory comes behind all that it is inside of.

* `IsNeeded`: the steps that lead to a directory that is needed;
* `mem_directoriesFor_iff`: which directories stand in front of files;
* `Precedes`, `pairwise_precedes_directoriesFor`: their order, which puts no two of them in one place;
* `exists_mem_front_of_above`: in such an order, what a directory is inside of comes before it;
* `AreNeeded`, `withDirectories_exact`: the directories in front of files, as a whole.
-/

namespace PackageScaffold

open Path

/-! ## What is needed -/

/-- Some steps lead to a directory that is needed: to one above a file, to a further directory, or
to one above it. -/
def IsNeeded (files : List PlanEntry) (directories : List String) (steps : List String) : Prop :=
  (∃ entry ∈ files, steps <+: (ofString entry.path).steps ∧ steps ≠ (ofString entry.path).steps) ∨
    ∃ further ∈ directories, steps <+: (ofString further).steps

/-- A front of a list that leaves out at least its last item is a front of the others. -/
theorem prefix_dropLast_iff {α : Type} {front items : List α} (h : items ≠ []) :
    front <+: items.dropLast ↔ front <+: items ∧ front ≠ items := by
  obtain ⟨most, last, rfl⟩ := (List.eq_nil_or_concat items).resolve_left h
  rw [List.concat_eq_append, List.dropLast_concat, List.prefix_concat_iff]
  constructor
  · intro hfront
    refine ⟨.inr hfront, ?_⟩
    rintro rfl
    have hlength := hfront.length_le
    rw [List.length_append, List.length_singleton] at hlength
    omega
  · rintro ⟨heq | hfront, hne⟩
    · exact absurd heq hne
    · exact hfront

section Spelled

variable {files : List PlanEntry} {directories : List String}
  (hfiles : ∀ entry ∈ files, ∃ steps, Spells entry.path steps)
  (hdirectories : ∀ further ∈ directories, ∃ steps, Spells further steps)

include hdirectories in
/-- A further directory is needed for something inside it. -/
theorem spells_needer {further : String} (hfurther : further ∈ directories) :
    Spells (withoutFinalSlashes further ++ "/_") ((ofString further).steps ++ ["_"]) := by
  obtain ⟨steps, hspells⟩ := hdirectories further hfurther
  have hinside : Spells "_" ["_"] := by decide
  rw [withoutFinalSlashes_of_spells hspells, hspells.steps_eq]
  have hbelow := hinside.below hspells rfl
  rwa [String.append_assoc] at hbelow

include hfiles hdirectories

theorem isInner_of_mem_spelledNeeders :
    ∀ path ∈ needers files directories, IsInner path := by
  intro path hpath
  rcases List.mem_append.mp hpath with hfile | hfurther
  · obtain ⟨entry, hentry, rfl⟩ := List.mem_map.mp hfile
    obtain ⟨steps, hspells⟩ := hfiles entry hentry
    exact hspells.isInner
  · obtain ⟨further, hmem, rfl⟩ := List.mem_map.mp hfurther
    exact (spells_needer hdirectories hmem).isInner

/-- The directories in front of files are those that are needed. -/
theorem mem_directoriesFor_iff {directory : String} :
    directory ∈ directoriesFor (files.map PlanEntry.path) directories ↔
      ∃ steps, Spells directory steps ∧ IsNeeded files directories steps := by
  have hinner := isInner_of_mem_spelledNeeders hfiles hdirectories
  have hmem : directory ∈ directoriesFor (files.map PlanEntry.path) directories ↔
      ∃ path ∈ needers files directories, directory ∈ parentsOf path := by
    simp only [directoriesFor, needers, List.mem_mergeSort, List.mem_eraseDups, List.mem_flatMap]
  rw [hmem]
  constructor
  · rintro ⟨path, hpath, hparent⟩
    obtain ⟨steps, hspells, hsteps⟩ := (mem_parentsOf_iff (hinner path hpath)).mp hparent
    refine ⟨steps, hspells, ?_⟩
    rcases List.mem_append.mp hpath with hfile | hfurther
    · obtain ⟨entry, hentry, rfl⟩ := List.mem_map.mp hfile
      exact .inl ⟨entry, hentry, (prefix_dropLast_iff (hinner _ hpath).nonempty).mp hsteps⟩
    · obtain ⟨further, hmem, rfl⟩ := List.mem_map.mp hfurther
      rw [(spells_needer hdirectories hmem).steps_eq, List.dropLast_concat] at hsteps
      exact .inr ⟨further, hmem, hsteps⟩
  · rintro ⟨steps, hspells, ⟨entry, hentry, hsteps⟩ | ⟨further, hfurther, hsteps⟩⟩
    · have hpath : entry.path ∈ needers files directories :=
        List.mem_append_left _ (List.mem_map_of_mem hentry)
      exact ⟨entry.path, hpath, (mem_parentsOf_iff (hinner _ hpath)).mpr
        ⟨steps, hspells, (prefix_dropLast_iff (hinner _ hpath).nonempty).mpr hsteps⟩⟩
    · have hpath : withoutFinalSlashes further ++ "/_" ∈ needers files directories :=
        List.mem_append_right _ (List.mem_map.mpr ⟨further, hfurther, rfl⟩)
      refine ⟨_, hpath, (mem_parentsOf_iff (hinner _ hpath)).mpr ⟨steps, hspells, ?_⟩⟩
      rwa [(spells_needer hdirectories hfurther).steps_eq, List.dropLast_concat]

/-! ## Their order -/

omit hfiles hdirectories in
/-- A directory comes before the deeper ones, and before those of its depth with a greater name. -/
def Precedes (directory other : String) : Prop :=
  (ofString directory).steps.length < (ofString other).steps.length ∨
    ((ofString directory).steps.length = (ofString other).steps.length ∧ directory < other)

/-- The directories in front of files are in order. -/
theorem pairwise_precedes_directoriesFor :
    (directoriesFor (files.map PlanEntry.path) directories).Pairwise Precedes := by
  have hdepth : ∀ directory ∈ directoriesFor (files.map PlanEntry.path) directories,
      depth directory + 1 = (ofString directory).steps.length := by
    intro directory hmem
    obtain ⟨steps, hspells, -⟩ := (mem_directoriesFor_iff hfiles hdirectories).mp hmem
    rw [depth_of_spells hspells, hspells.steps_eq]
  have hpairs := (pairwise_directoriesFor (files.map PlanEntry.path) directories).and
    (nodup_directoriesFor (files.map PlanEntry.path) directories)
  refine hpairs.imp_of_mem fun {directory other} hdirectory hother hpair => ?_
  obtain ⟨hfirst, hne⟩ := hpair
  have hfirstDepth := hdepth directory hdirectory
  have hsecondDepth := hdepth other hother
  rcases shallowFirst_iff.mp hfirst with hlt | ⟨heq, hle⟩
  · exact .inl (by omega)
  · have hlt : directory < other := by
      by_contra hnot
      exact hne (String.le_antisymm hle (String.not_lt.mp hnot))
    exact .inr ⟨by omega, hlt⟩

/-- What a directory is inside of comes before it. -/
theorem exists_mem_front_of_above {before after above : List String} {directory : String}
    (hsplit : directoriesFor (files.map PlanEntry.path) directories = before ++ directory :: after)
    (hne : above ≠ []) (habove : above <+: (ofString directory).steps)
    (hproper : above ≠ (ofString directory).steps) :
    ∃ parent ∈ before, Spells parent above := by
  have hmem : ∀ other, other ∈ directoriesFor (files.map PlanEntry.path) directories ↔
      ∃ steps, Spells other steps ∧ IsNeeded files directories steps :=
    fun _ => mem_directoriesFor_iff hfiles hdirectories
  obtain ⟨steps, hspells, hneeded⟩ := (hmem directory).mp (by simp [hsplit])
  rw [hspells.steps_eq] at habove hproper
  -- the directory above is needed as well, for the same file or further directory
  have hparent : Spells (⟨.working, above⟩ : Path).text above :=
    .of_front habove hne hspells.isStep hspells.forward
  have hparentNeeded : IsNeeded files directories above := by
    rcases hneeded with ⟨entry, hentry, hsteps, hother⟩ | ⟨further, hfurther, hsteps⟩
    · refine .inl ⟨entry, hentry, habove.trans hsteps, ?_⟩
      intro heq
      exact hproper (habove.eq_of_length_le (heq ▸ hsteps.length_le))
    · exact .inr ⟨further, hfurther, habove.trans hsteps⟩
  have hplanned := (hmem _).mpr ⟨above, hparent, hparentNeeded⟩
  have hlength : above.length < steps.length :=
    lt_of_le_of_ne habove.length_le fun heq => hproper (habove.eq_of_length heq)
  have hordered := pairwise_precedes_directoriesFor hfiles hdirectories
  rw [hsplit] at hplanned hordered
  refine ⟨_, ?_, hparent⟩
  rcases List.mem_append.mp hplanned with hbefore | hbehind
  · exact hbefore
  · -- it has fewer steps, so it is neither the directory nor behind it
    exfalso
    rcases List.mem_cons.mp hbehind with heq | hafter
    · have hsame := hparent.steps_eq
      rw [heq, hspells.steps_eq] at hsame
      exact hproper hsame.symm
    · have hprecedes := (List.pairwise_cons.mp (List.pairwise_append.mp hordered).2.1).1 _ hafter
      rw [Precedes, hspells.steps_eq, hparent.steps_eq] at hprecedes
      omega

/-- Directories are those that files and further directories need, each of them once, in their order
and behind all that they are inside of. -/
structure AreNeeded (files : List PlanEntry) (directories needed : List String) : Prop where
  distinct : needed.Nodup
  mem_iff : ∀ directory, directory ∈ needed ↔
    ∃ steps, Spells directory steps ∧ IsNeeded files directories steps
  ordered : needed.Pairwise Precedes
  behind : ∀ before directory after, needed = before ++ directory :: after →
    ∀ above, above ≠ [] → above <+: (ofString directory).steps →
      above ≠ (ofString directory).steps → ∃ parent ∈ before, Spells parent above

/-- In front of files stand the directories that are needed; the files themselves stay as they
are. -/
theorem withDirectories_exact :
    ∃ needed : List String,
      withDirectories files directories = needed.map PlanEntry.directory ++ files ∧
      AreNeeded files directories needed := by
  refine ⟨directoriesFor (files.map PlanEntry.path) directories, ?_, nodup_directoriesFor _ _,
    fun _ => mem_directoriesFor_iff hfiles hdirectories,
    pairwise_precedes_directoriesFor hfiles hdirectories,
    fun _ _ _ hsplit _ => exists_mem_front_of_above hfiles hdirectories hsplit⟩
  rw [withDirectories]
  congr 1
  refine List.map_congr_left fun directory hmem => ?_
  obtain ⟨steps, hspells, -⟩ := (mem_directoriesFor_iff hfiles hdirectories).mp hmem
  rw [directoryEntry, withoutFinalSlashes_of_spells hspells]

end Spelled

/-- Files in two directories and a further directory in one of these. -/
theorem withDirectories_exact_shared :
    let files := [PlanEntry.file "lib/src/a.dart" none, .file "lib-x/b" none, .file "c" none]
    ∃ needed : List String,
      withDirectories files ["lib/test"] = needed.map PlanEntry.directory ++ files ∧
      AreNeeded files ["lib/test"] needed ∧ needed = ["lib", "lib-x", "lib/src", "lib/test"] := by
  intro files
  have hfiles : ∀ entry ∈ files, ∃ steps, Spells entry.path steps := by
    simp only [files, List.forall_mem_cons]
    exact ⟨⟨["lib", "src", "a.dart"], by decide⟩, ⟨["lib-x", "b"], by decide⟩, ⟨["c"], by decide⟩,
      by simp⟩
  have hdirectories : ∀ further ∈ ["lib/test"], ∃ steps, Spells further steps := by
    simp only [List.forall_mem_cons]
    exact ⟨⟨["lib", "test"], by decide⟩, by simp⟩
  obtain ⟨needed, hplan, hneeded⟩ := withDirectories_exact hfiles hdirectories
  refine ⟨needed, hplan, hneeded, ?_⟩
  have hpaths := congrArg (List.map PlanEntry.path) hplan
  rw [withDirectories, directoriesFor_eq_insertionSort, List.map_append, List.map_append,
    List.append_cancel_right_eq, List.map_map, List.map_map] at hpaths
  calc needed = needed.map (PlanEntry.path ∘ PlanEntry.directory) := (List.map_id needed).symm
    _ = _ := hpaths.symm
    _ = ["lib", "lib-x", "lib/src", "lib/test"] := by decide +kernel

end PackageScaffold
