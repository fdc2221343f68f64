import PackageScaffold.Proofs.Plan.Collision
import PackageScaffold.Proofs.Plan.Interruption

/-!
# The plan of the conventions

The conventional files of a project stand in few places: some of them at its root, the workflow and
the test further inside.  Whichever of them are wanted, their plan is a normal one.

* `Layout.spelledConventions`, `Layout.conventions_eq`: the files that are wanted, with their steps;
* `isNormalPlan_withDirectories`: plans whose files do not stand on the way to one another;
* `Layout.isNormalPlan_conventions`: the plan of the conventions is one of them.
-/

namespace PackageScaffold

open Path

/-! ## Plans with the directories that they need -/

/-- A plan is normal if its files are spelled by distinct steps and none of them stands on the way
to what a directory is needed for. -/
theorem isNormalPlan_withDirectories {files : List PlanEntry} {directories : List String}
    (hfiles : ∀ entry ∈ files, entry.isDirectory = false)
    (hspelled : ∀ entry ∈ files, ∃ steps, Spells entry.path steps)
    (hinner : ∀ path ∈ needers files directories, IsInner path)
    (hnodup : (files.map fun entry => (ofString entry.path).steps).Nodup)
    (hapart : ∀ entry ∈ files, ∀ path ∈ needers files directories,
      ¬ (ofString entry.path).steps <+: (ofString path).steps.dropLast) :
    IsNormalPlan (withDirectories files directories) := by
  -- every directory is on the way to something that needs one
  have hdirectories : ∀ entry ∈ (directoriesFor (files.map PlanEntry.path) directories).map
      directoryEntry, ∃ path ∈ needers files directories, ∃ made, Spells entry.path made ∧
        made <+: (ofString path).steps.dropLast := by
    intro entry hentry
    refine exists_of_mem_withDirectories hfiles hinner ?_
    refine List.mem_map_of_mem (List.mem_filter.mpr ⟨List.mem_append_left _ hentry, ?_⟩)
    obtain ⟨path, -, rfl⟩ := List.mem_map.mp hentry
    exact isDirectory_directoryEntry path
  refine ⟨List.forall_mem_append.mpr ⟨fun entry hentry => ?_, hspelled⟩, ?_⟩
  · obtain ⟨path, -, made, hspells, -⟩ := hdirectories entry hentry
    exact ⟨made, hspells⟩
  · rw [withDirectories, List.map_append, List.nodup_append]
    refine ⟨?_, ?_, ?_⟩
    · rw [map_path_directoryEntry hinner]
      exact nodup_directoriesFor _ _
    · refine List.Nodup.of_map (fun path => (ofString path).steps) ?_
      rw [List.map_map]
      exact hnodup
    · intro path hpath path' hpath' heq
      obtain ⟨directory, hdirectory, rfl⟩ := List.mem_map.mp hpath
      obtain ⟨file, hfile, rfl⟩ := List.mem_map.mp hpath'
      obtain ⟨needer, hneeder, made, hspells, hmade⟩ := hdirectories directory hdirectory
      refine hapart file hfile needer hneeder ?_
      rw [← heq, hspells.steps_eq]
      exact hmade

namespace Layout

/-! ## The conventional files -/

/-- The conventional files that are wanted, with their steps. -/
def spelledConventions (l : Layout) (wanted : Conventions) (named : Bool) :
    List (PlanEntry × List String) :=
  (if wanted.analysis then
    [(l.file "analysis_options.yaml" "config/analysis_options", ["analysis_options.yaml"])]
   else []) ++
  (if wanted.workflow then
    [(l.file ".github/workflows/ci.yml" "config/ci_workflow", [".github", "workflows", "ci.yml"])]
   else []) ++
  (if wanted.documents then
    [(l.file "README.md" "docs/readme", ["README.md"]),
     (l.file "CHANGELOG.md" "docs/changelog", ["CHANGELOG.md"]),
     (l.file "LICENSE" "docs/license_mit", ["LICENSE"])]
   else []) ++
  (if wanted.tests && named then [(l.test true, ["test", l.model.name ++ "_test.dart"])] else []) ++
  [(l.file ".gitignore" "config/gitignore", [".gitignore"])]

/-- The conventional files that are wanted. -/
def conventionFiles (l : Layout) (wanted : Conventions) (named : Bool) : List PlanEntry :=
  (l.spelledConventions wanted named).map Prod.fst

/-- The directories that are wanted although no conventional file needs them. -/
def conventionDirectories (wanted : Conventions) (named : Bool) : List String :=
  if wanted.tests && !named then ["test"] else []

variable {l : Layout} {wanted : Conventions} {named : Bool}

theorem conventions_eq (l : Layout) (wanted : Conventions) (named : Bool) :
    l.conventions wanted named =
      withDirectories (l.conventionFiles wanted named) (conventionDirectories wanted named) := by
  rw [conventions, conventionFiles, spelledConventions, conventionDirectories]
  simp only [List.map_append, apply_ite (List.map Prod.fst), List.map_cons, List.map_nil]

theorem mem_conventionFiles_iff {entry : PlanEntry} :
    entry ∈ l.conventionFiles wanted named ↔
      ∃ steps, (entry, steps) ∈ l.spelledConventions wanted named := by
  simp [conventionFiles]

/-- What the directories of the conventions are needed for. -/
theorem needers_conventions (l : Layout) (wanted : Conventions) (named : Bool) :
    needers (l.conventionFiles wanted named) (conventionDirectories wanted named) =
      (l.conventionFiles wanted named).map PlanEntry.path ++
        (if wanted.tests && !named then ["test/_"] else []) := by
  have htest : withoutFinalSlashes "test" ++ "/_" = "test/_" := by decide
  rw [needers, conventionDirectories]
  split
  · rw [List.map_singleton, htest]
  · rfl

section Named

variable (hname : Name.isPackageName l.model.name = true)

include hname

theorem isSpelled_convention {file : PlanEntry × List String}
    (h : file ∈ l.spelledConventions wanted named) : IsSpelled file ∧ IsLeaf file.2 := by
  have htop : ∀ {path template : String}, Spells path [path] → path ∉ directoryNames →
      path ∉ Platform.all.map Platform.text →
        IsSpelled (l.file path template, [path]) ∧ IsLeaf [path] :=
    fun hspells hleaf hplatform => ⟨isSpelled_file hspells hplatform, .of_steps [] (by simp) hleaf⟩
  have hworkflow : IsSpelled (l.file ".github/workflows/ci.yml" "config/ci_workflow",
      [".github", "workflows", "ci.yml"]) ∧ IsLeaf [".github", "workflows", "ci.yml"] :=
    ⟨isSpelled_file (by decide) (by decide),
      .of_steps [".github", "workflows"] (by decide) (by decide)⟩
  have htest : IsSpelled (l.test true, ["test", l.model.name ++ "_test.dart"]) ∧
      IsLeaf ["test", l.model.name ++ "_test.dart"] :=
    ⟨isSpelled_file (spells_testPath hname) (by decide),
      .of_steps ["test"] (by decide) (not_mem_directoryNames _ (by decide))⟩
  have hif : ∀ {wanted : Bool} {files : List (PlanEntry × List String)},
      (∀ file ∈ files, IsSpelled file ∧ IsLeaf file.2) →
        ∀ file ∈ if wanted then files else [], IsSpelled file ∧ IsLeaf file.2 := by
    intro wanted files hfiles
    cases wanted with
    | true => exact hfiles
    | false => simp
  simp only [spelledConventions, List.mem_append] at h
  rcases h with (((h | h) | h) | h) | h
  · exact hif (by simpa using htop (by decide) (by decide) (by decide)) file h
  · exact hif (by simpa using hworkflow) file h
  · refine hif ?_ file h
    simp only [List.forall_mem_cons]
    exact ⟨htop (by decide) (by decide) (by decide), htop (by decide) (by decide) (by decide),
      htop (by decide) (by decide) (by decide), by simp⟩
  · exact hif (by simpa using htest) file h
  · obtain rfl := List.mem_singleton.mp h
    exact htop (by decide) (by decide) (by decide)

theorem isLeaf_of_mem_conventions {path : String}
    (h : path ∈ needers (l.conventionFiles wanted named) (conventionDirectories wanted named)) :
    ∃ steps, Spells path steps ∧ IsLeaf steps := by
  rw [needers_conventions] at h
  rcases List.mem_append.mp h with h | h
  · obtain ⟨entry, hentry, rfl⟩ := List.mem_map.mp h
    obtain ⟨steps, hfile⟩ := mem_conventionFiles_iff.mp hentry
    exact ⟨steps, (isSpelled_convention hname hfile).1.spells, (isSpelled_convention hname hfile).2⟩
  · split at h
    · obtain rfl := List.mem_singleton.mp h
      exact ⟨["test", "_"], by decide, .of_steps ["test"] (by decide) (by decide)⟩
    · simp at h

omit hname in
theorem nodup_spelledConventions : ((l.spelledConventions wanted named).map Prod.snd).Nodup := by
  obtain ⟨analysis, workflow, documents, tests⟩ := wanted
  cases analysis <;> cases workflow <;> cases documents <;> cases tests <;> cases named <;>
    simp [spelledConventions]

theorem isDirectory_of_mem_conventionFiles {entry : PlanEntry}
    (h : entry ∈ l.conventionFiles wanted named) : entry.isDirectory = false := by
  obtain ⟨steps, hfile⟩ := mem_conventionFiles_iff.mp h
  exact PlanEntry.isDirectory_of_rendered (isSpelled_convention hname hfile).1.rendered

theorem plannedFiles_conventions :
    plannedFiles (l.conventions wanted named) =
      (l.conventionFiles wanted named).map PlanEntry.path := by
  rw [conventions_eq, plannedFiles_withDirectories fun _ =>
    isDirectory_of_mem_conventionFiles hname]

/-- The plan of the conventions is normal. -/
theorem isNormalPlan_conventions : IsNormalPlan (l.conventions wanted named) := by
  have hspells : ∀ entry ∈ l.conventionFiles wanted named, ∃ steps,
      (entry, steps) ∈ l.spelledConventions wanted named ∧ Spells entry.path steps ∧
        IsLeaf steps := by
    intro entry hentry
    obtain ⟨steps, hfile⟩ := mem_conventionFiles_iff.mp hentry
    obtain ⟨hspelled, hleaf⟩ := isSpelled_convention hname hfile
    exact ⟨steps, hfile, hspelled.spells, hleaf⟩
  rw [conventions_eq]
  refine isNormalPlan_withDirectories (fun _ => isDirectory_of_mem_conventionFiles hname)
    (fun entry hentry => ?_) (fun path hpath => ?_) ?_ fun entry hentry path hpath hleads => ?_
  · obtain ⟨steps, -, hsteps, -⟩ := hspells entry hentry
    exact ⟨steps, hsteps⟩
  · obtain ⟨steps, hsteps, -⟩ := isLeaf_of_mem_conventions hname hpath
    exact hsteps.isInner
  · have hsteps : (l.conventionFiles wanted named).map (fun entry => (ofString entry.path).steps) =
        (l.spelledConventions wanted named).map Prod.snd := by
      rw [conventionFiles, List.map_map]
      exact List.map_congr_left fun file hfile =>
        (isSpelled_convention hname hfile).1.spells.steps_eq
    rw [hsteps]
    exact nodup_spelledConventions
  · -- the way to a file ends in a name that no directory has
    obtain ⟨steps, -, hsteps, hleaf⟩ := hspells entry hentry
    obtain ⟨steps', hsteps', hleaf'⟩ := isLeaf_of_mem_conventions hname hpath
    rw [hsteps.steps_eq, hsteps'.steps_eq] at hleads
    have heq := hleaf.eq_of_leads hleaf' (hleads.trans (List.dropLast_prefix _))
    have hlength := hleads.length_le
    rw [heq, List.length_dropLast] at hlength
    have hne := List.length_pos_of_ne_nil hsteps'.nonempty
    omega

end Named

end Layout

end PackageScaffold
