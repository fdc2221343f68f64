import PackageScaffold.Proofs.Plan.Drawing
import PackageScaffold.Proofs.Project.Exactness

/-!
# What a plan shows before it is carried out

The plan of a project is drawn as a tree without anything being made.  The tree shows the project
that is made: whatever is inside afterwards is in the tree, once, and is a directory if its label
says so.  As nothing but the texts of the files depends on the day, the plan may be drawn on another
one.

* `Layout.agrees_of_mem_drawnPaths`: the paths of a plan agree on what is a directory;
* `Layout.mem_nodes_describe_iff`: what the tree of a plan shows;
* `Fresh.item?_ne_none_iff`, `Fresh.isDirectory_iff`: what is inside a new project;
* `describe_shows_created`: that these are the same.
-/

namespace PackageScaffold

open Path Disk FileM

/-! ## Plans as trees -/

/-- No file of a plan stands at the end of some steps. -/
def holdsNoFile (entries : List PlanEntry) (steps : List String) : Bool :=
  (plannedFiles entries).all fun file => (ofString file).steps != steps

theorem holdsNoFile_iff {entries : List PlanEntry} {steps : List String} :
    holdsNoFile entries steps = true ↔ ∀ file ∈ plannedFiles entries, (ofString file).steps ≠
      steps := by
  simp [holdsNoFile]

theorem PlanEntry.mem_planned {entries : List PlanEntry} {entry : PlanEntry} (h : entry ∈ entries) :
    (entry.isDirectory = true ∧ entry.path ∈ plannedDirectories entries) ∨
      (entry.isDirectory = false ∧ entry.path ∈ plannedFiles entries) := by
  cases hdirectory : entry.isDirectory with
  | true => exact .inl ⟨rfl, List.mem_map_of_mem (List.mem_filter.mpr ⟨h, hdirectory⟩)⟩
  | false => exact .inr ⟨rfl, List.mem_map_of_mem (List.mem_filter.mpr ⟨h, by simp [hdirectory]⟩)⟩

namespace Layout

/-- The path of an entry as it is drawn. -/
def drawnPath (entry : PlanEntry) : String :=
  if entry.isDirectory then entry.path ++ "/" else entry.path

variable {l : Layout}

/-- A text ends as its last part does. -/
theorem getLast?_append_ne (front : String) {back : String} (hne : back.toList ≠ [])
    (hlast : back.toList.getLast? ≠ some '/') : (front ++ back).toList.getLast? ≠ some '/' := by
  rwa [String.toList_append, List.getLast?_append_of_ne_nil _ hne]

theorem getLast?_runnerPath (m : Model) (platform : Platform) :
    (runnerPath m platform).toList.getLast? ≠ some '/' := by
  cases platform with
  | android =>
      exact getLast?_append_ne _ (show "/MainActivity.kt".toList ≠ [] by decide) (by decide)
  | ios => exact show "ios/Runner/AppDelegate.swift".toList.getLast? ≠ some '/' by decide
  | web => exact show "web/index.html".toList.getLast? ≠ some '/' by decide
  | windows => exact show "windows/runner/main.cpp".toList.getLast? ≠ some '/' by decide
  | linux => exact show "linux/main.cc".toList.getLast? ≠ some '/' by decide
  | macos => exact show "macos/Runner/AppDelegate.swift".toList.getLast? ≠ some '/' by decide

theorem getLast?_pluginStubPath (m : Model) (platform : Platform) :
    (pluginStubPath m platform).toList.getLast? ≠ some '/' := by
  cases platform with
  | android => exact getLast?_append_ne _ (show "Plugin.java".toList ≠ [] by decide) (by decide)
  | ios => exact getLast?_append_ne _ (show "Plugin.swift".toList ≠ [] by decide) (by decide)
  | web => exact getLast?_append_ne _ (show "_web.dart".toList ≠ [] by decide) (by decide)
  | windows => exact getLast?_append_ne _ (show "_plugin.cpp".toList ≠ [] by decide) (by decide)
  | linux => exact getLast?_append_ne _ (show "_plugin.cc".toList ≠ [] by decide) (by decide)
  | macos => exact getLast?_append_ne _ (show "Plugin.swift".toList ≠ [] by decide) (by decide)

section Named

variable (hname : Name.isPackageName l.model.name = true)

include hname

/-- The path of a file does not end in a slash. -/
theorem getLast?_of_mem_files {entry : PlanEntry} (h : entry ∈ l.files) :
    entry.path.toList.getLast? ≠ some '/' := by
  rcases mem_files_iff.mp h with ⟨steps, hspelled⟩ | ⟨platform, -, rfl⟩
  · exact (isSpelled_of_mem hname hspelled).spells.getLast?_ne
  · rw [path_nativeFile]
    split
    · exact getLast?_runnerPath l.model platform
    · exact getLast?_pluginStubPath l.model platform

theorem spells_of_mem_plannedDirectories {directory : String}
    (h : directory ∈ plannedDirectories l.plan) : Spells directory (ofString directory).steps := by
  rw [plan_eq] at h
  obtain ⟨-, -, steps, hspells, -⟩ := (mem_plannedDirectories_iff
    (fun _ => isDirectory_of_mem_files hname) fun _ => isInner_of_mem_needers hname).mp h
  rwa [hspells.steps_eq]

/-- The steps of an entry, as it is drawn. -/
theorem stepsOf_drawnPath {entry : PlanEntry} (h : entry ∈ l.plan) :
    PathTree.stepsOf (drawnPath entry) = (ofString entry.path).steps ∧
      ((drawnPath entry).toList.getLast? == some '/') = entry.isDirectory := by
  rcases PlanEntry.mem_planned h with ⟨hdirectory, hmem⟩ | ⟨hfile, hmem⟩
  · have hspells := spells_of_mem_plannedDirectories hname hmem
    rw [drawnPath, if_pos hdirectory, PathTree.stepsOf_append_slash,
      PathTree.stepsOf_of_isInner hspells.isInner hspells.getLast?_ne, hdirectory]
    exact ⟨rfl, by simp⟩
  · rw [plannedFiles_plan hname] at hmem
    obtain ⟨other, hother, hpath⟩ := List.mem_map.mp hmem
    have hlast := getLast?_of_mem_files hname hother
    have hinner := isInner_of_mem_files hname hother
    rw [hpath] at hlast hinner
    rw [drawnPath, hfile, if_neg Bool.false_ne_true, PathTree.stepsOf_of_isInner hinner hlast]
    exact ⟨rfl, by simpa using hlast⟩

/-- The paths of a plan agree on the directories: these are where no file of the plan stands. -/
theorem agrees_of_mem_drawnPaths : ∀ path ∈ l.plan.map drawnPath,
    PathTree.Agrees (holdsNoFile l.plan) (path.toList.getLast? == some '/') []
      (PathTree.stepsOf path) := by
  rw [List.forall_mem_map]
  intro entry hentry
  obtain ⟨hsteps, hlast⟩ := stepsOf_drawnPath hname hentry
  rw [hsteps, hlast]
  -- no file is on the way to a directory, and on the way to a file only at its end
  rcases PlanEntry.mem_planned hentry with ⟨hdirectory, hmem⟩ | ⟨hfile, hmem⟩
  · have hfree : ∀ made, made <+: (ofString entry.path).steps → holdsNoFile l.plan made = true := by
      refine fun made hmade => holdsNoFile_iff.mpr fun file hfile heq => ?_
      rw [plannedFiles_plan hname] at hfile
      obtain ⟨other, hother, rfl⟩ := List.mem_map.mp hfile
      exact not_prefix_directory hname hother hmem (heq ▸ hmade)
    exact ⟨fun _ hstep => isStep_of_mem_steps hstep, fun made _ hmade _ => hfree made hmade,
      fun _ => (hfree _ (List.prefix_refl _)).trans hdirectory.symm⟩
  · have hmem' := hmem
    rw [plannedFiles_plan hname] at hmem'
    obtain ⟨this, hthis, hpath⟩ := List.mem_map.mp hmem'
    refine ⟨fun _ hstep => isStep_of_mem_steps hstep, fun made _ hmade hne => ?_, fun _ => ?_⟩
    · refine holdsNoFile_iff.mpr fun file hfile heq => ?_
      rw [List.nil_append] at heq
      rw [plannedFiles_plan hname] at hfile
      obtain ⟨other, hother, rfl⟩ := List.mem_map.mp hfile
      rw [← heq, ← hpath] at hmade
      have hsame := (placed_of_mem_files hname hother).eq_of_leads (placed_of_mem_files hname hthis)
        hmade
      exact hne (by rw [← heq, hsame, hpath])
    · rw [hfile, Bool.eq_false_iff]
      exact fun hfree => holdsNoFile_iff.mp hfree entry.path hmem rfl

omit hname in
theorem describe_eq (l : Layout) :
    l.describe = PathTree.ofPaths l.model.name (l.plan.map drawnPath) := rfl

/-- The tree of a plan shows its entries and what is on the way to them. -/
theorem mem_nodes_describe_iff {steps : List String} :
    steps ∈ l.describe.nodes.map Prod.fst ↔
      steps ≠ [] ∧ ∃ entry ∈ l.plan, steps <+: (ofString entry.path).steps := by
  rw [describe_eq, PathTree.mem_nodes_ofPaths_iff (agrees_of_mem_drawnPaths hname)]
  simp only [List.mem_map, exists_exists_and_eq_and]
  refine and_congr_right fun _ => exists_congr fun entry => and_congr_right fun hentry => ?_
  rw [(stepsOf_drawnPath hname hentry).1]

end Named

/-! ## Other days -/

section Days

variable (m : Model) (day today : Date)

/-- The paths of the files of a project do not depend on the day. -/
theorem paths_files_layout :
    (m.layout day).files.map PlanEntry.path = (m.layout today).files.map PlanEntry.path := by
  have hspelled : (m.layout day).spelledFiles.map (PlanEntry.path ∘ Prod.fst) =
      (m.layout today).spelledFiles.map (PlanEntry.path ∘ Prod.fst) := by
    have hmodel : ∀ date, (m.layout date).model = m := fun _ => rfl
    have hfile : ∀ (l : Layout) path template, (l.file path template).path = path := fun _ _ _ =>
      rfl
    simp only [spelledFiles, spelledCommonFiles, spelledKindFiles, hmodel]
    cases m.kind <;> simp [test, platformInterface, methodChannel, hmodel, hfile]
  have hnative : ∀ platform, ((m.layout day).nativeFile platform).path =
      ((m.layout today).nativeFile platform).path := by
    intro platform
    rw [path_nativeFile, path_nativeFile]
    rfl
  simp only [files, List.map_append, List.map_map, hspelled]
  exact congrArg _ (List.map_congr_left fun platform _ => hnative platform)

/-- The tree of a plan does not depend on the day. -/
theorem describe_layout (hname : Name.isPackageName m.name = true) :
    (m.layout day).describe = (m.layout today).describe := by
  have hfiles : ∀ date, (m.layout date).files.map drawnPath =
      (m.layout date).files.map PlanEntry.path := by
    refine fun date => List.map_congr_left fun entry hentry => ?_
    rw [drawnPath, isDirectory_of_mem_files (l := m.layout date) hname hentry,
      if_neg Bool.false_ne_true]
  rw [describe_eq, describe_eq, plan_eq, plan_eq, withDirectories, withDirectories, List.map_append,
    List.map_append, hfiles, hfiles, paths_files_layout m day today]
  rfl

end Days

end Layout

/-! ## What is inside a new project -/

section Fresh

variable {d : Disk} {root : Path} {top : List String} {l : Layout} {contents : Contents}
  (h : Fresh d root top l.plan contents) (hname : Name.isPackageName l.model.name = true)

include h hname

theorem Fresh.item?_directory {directory : String} (hmem : directory ∈ plannedDirectories l.plan) :
    d.tree.item? (top ++ (ofString directory).steps) = some .directory := by
  obtain ⟨hinner, hdirectory⟩ :=
    h.holds.directories directory (Layout.wantedDirectories_plan hname ▸ hmem)
  obtain ⟨-, hitem⟩ := isDirectory_true_iff.mp hdirectory
  rw [extend_eq_below hinner] at hitem
  exact h.rooted.item?_of_itemAt hinner.forward hitem

omit hname in
theorem Fresh.item?_file {file : String} (hmem : file ∈ plannedFiles l.plan) :
    ∃ content, d.tree.item? (top ++ (ofString file).steps) = some (.file content) := by
  obtain ⟨hinner, -, ⟨text, -, hitem⟩, -⟩ := h.holds.files file hmem
  rw [extend_eq_below hinner] at hitem
  exact ⟨_, h.rooted.item?_of_itemAt hinner.forward hitem⟩

/-- Inside a new project are the entries of its plan and what is on the way to them. -/
theorem Fresh.item?_ne_none_iff {steps : List String} (hsteps : steps ≠ []) :
    d.tree.item? (top ++ steps) ≠ none ↔
      ∃ entry ∈ l.plan, steps <+: (ofString entry.path).steps := by
  constructor
  · intro hthere
    obtain ⟨item, hitem⟩ := Option.ne_none_iff_exists'.mp hthere
    obtain ⟨step, more, rfl⟩ := List.exists_cons_of_ne_nil hsteps
    rcases h.inside hitem with ⟨-, directory, hmem, made, hmade, hplace⟩ |
      ⟨file, hmem, text, -, hplace, -⟩
    · obtain rfl := List.append_cancel_left hplace
      rw [Layout.wantedDirectories_plan hname] at hmem
      obtain ⟨entry, hentry, rfl⟩ := List.mem_map.mp hmem
      exact ⟨entry, (List.mem_filter.mp hentry).1, hmade⟩
    · obtain ⟨entry, hentry, rfl⟩ := List.mem_map.mp hmem
      exact ⟨entry, (List.mem_filter.mp hentry).1, List.append_cancel_left hplace ▸
        List.prefix_refl _⟩
  · rintro ⟨entry, hentry, more, hmore⟩
    have hentire : d.tree.item? (top ++ (ofString entry.path).steps) ≠ none := by
      rcases PlanEntry.mem_planned hentry with ⟨-, hmem⟩ | ⟨-, hmem⟩
      · simp [h.item?_directory hname hmem]
      · obtain ⟨content, hcontent⟩ := h.item?_file hmem
        simp [hcontent]
    by_cases hnil : more = []
    · rwa [← hmore, hnil, List.append_nil] at hentire
    · rw [← hmore, ← List.append_assoc] at hentire
      simp [FileTree.item?_of_item?_append hnil hentire]

omit hname in
/-- What is inside a new project is a directory unless a file of the plan stands there. -/
theorem Fresh.isDirectory_iff {steps : List String} (hsteps : steps ≠ [])
    (hthere : d.tree.item? (top ++ steps) ≠ none) :
    d.tree.item? (top ++ steps) = some .directory ↔ holdsNoFile l.plan steps = true := by
  rw [holdsNoFile_iff]
  constructor
  · rintro hdirectory file hmem rfl
    obtain ⟨content, hcontent⟩ := h.item?_file hmem
    simp [hcontent] at hdirectory
  · intro hfree
    obtain ⟨item, hitem⟩ := Option.ne_none_iff_exists'.mp hthere
    obtain ⟨step, more, rfl⟩ := List.exists_cons_of_ne_nil hsteps
    rcases h.inside hitem with ⟨rfl, -⟩ | ⟨file, hmem, text, -, hplace, -⟩
    · exact hitem
    · exact absurd (List.append_cancel_left hplace).symm (hfree file hmem)

end Fresh

/-! ## What is shown is created -/

variable {settings : Settings} {today : Date} {m : Model} {d after : Disk} {creation : Creation}

/-- Where nothing is at the place of a root and its path does not pass through anything inside, the
tree of the plan, drawn on any day, shows exactly what a creation leaves inside the root.  Nothing
is shown twice, and the labels of the directories are those that end in a slash. -/
theorem describe_shows_created (hname : Name.isPackageName m.name = true)
    (habsent : d.tree.item? (d.place m.outputRoot) = none) (hdirect : IsDirect d m.outputRoot)
    (hcreate : (create settings today m none).outcome d = (.ok creation, after)) (day : Date) :
    ((m.layout day).describe.nodes.map Prod.fst).Nodup ∧
    (∀ steps, steps ∈ (m.layout day).describe.nodes.map Prod.fst ↔
      steps ≠ [] ∧ after.tree.item? (d.place m.outputRoot ++ steps) ≠ none) ∧
    ∀ node ∈ (m.layout day).describe.nodes, node.2.toList.getLast? = some '/' ↔
      after.tree.item? (d.place m.outputRoot ++ node.1) = some .directory := by
  rw [Layout.describe_layout m day today hname]
  obtain ⟨contents, -, hfresh, -⟩ := create_spec hname habsent hdirect hcreate
  have hname : Name.isPackageName (m.layout today).model.name = true := hname
  have hagrees := Layout.agrees_of_mem_drawnPaths hname
  have hnodes : ∀ steps, steps ∈ (m.layout today).describe.nodes.map Prod.fst ↔
      steps ≠ [] ∧ after.tree.item? (d.place m.outputRoot ++ steps) ≠ none := by
    intro steps
    rw [Layout.mem_nodes_describe_iff hname]
    exact and_congr_right fun hsteps => (hfresh.item?_ne_none_iff hname hsteps).symm
  refine ⟨PathTree.nodup_nodes_ofPaths hagrees _, hnodes, fun node hnode => ?_⟩
  obtain ⟨hsteps, hthere⟩ := (hnodes node.1).mp (List.mem_map_of_mem hnode)
  rw [hfresh.isDirectory_iff hsteps hthere]
  exact PathTree.getLast?_label_ofPaths hagrees _ node hnode

theorem describe_shows_created_smallPackage : ∃ creation after,
    Name.isPackageName (smallPackage "b" false).name = true ∧
    ({} : Disk).tree.item? (({} : Disk).place (smallPackage "b" false).outputRoot) = none ∧
    IsDirect {} (smallPackage "b" false).outputRoot ∧
    (create .standard smallDay (smallPackage "b" false) none).outcome {} = (.ok creation, after) ∧
    ∀ steps, steps ∈ ((smallPackage "b" false).layout ⟨2025, 1, 1⟩).describe.nodes.map Prod.fst ↔
      steps ≠ [] ∧ after.tree.item? (["b"] ++ steps) ≠ none := by
  have hname : Name.isPackageName "b" = true := by decide
  have habsent := @item?_place_of_not_exists {} (smallPackage "b" false).outputRoot (by decide)
    (by decide) (by decide)
  have hdirect : IsDirect {} (smallPackage "b" false).outputRoot := isDirect_of_forward (by decide)
  obtain ⟨creation, after, hcreate⟩ := exists_outcome_ok isOk_create_smallPackage
  exact ⟨creation, after, hname, habsent, hdirect, hcreate,
    (describe_shows_created hname habsent hdirect hcreate ⟨2025, 1, 1⟩).2.1⟩

/-- Where the path of the root leads back out of something inside, that is made with the root and is
not shown. -/
theorem describe_hides_what_the_path_passes : ∃ creation after,
    Name.isPackageName (smallPackage "b/zzz/.." false).name = true ∧
    ({} : Disk).exists? (smallPackage "b/zzz/.." false).outputRoot = .ok false ∧
    (create .standard smallDay (smallPackage "b/zzz/.." false) none).outcome {} =
      (.ok creation, after) ∧
    after.tree.item? (({} : Disk).place (smallPackage "b/zzz/.." false).outputRoot ++ ["zzz"]) =
      some .directory ∧
    ["zzz"] ∉ ((smallPackage "b/zzz/.." false).layout smallDay).describe.nodes.map Prod.fst := by
  have hrun :
      let run := (create .standard smallDay (smallPackage "b/zzz/.." false) none).outcome {}
      (run.1.isOk, run.2.tree.item? ["b", "zzz"]) = (true, some .directory) := by
    unfold create
    rw [plan_smallPackage]
    decide +kernel
  have hhidden : ∀ entry ∈ ((smallPackage "b/zzz/.." false).layout smallDay).plan,
      ¬ ["zzz"] <+: (ofString entry.path).steps := by
    rw [plan_smallPackage]
    decide
  obtain ⟨hok, hmade⟩ := Prod.mk.inj hrun
  obtain ⟨creation, after, hcreate⟩ := exists_outcome_ok hok
  rw [hcreate] at hmade
  refine ⟨creation, after, by decide, by decide, hcreate, hmade, fun hshown => ?_⟩
  obtain ⟨-, entry, hentry, hfront⟩ := (Layout.mem_nodes_describe_iff
    (l := (smallPackage "b/zzz/.." false).layout smallDay) (by decide)).mp hshown
  exact hhidden entry hentry hfront

end PackageScaffold
