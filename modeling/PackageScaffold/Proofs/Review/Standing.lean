import PackageScaffold.Proofs.Project.Written
import PackageScaffold.Proofs.Review.Mending
import PackageScaffold.Proofs.Review.Rereading
import PackageScaffold.Proofs.Review.Run

/-!
# A project from which something is missing

A project stands as it was created, and some of what a review can bring back is removed.  The rest
of it is as it was, so the review finds the directory and the metadata of the project.

* `Model.mendable`: what a review can bring back of a project;
* `Standing`: a project that stands as it was created;
* `Standing.rooted_lacking`, `Standing.itemAt_lacking`: what is left once something is removed;
* `Standing.subject_lacking`: the package is read as it was made, as far as repairs depend on it.
-/

namespace PackageScaffold

open Disk FileM

/-! ## What can be brought back -/

/-- What a review can bring back of a project: the documents, the parts of a plugin with its native
sources, and the library of a package. -/
def Model.mendable (m : Model) : List String :=
  ["README.md", "CHANGELOG.md", "LICENSE", "analysis_options.yaml"] ++
  match m.kind with
  | .application => []
  | .plugin =>
    ["lib/src/" ++ m.name ++ "_platform_interface.dart",
     "lib/src/" ++ m.name ++ "_method_channel.dart"] ++ m.platforms.map (nativePath m.name)
  | .package => [Layout.libraryPath m]

/-- The steps of the native part of a plugin on a platform. -/
def nativeSteps (name : String) (platform : Platform) : List String :=
  if platform = .web then ["lib", name ++ "_web.dart"] else [platform.text]

/-- The steps of what a review can bring back. -/
def Model.mendableSteps (m : Model) : List (List String) :=
  [["README.md"], ["CHANGELOG.md"], ["LICENSE"], ["analysis_options.yaml"]] ++
  match m.kind with
  | .application => []
  | .plugin =>
    [["lib", "src", m.name ++ "_platform_interface.dart"],
     ["lib", "src", m.name ++ "_method_channel.dart"]] ++ m.platforms.map (nativeSteps m.name)
  | .package => [["lib", m.name ++ ".dart"]]

section Mendable

variable {m : Model} {path : String}

theorem spells_nativePath (hname : Name.isPackageName m.name = true) (platform : Platform) :
    Path.Spells (nativePath m.name platform) (nativeSteps m.name platform) := by
  by_cases hweb : platform = .web
  · subst hweb
    exact Layout.spells_webPath (l := ⟨m, []⟩) hname
  · rw [nativePath_of_ne_web m.name hweb, nativeSteps, if_neg hweb]
    cases platform <;> decide

theorem mem_mendable_iff : path ∈ m.mendable ↔
    path ∈ ["README.md", "CHANGELOG.md", "LICENSE", "analysis_options.yaml"] ∨
    (m.kind = .plugin ∧ (path = "lib/src/" ++ m.name ++ "_platform_interface.dart" ∨
      path = "lib/src/" ++ m.name ++ "_method_channel.dart" ∨
      ∃ platform ∈ m.platforms, path = nativePath m.name platform)) ∨
    (m.kind = .package ∧ path = Layout.libraryPath m) := by
  have hnative : (∃ platform ∈ m.platforms, path = nativePath m.name platform) ↔
      ∃ platform ∈ m.platforms, nativePath m.name platform = path := by
    simp only [eq_comm]
  rw [hnative, Model.mendable, List.mem_append]
  cases m.kind <;> simp

theorem exists_steps_of_mem_mendable (hname : Name.isPackageName m.name = true)
    (h : path ∈ m.mendable) : ∃ steps ∈ m.mendableSteps, Path.Spells path steps := by
  have hlayout : Name.isPackageName (⟨m, []⟩ : Layout).model.name = true := hname
  unfold Model.mendableSteps
  rcases mem_mendable_iff.mp h with h | ⟨hkind, h⟩ | ⟨hkind, rfl⟩
  · have hdocument : ∀ path ∈ ["README.md", "CHANGELOG.md", "LICENSE", "analysis_options.yaml"],
        Path.Spells path [path] := by decide
    refine ⟨[path], List.mem_append_left _ ?_, hdocument path h⟩
    simpa using h
  · rw [hkind]
    rcases h with rfl | rfl | ⟨platform, hplatform, rfl⟩
    · exact ⟨_, by simp, Layout.spells_source hlayout (by decide) (by decide)⟩
    · exact ⟨_, by simp, Layout.spells_source hlayout (by decide) (by decide)⟩
    · exact ⟨_, List.mem_append_right _ (List.mem_append_right _ (List.mem_map_of_mem hplatform)),
        spells_nativePath hname platform⟩
  · rw [hkind]
    exact ⟨_, by simp, Layout.spells_libraryPath hlayout⟩

/-- Nothing that can be brought back holds the metadata, the sources or the tests. -/
theorem not_prefix_of_mem_mendableSteps {step : String}
    (hstep : step ∈ ["pubspec.yaml", "lib", "test"]) :
    ∀ steps ∈ m.mendableSteps, ¬ steps <+: [step] := by
  have hother : ∀ {first second : String} {more : List String}, ¬ first :: second :: more <+:
      [step] :=
    fun hstarts => by simpa using hstarts.length_le
  have hdocuments : ∀ steps ∈ ([["README.md"], ["CHANGELOG.md"], ["LICENSE"],
      ["analysis_options.yaml"]] : List (List String)), ¬ steps <+: [step] := by
    simp only [List.mem_cons, List.not_mem_nil, or_false] at hstep
    rcases hstep with rfl | rfl | rfl <;> decide
  have hnative : ∀ platform, ¬ nativeSteps m.name platform <+: [step] := by
    intro platform
    simp only [List.mem_cons, List.not_mem_nil, or_false] at hstep
    unfold nativeSteps
    split
    · exact hother
    · rcases hstep with rfl | rfl | rfl <;> cases platform <;> decide
  unfold Model.mendableSteps
  refine List.forall_mem_append.mpr ⟨hdocuments, ?_⟩
  cases m.kind with
  | application => simp
  | plugin =>
      simp only [List.cons_append, List.nil_append, List.forall_mem_cons, List.forall_mem_map]
      exact ⟨hother, hother, fun platform _ => hnative platform⟩
  | package => simp

/-- Only of a package the library itself can be brought back. -/
theorem not_prefix_library_of_mem_mendableSteps (hkind : m.kind ≠ .package) :
    ∀ steps ∈ m.mendableSteps, ¬ steps <+: ["lib", m.name ++ ".dart"] := by
  have hlong : ∀ {first second third : String} {more : List String},
      ¬ first :: second :: third :: more <+: ["lib", m.name ++ ".dart"] :=
    fun hstarts => by simpa using hstarts.length_le
  have hnative : ∀ platform, ¬ nativeSteps m.name platform <+: ["lib", m.name ++ ".dart"] := by
    intro platform
    unfold nativeSteps
    split
    · simp
    · cases platform <;> simp [Platform.text]
  unfold Model.mendableSteps
  cases hk : m.kind with
  | application => simp
  | plugin =>
      simp only [List.cons_append, List.nil_append, List.forall_mem_cons, List.forall_mem_map]
      refine ⟨by simp, by simp, by simp, by simp, hlong, hlong, fun platform _ => hnative platform⟩
  | package => exact absurd hk hkind

end Mendable

/-! ## A project that stands as it was created -/

/-- A package under review that was created from a model, as far as repairs depend on it. -/
structure Subject.Rereads (today : Date) (m : Model) (s : Subject) : Prop where
  root : s.root = m.outputRoot
  name : s.name = some m.name
  kind : s.kind = m.kind
  platforms : s.platforms = if m.kind = .plugin then m.platforms.eraseDups else []
  layout : ∃ m', s.layout = m'.layout today ∧ m.Alike m' ∧
    (m.kind = .plugin → .android ∈ m.platforms → m'.organization = m.organization)

/-- The native part of a plugin on a platform is there: a file on the web, elsewhere a directory
with something in it. -/
theorem Written.exists_stub {strict : Bool} {today : Date} {m : Model} {contents : Contents}
    {top : List String} {d : Disk} (h : Written strict today m contents top d)
    (hkind : m.kind = .plugin) {platform : Platform} (hplatform : platform ∈ m.platforms) :
    d.exists? (m.outputRoot.extend (nativePath m.name platform)) = .ok true := by
  have hstub : (m.layout today).pluginStub platform ∈ (m.layout today).files := by
    rw [← nativeFile_of_plugin hkind]
    exact Layout.mem_files_iff.mpr (.inr ⟨platform, hplatform, rfl⟩)
  by_cases hweb : platform = .web
  · subst hweb
    exact (h.holdsFile hstub).exists
  · obtain ⟨more, hmore, hsteps⟩ := Layout.steps_pluginStubPath (m := m) hweb
    have hspells := spells_nativePath h.named platform
    rw [nativeSteps, if_neg hweb] at hspells
    exact exists?_of_isDirectory (h.isDirectory hstub hspells hmore hsteps)

/-- A project that stands as it was created, with metadata that spell its model. -/
structure Standing (settings : Settings) (today : Date) (m : Model) (metadata : Entries)
    (contents : Contents) (top : List String) (disk : Disk) : Prop where
  valid : m.IsValid
  spelled : m.IsSpelledBy metadata
  rendered : renderPlan settings.strictTemplates (m.layout today).plan = .ok contents
  fresh : Fresh disk m.outputRoot top (m.layout today).plan contents
  direct : IsDirect disk m.outputRoot
  read : disk.read (m.outputRoot.extend metadataFile) >>= Metadata.parse = .ok metadata

namespace Standing

variable {settings : Settings} {today : Date} {m : Model} {metadata : Entries} {contents : Contents}
  {top : List String} {d : Disk} (h : Standing settings today m metadata contents top d)

include h

/-! ### What is there -/

theorem named : Name.isPackageName (m.layout today).model.name = true :=
  h.valid.name

theorem written : Written settings.strictTemplates today m contents top d :=
  ⟨h.valid.name, h.rendered, h.fresh.rooted, h.fresh.holds.files⟩

/-- Nothing stands below a file of the project. -/
theorem eq_nil_of_below_file {entry : PlanEntry} (hfile : entry ∈ (m.layout today).files)
    {steps more : List String} (hspells : Path.Spells entry.path steps) {item : Item}
    (hitem : d.tree.item? (top ++ (steps ++ more)) = some item) : more = [] := by
  by_contra hmore
  obtain ⟨content, hcontent⟩ := h.written.item?_file hfile
  rw [hspells.steps_eq] at hcontent
  rw [← List.append_assoc] at hitem
  rw [FileTree.item?_of_item?_append hmore (by rw [hitem]; simp)] at hcontent
  simp at hcontent

/-- The directory of a platform holds the native sources of the plugin alone. -/
theorem isPrefix_of_below_native (hkind : m.kind = .plugin) {platform : Platform}
    {more : List String} {item : Item}
    (hitem : d.tree.item? (top ++ platform.text :: more) = some item) :
    platform.text :: more <+:
      (Path.ofString ((m.layout today).pluginStub platform).path).steps := by
  have hkinds : (m.layout today).model.kind ≠ .application := by
    change m.kind ≠ .application
    simp [hkind]
  obtain ⟨file, hfiles, hfront⟩ :=
    Layout.exists_file_of_newPlanned h.named hkinds (h.fresh.inside hitem)
  have hhead : (Path.ofString file.path).steps.head? = some platform.text := by
    obtain ⟨rest, hrest⟩ := hfront
    rw [← hrest]
    rfl
  obtain rfl := Layout.eq_nativeFile_of_head h.named hfiles hhead
  rwa [nativeFile_of_plugin hkind] at hfront

/-- Whatever can be brought back is there. -/
theorem exists_mendable {path : String} (hmem : path ∈ m.mendable) :
    d.exists? (m.outputRoot.extend path) = .ok true := by
  rcases mem_mendable_iff.mp hmem with hmem | ⟨hkind, hmem⟩ | ⟨hkind, rfl⟩
  · exact h.written.exists_common (List.mem_cons_of_mem _ hmem)
  · rcases hmem with rfl | rfl | ⟨platform, hplatform, rfl⟩
    · exact (h.written.holdsFile
        (Layout.mem_files_iff.mpr (.inl ⟨_, interface_mem_spelledFiles hkind⟩))).exists
    · exact (h.written.holdsFile
        (Layout.mem_files_iff.mpr (.inl ⟨_, channel_mem_spelledFiles hkind⟩))).exists
    · exact h.written.exists_stub hkind hplatform
  · exact h.written.exists_library

/-! ### What is removed -/

section Removed

variable {removed : List String} (hremoved : ∀ path ∈ removed, path ∈ m.mendable)

include hremoved

theorem exists_of_mem_places {place : List String}
    (hplace : place ∈ d.places (removed.map m.outputRoot.extend)) :
    ∃ path ∈ removed, ∃ steps ∈ m.mendableSteps, Path.Spells path steps ∧ place = top ++ steps := by
  obtain ⟨target, htarget, hlocate⟩ := mem_places_iff.mp hplace
  obtain ⟨path, hpath, rfl⟩ := List.mem_map.mp htarget
  obtain ⟨steps, hsteps, hspells⟩ := exists_steps_of_mem_mendable h.valid.name (hremoved path hpath)
  rw [Path.extend_eq_below hspells.isInner, hspells.steps_eq] at hlocate
  exact ⟨path, hpath, steps, hsteps, hspells,
    h.fresh.rooted.eq_append_of_locate hspells.forward hlocate⟩

theorem places_inside : ∀ place ∈ d.places (removed.map m.outputRoot.extend),
    ∃ step more, place = top ++ step :: more := by
  intro place hplace
  obtain ⟨_, -, steps, -, hspells, rfl⟩ := h.exists_of_mem_places hremoved hplace
  obtain ⟨step, more, rfl⟩ := List.exists_cons_of_ne_nil hspells.nonempty
  exact ⟨step, more, rfl⟩

theorem places_ne_nil : ∀ place ∈ d.places (removed.map m.outputRoot.extend), place ≠ [] := by
  intro place hplace
  obtain ⟨step, more, rfl⟩ := h.places_inside hremoved place hplace
  simp

theorem rooted_lacking : Rooted (d.lacking m.outputRoot removed) m.outputRoot top :=
  h.fresh.rooted.without h.direct (h.places_inside hremoved)

theorem grows_lacking : Grows (d.lacking m.outputRoot removed) d :=
  Disk.grows_without (h.places_ne_nil hremoved)

/-- What does not stand in anything that can be brought back is kept. -/
theorem itemAt_lacking {path : String} {steps : List String} (hspells : Path.Spells path steps)
    (hkept : ∀ place ∈ m.mendableSteps, ¬ place <+: steps)
    (hthere : d.exists? (m.outputRoot.extend path) = .ok true) :
    (d.lacking m.outputRoot removed).itemAt (m.outputRoot.extend path) =
      d.itemAt (m.outputRoot.extend path) := by
  obtain ⟨-, item, hitem⟩ := exists?_true_iff.mp hthere
  rw [Path.extend_eq_below hspells.isInner, hspells.steps_eq] at hitem ⊢
  have hplace := h.fresh.rooted.item?_of_itemAt hspells.forward hitem
  have hleft : (d.lacking m.outputRoot removed).tree.item? (top ++ steps) = some item := by
    rw [lacking, item?_without_of_kept (h.places_ne_nil hremoved), hplace]
    intro place hmem hstarts
    obtain ⟨_, -, made, hmade, -, rfl⟩ := h.exists_of_mem_places hremoved hmem
    exact hkept made hmade ((List.prefix_append_right_inj top).mp hstarts)
  rw [hitem]
  exact itemAt_of_item? (h.rooted_lacking hremoved) (h.grows_lacking hremoved) hspells.forward hleft
    hitem

theorem exists_lacking {path : String} {steps : List String} (hspells : Path.Spells path steps)
    (hkept : ∀ place ∈ m.mendableSteps, ¬ place <+: steps)
    (hthere : d.exists? (m.outputRoot.extend path) = .ok true) :
    (d.lacking m.outputRoot removed).exists? (m.outputRoot.extend path) = .ok true := by
  obtain ⟨hnull, item, hitem⟩ := exists?_true_iff.mp hthere
  exact exists?_true_iff.mpr ⟨hnull, item,
    (h.itemAt_lacking hremoved hspells hkept hthere).trans hitem⟩

/-- The metadata are read as before. -/
theorem subject_lacking (hauthor : m.author = settings.author)
    (horganization : Name.isOrganization settings.organization = true)
    (hplatforms : ∃ platforms, Platform.ofList settings.platforms = .ok platforms) (strict : Bool) :
    ∃ s, Subject.ofDisk settings today strict m.outputRoot
        (d.lacking m.outputRoot removed) = .ok s ∧ s.Rereads today m := by
  obtain ⟨m', hmodel, halike, hsame⟩ :=
    modelFor_of_isSpelledBy h.spelled h.valid hauthor horganization
    hplatforms m.outputRoot
  have hmetadata : Path.Spells metadataFile ["pubspec.yaml"] := by decide
  have hthere : d.exists? (m.outputRoot.extend metadataFile) = .ok true :=
    h.written.exists_common (List.mem_cons_self)
  have hsame' := h.itemAt_lacking hremoved hmetadata
    (not_prefix_of_mem_mendableSteps (by simp)) hthere
  rw [Subject.ofDisk_congr hsame']
  exact ⟨_, Subject.ofDisk_of_parsed hthere h.read hmodel, rfl,
    nameIn_of_isSpelledBy h.spelled h.valid.name, ofMetadata_of_isSpelledBy h.spelled,
    declaredIn_of_isSpelledBy h.spelled, m', rfl, halike, hsame⟩

end Removed

end Standing

end PackageScaffold
