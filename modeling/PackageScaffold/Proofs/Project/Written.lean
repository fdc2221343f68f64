import PackageScaffold.Proofs.Except
import PackageScaffold.Proofs.Plan.Parts
import PackageScaffold.Proofs.Project.Creation

/-!
# What a creation without leave to overwrite has written

Without leave to overwrite, a creation that came to its end has written every file of its plan, and
each of them once, whatever was on the disk before.

* `rooted_of_create`: the root is made a directory before anything is written below it;
* `writeFiles_fail_spec`: the files that were written, by induction along the plan;
* `Written`: every file of a project stands below its root, with what follows of the directories;
* `create_written`: what a creation has written.
-/

namespace PackageScaffold

open Disk FileM

variable {d : Disk} {root : Path} {top : List String}

/-! ## The root -/

/-- A creation goes on only if it sees nothing in its way. -/
theorem obstacle?_of_create {settings : Settings} {today : Date} {m : Model} {allowance : Allowance}
    {creation : Creation} {after : Disk}
    (h : (create settings today m allowance).outcome d = (.ok creation, after)) :
    m.obstacle? d = .ok none := by
  unfold create at h
  obtain ⟨obstacle?, same, hlook, h⟩ := outcome_bind_eq_ok h
  rw [outcome_inspect] at hlook
  obtain ⟨hobstacle, rfl⟩ := Prod.mk.injEq .. ▸ hlook
  cases obstacle? with
  | none => exact hobstacle
  | some obstacle =>
      obtain ⟨_, _, hthrow, -⟩ := outcome_bind_eq_ok h
      simp at hthrow

/-- What a creation sees at its root is a directory, or nothing. -/
theorem root_of_obstacle? {m : Model} (h : m.obstacle? d = .ok none) :
    (∃ top, Rooted d m.outputRoot top) ∨ d.look? m.outputRoot = .ok none := by
  unfold Model.obstacle? at h
  obtain ⟨found, hlook, h⟩ := bind_eq_ok h
  rcases found with _ | content | entries
  · exact .inr hlook
  · simp [pure, Except.pure] at h
  · refine .inl (exists_rooted ?_)
    simp [Disk.isDirectory, hlook, bind, Except.bind, pure, Except.pure, FileTree.isDirectory]

/-- A creation that came to its end has made its root a directory, and then carried out its plan
there. -/
theorem rooted_of_create {settings : Settings} {today : Date} {m : Model}
    (hname : Name.isPackageName m.name = true) {creation : Creation} {after : Disk}
    (h : (create settings today m none).outcome d = (.ok creation, after)) :
    ∃ contents middle done,
      renderPlan settings.strictTemplates (m.layout today).plan = .ok contents ∧
      Adds (fun place item => item = .directory ∧ Passes d m.outputRoot place) d middle ∧
      Rooted middle m.outputRoot (d.place m.outputRoot) ∧
      (carryOut (m.layout today).plan m.outputRoot contents
        (if m.force then Policy.overwrite else .fail) none).outcome middle = (.ok done, after) ∧
      creation = ⟨m.outputRoot, done.1.directories, done.1.files, done.1.cancelled⟩ := by
  obtain ⟨contents, middle, done, hcontents, hensure, hcarry, hcreation⟩ := create_eq_ok h
  obtain ⟨hadds, hdone⟩ := ensureDirectory_passes hensure
  obtain ⟨hnull, hdirectory⟩ := hdone rfl
  suffices hrooted : ∃ top, Rooted middle m.outputRoot top by
    obtain ⟨top, hrooted⟩ := hrooted
    have htop := hrooted.eq_place
    rw [place_of_working hadds.working] at htop
    exact ⟨contents, middle, done, hcontents, hadds, htop ▸ hrooted, hcarry, hcreation⟩
  by_cases hsteps : m.outputRoot.steps = []
  · rcases root_of_obstacle? (obstacle?_of_create h) with ⟨top, hrooted⟩ | hlook
    · exact ⟨top, hrooted.grows hadds.grows⟩
    · -- nothing is made for a root without steps, and the plan has nowhere to go
      exfalso
      obtain rfl : d = middle := by
        have hsame : d.makeDirectory m.outputRoot = (d, none) := by
          rw [makeDirectory, hsteps]
          rfl
        rw [outcome_ensureDirectory hnull, hsame] at hensure
        exact congrArg Prod.snd hensure
      have hstart : d.tree.item? (d.start m.outputRoot) = none := by
        have hexists : d.exists? m.outputRoot = .ok false := by
          simp [exists?, hlook, bind, Except.bind, pure, Except.pure]
        have hplace := item?_place_of_not_exists (by simp [hsteps]) hnull hexists
        rwa [place, hsteps] at hplace
      have hinner := Layout.isInnerPlan_plan (l := m.layout today) hname
      obtain ⟨failure, hfailed⟩ := exists_carryOut_eq_error hstart hinner
        (wantedDirectories_plan_ne_nil hname) contents (if m.force then Policy.overwrite else .fail)
      rw [hfailed] at hcarry
      simp at hcarry
  · exact exists_rooted (isDirectory_true_iff.mpr ⟨hnull, hdirectory hsteps⟩)

/-! ## The files -/

/-- Nothing stood in the place of a file that was written without leave to overwrite. -/
theorem item?_of_writeFile (h : Rooted d root top) {file : String} (hinner : Path.IsInner file)
    {content : Content} {after : Disk}
    (hrun : (writeFile (root.extend file) content false).outcome d = (.ok (), after)) :
    d.tree.item? (top ++ (Path.ofString file).steps) = none := by
  obtain ⟨hfree, -, hnull, -⟩ := writeFile_eq_ok hrun
  exact h.item?_of_not_exists hinner hnull (hfree rfl)

/-- Files that were written without leave to overwrite are there, and each was written once. -/
theorem writeFiles_fail_spec (h : Rooted d root top) {contents : Contents} {files : List String}
    (hinner : ∀ file ∈ files, Path.IsInner file) {marks : List (String × Mark) × Allowance}
    {after : Disk}
    (hrun : (writeFiles root .fail contents none files).outcome d = (.ok marks, after)) :
    Grows d after ∧ files.Nodup ∧ (∀ file ∈ files, d.exists? (root.extend file) ≠ .ok true) ∧
      ∀ file ∈ files, HoldsFile after root contents file := by
  induction files generalizing d marks with
  | nil =>
      obtain ⟨-, rfl⟩ := Prod.mk.injEq .. ▸ hrun
      exact ⟨.refl _ d, List.nodup_nil, by simp, by simp⟩
  | cons file rest ih =>
      obtain ⟨text, middle, marks', hlookup, hwrite, hrest⟩ := writeFiles_cons_eq_ok (by simp) hrun
      have hfile := hinner file List.mem_cons_self
      have hfree := (writeFile_eq_ok hwrite).1 rfl
      obtain ⟨hadds, hheld⟩ := writeFile_spec h hfile hlookup hwrite fun old hold => by
        simp [item?_of_writeFile h hfile hwrite] at hold
      have hmiddle := h.grows hadds.grows
      obtain ⟨hgrows, hnodup, hmissing, hholds⟩ :=
        ih hmiddle (fun other hother => hinner other (List.mem_cons_of_mem _ hother)) hrest
      refine ⟨hadds.grows.trans hgrows, List.nodup_cons.mpr ⟨fun hmem => ?_, hnodup⟩,
        List.forall_mem_cons.mpr ⟨by simp [hfree], fun other hother hthere => ?_⟩,
        List.forall_mem_cons.mpr ⟨hheld.grows hmiddle hgrows, hholds⟩⟩
      · exact hmissing file hmem hheld.exists
      · exact hmissing other hother (exists?_true_of_grows hthere hadds.grows)

/-! ## The project -/

/-- Every file of a project stands below its root. -/
structure Written (strict : Bool) (today : Date) (m : Model) (contents : Contents)
    (top : List String) (disk : Disk) : Prop where
  named : Name.isPackageName m.name = true
  rendered : renderPlan strict (m.layout today).plan = .ok contents
  rooted : Rooted disk m.outputRoot top
  holds : ∀ file ∈ plannedFiles (m.layout today).plan, HoldsFile disk m.outputRoot contents file

/-- What a creation without leave to overwrite has written stands below its root, and nothing was
to be written twice. -/
theorem create_written {settings : Settings} {today : Date} {m : Model}
    (hname : Name.isPackageName m.name = true) (hforce : m.force = false) {creation : Creation}
    {after : Disk} (h : (create settings today m none).outcome d = (.ok creation, after)) :
    (plannedFiles (m.layout today).plan).Nodup ∧
      ∃ contents top, Written settings.strictTemplates today m contents top after := by
  obtain ⟨contents, middle, done, hcontents, -, hrooted, hcarry, -⟩ := rooted_of_create hname h
  have hinner := Layout.isInnerPlan_plan (l := m.layout today) hname
  rw [hforce] at hcarry
  obtain ⟨made, last, marks, hmake, hwrite, -⟩ := carryOut_eq_ok hcarry
  have hlast := hrooted.grows
    (makeMissing_spec hrooted hinner.wanted hmake (by simp [Deliberate])).adds.grows
  obtain ⟨hgrows, hnodup, -, hholds⟩ := writeFiles_fail_spec hlast hinner.files hwrite
  exact ⟨hnodup, contents, _, hname, hcontents, hlast.grows hgrows, hholds⟩

/-- Every project has a library that is named after it. -/
theorem exists_library_mem_spelledFiles (l : Layout) :
    ∃ entry, (entry, ["lib", l.model.name ++ ".dart"]) ∈ l.spelledFiles ∧
      entry.path = Layout.libraryPath l.model := by
  unfold Layout.spelledFiles Layout.spelledKindFiles
  cases l.model.kind with
  | application => exact ⟨l.file (Layout.libraryPath l.model) "dart/app_library", by simp, rfl⟩
  | plugin => exact ⟨l.file (Layout.libraryPath l.model) "dart/plugin_library", by simp, rfl⟩
  | package => exact ⟨l.exporting.file (Layout.libraryPath l.model) "dart/library", by simp, rfl⟩

/-- Every project has metadata. -/
theorem metadata_mem_spelledFiles (l : Layout) :
    (l.file "pubspec.yaml" (Layout.metadataTemplate l.model.kind), ["pubspec.yaml"]) ∈
      l.spelledFiles :=
  List.mem_append_left _ List.mem_cons_self

theorem test_mem_spelledFiles (l : Layout) :
    (l.test false, ["test", l.model.name ++ "_test.dart"]) ∈ l.spelledFiles := by
  unfold Layout.spelledFiles Layout.spelledKindFiles
  cases l.model.kind <;> simp

namespace Written

variable {strict : Bool} {today : Date} {m : Model} {contents : Contents}
  (h : Written strict today m contents top d)

include h

theorem holdsFile {entry : PlanEntry} (hfile : entry ∈ (m.layout today).files) :
    HoldsFile d m.outputRoot contents entry.path := by
  refine h.holds _ ?_
  rw [Layout.plannedFiles_plan (l := m.layout today) h.named]
  exact List.mem_map_of_mem hfile

/-- A file of the project stands at its place. -/
theorem item?_file {entry : PlanEntry} (hfile : entry ∈ (m.layout today).files) :
    ∃ content, d.tree.item? (top ++ (Path.ofString entry.path).steps) = some (.file content) := by
  obtain ⟨hinner, -, ⟨text, -, hitem⟩, -⟩ := h.holdsFile hfile
  rw [Path.extend_eq_below hinner] at hitem
  exact ⟨_, h.rooted.item?_of_itemAt hinner.forward hitem⟩

/-- A spelled file holds what its template gives, unless it is a library of an application. -/
theorem exists_rendered {entry : PlanEntry} {steps : List String}
    (hspelled : (entry, steps) ∈ (m.layout today).spelledFiles)
    (hkind : m.kind ≠ .application ∨ steps.length = 1) (source : FileSource)
    (hsource : entry.source? = some source) :
    ∃ text, Catalogue.standard.render strict source.template source.bindings = .ok text ∧
      d.itemAt (m.outputRoot.extend entry.path) = .ok (.file (.text text)) := by
  have hname : Name.isPackageName (m.layout today).model.name = true := h.named
  have hfile : entry ∈ (m.layout today).files := Layout.mem_files_iff.mpr (.inl ⟨_, hspelled⟩)
  have hplanned : entry ∈ (m.layout today).plan :=
    (Layout.mem_plan_iff (Layout.rendered_of_mem_files hname hfile)).mpr hfile
  have halone : entry.IsAlone (m.layout today).plan :=
    (Layout.isPart_spelled hname hspelled hkind).alone _ List.mem_cons_self
  obtain ⟨text, hrender, hlookup⟩ := lookup_renderPlan h.rendered hplanned halone hsource
  obtain ⟨text', hlookup', hitem⟩ := (h.holdsFile hfile).content
  obtain rfl : text = text' := Option.some.inj (hlookup.symm.trans hlookup')
  exact ⟨text, hrender, hitem⟩

/-- What is read from such a file, with every end of a line as an ordinary line break. -/
theorem exists_read {entry : PlanEntry} {steps : List String}
    (hspelled : (entry, steps) ∈ (m.layout today).spelledFiles)
    (hkind : m.kind ≠ .application ∨ steps.length = 1) (source : FileSource)
    (hsource : entry.source? = some source) :
    ∃ text, Catalogue.standard.render strict source.template source.bindings = .ok text ∧
      d.read (m.outputRoot.extend entry.path) =
        .ok (String.ofList (Content.unifyLines text.toList)) := by
  obtain ⟨text, hrender, hitem⟩ := h.exists_rendered hspelled hkind source hsource
  have hnull := (h.holdsFile (Layout.mem_files_iff.mpr (.inl ⟨_, hspelled⟩))).noNull
  refine ⟨text, hrender, ?_⟩
  rw [read_eq, hnull, hitem]
  rfl

/-- What is on the way to a file of the project is a directory. -/
theorem isDirectory {entry : PlanEntry} (hfile : entry ∈ (m.layout today).files) {path : String}
    {made more : List String} (hspells : Path.Spells path made) (hmore : more ≠ [])
    (hsteps : (Path.ofString entry.path).steps = made ++ more) :
    d.isDirectory (m.outputRoot.extend path) = .ok true := by
  obtain ⟨hinner, hnull, ⟨text, -, hitem⟩, -⟩ := h.holdsFile hfile
  have hforward := hinner.forward
  rw [Path.extend_eq_below hinner, hsteps] at hnull hitem
  rw [hsteps] at hforward
  rw [Path.extend_eq_below hspells.isInner, hspells.steps_eq]
  refine isDirectory_true_iff.mpr ⟨?_, ?_⟩
  · change (m.outputRoot.steps ++ (made ++ more)).any Path.isNullStep = false at hnull
    change (m.outputRoot.steps ++ made).any Path.isNullStep = false
    rw [← List.append_assoc, List.any_append, Bool.or_eq_false_iff] at hnull
    exact hnull.1
  · obtain ⟨place, hlocate, -⟩ := exists_locate_of_itemAt hitem
    exact itemAt_of_append h.rooted hforward hlocate hmore

theorem exists_library : d.exists? (m.outputRoot.extend (Layout.libraryPath m)) = .ok true := by
  obtain ⟨entry, hmem, hpath⟩ := exists_library_mem_spelledFiles (m.layout today)
  have hthere := (h.holdsFile (Layout.mem_files_iff.mpr (.inl ⟨_, hmem⟩))).exists
  rwa [hpath] at hthere

theorem isDirectory_sources : d.isDirectory (m.outputRoot.extend "lib") = .ok true := by
  obtain ⟨entry, hmem, hpath⟩ := exists_library_mem_spelledFiles (m.layout today)
  have hspelled : Path.Spells entry.path _ :=
    (Layout.isSpelled_of_mem (l := m.layout today) h.named hmem).spells
  exact h.isDirectory (Layout.mem_files_iff.mpr (.inl ⟨_, hmem⟩)) (.single (by decide) (by decide))
    (by simp) hspelled.steps_eq

theorem isDirectory_tests : d.isDirectory (m.outputRoot.extend "test") = .ok true := by
  have hmem := test_mem_spelledFiles (m.layout today)
  have hspelled : Path.Spells ((m.layout today).test false).path _ :=
    (Layout.isSpelled_of_mem (l := m.layout today) h.named hmem).spells
  exact h.isDirectory (Layout.mem_files_iff.mpr (.inl ⟨_, hmem⟩)) (.single (by decide) (by decide))
    (by simp) hspelled.steps_eq

theorem exists_common {path : String} (hpath : path ∈ ["pubspec.yaml", "README.md", "CHANGELOG.md",
    "LICENSE", "analysis_options.yaml"]) : d.exists? (m.outputRoot.extend path) = .ok true := by
  obtain ⟨entry, hmem, rfl⟩ : ∃ entry, (entry, [path]) ∈ (m.layout today).spelledFiles ∧
      entry.path = path := by
    simp only [List.mem_cons, List.not_mem_nil, or_false] at hpath
    rcases hpath with rfl | rfl | rfl | rfl | rfl <;>
      exact ⟨_, List.mem_append_left _ (by simp [Layout.spelledCommonFiles]; rfl), rfl⟩
  exact (h.holdsFile (Layout.mem_files_iff.mpr (.inl ⟨_, hmem⟩))).exists

end Written

/-- A directory is something. -/
theorem exists?_of_isDirectory {path : Path} (h : d.isDirectory path = .ok true) :
    d.exists? path = .ok true := by
  obtain ⟨hnull, hitem⟩ := isDirectory_true_iff.mp h
  exact exists?_true_iff.mpr ⟨hnull, _, hitem⟩

end PackageScaffold
