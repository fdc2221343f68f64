import PackageScaffold.Proofs.Catalogue.Signature
import PackageScaffold.Proofs.Plan.Directories
import PackageScaffold.Proofs.Project.Written
import PackageScaffold.Proofs.Retrofit.Repetition
import PackageScaffold.Proofs.Review.Restoration

/-!
# Retrofits of a new project

A new project follows the conventions from the start.  Whatever its kind is, each conventional file
stands where a file of the project stands, and needs no further directories.  So whichever of them
are wanted, a retrofit of a new project finds nothing to do.

* `Layout.exists_spelledFile_of_convention`: the places of the conventional files are places of every
  project of that name;
* `Layout.wantedDirectories_conventions_subset`: and so are the directories that they need;
* `Layout.exists_renderPlan_conventions`, `Retrofit.exists_prepare`: a project whose metadata can be
  read is prepared;
* `Retrofit.exists_isIdle_of_project`: where all of a project is there, a retrofit is idle;
* `retrofit_of_created`: so it is in a new project.
-/

namespace PackageScaffold

open Disk FileM

namespace Layout

variable {l project : Layout} {wanted : Conventions}

/-! ## The conventions within a project -/

/-- Each conventional file stands where a file of every project of that name stands. -/
theorem exists_spelledFile_of_convention (hsame : l.model.name = project.model.name)
    {file : PlanEntry × List String} (h : file ∈ l.spelledConventions wanted true) :
    ∃ entry, (entry, file.2) ∈ project.spelledFiles ∧ entry.path = file.1.path := by
  have hcommon : ∀ {path template : String} {steps : List String},
      (project.file path template, steps) ∈ project.spelledCommonFiles →
        ∃ entry, (entry, steps) ∈ project.spelledFiles ∧ entry.path = path :=
    fun hmem => ⟨_, List.mem_append_left _ hmem, rfl⟩
  simp only [spelledConventions, List.mem_append, List.mem_ite_nil_right, List.mem_cons,
    List.not_mem_nil, or_false] at h
  rcases h with (((⟨-, rfl⟩ | ⟨-, rfl⟩) | ⟨-, rfl | rfl | rfl⟩) | ⟨-, rfl⟩) | rfl
  case inl.inr =>
    refine ⟨project.test false, ?_, ?_⟩
    · rw [hsame]
      exact test_mem_spelledFiles project
    · change _ ++ project.model.name ++ _ = _ ++ l.model.name ++ _
      rw [hsame]
  all_goals exact hcommon (by simp [spelledCommonFiles]; rfl)

section Named

variable (hname : Name.isPackageName project.model.name = true)
  (hsame : l.model.name = project.model.name)

include hname hsame

theorem plannedFiles_conventions_subset :
    plannedFiles (l.conventions wanted true) ⊆ plannedFiles project.plan := by
  rw [plannedFiles_conventions (hsame ▸ hname), plannedFiles_plan hname]
  intro path hpath
  obtain ⟨entry, hentry, rfl⟩ := List.mem_map.mp hpath
  obtain ⟨steps, hfile⟩ := mem_conventionFiles_iff.mp hentry
  obtain ⟨entry', hspelled, hpath⟩ := exists_spelledFile_of_convention hsame hfile
  exact List.mem_map.mpr ⟨entry', mem_files_iff.mpr (.inl ⟨steps, hspelled⟩), hpath⟩

/-- All directories that the conventions need are on the way to a file of the project. -/
theorem wantedDirectories_conventions_subset :
    wantedDirectories (l.conventions wanted true) ⊆ wantedDirectories project.plan := by
  have hfiles : ∀ entry ∈ l.conventionFiles wanted true, entry.isDirectory = false :=
    fun _ => isDirectory_of_mem_conventionFiles (hsame ▸ hname)
  have hinner : ∀ path ∈ needers (l.conventionFiles wanted true) (conventionDirectories wanted true),
      Path.IsInner path := by
    intro path hpath
    obtain ⟨steps, hspells, -⟩ := isLeaf_of_mem_conventions (hsame ▸ hname) hpath
    exact hspells.isInner
  have hneeded : needers (l.conventionFiles wanted true) (conventionDirectories wanted true) ⊆
      needers project.files project.furtherDirectories := by
    have hsubset : plannedFiles (l.conventions wanted true) ⊆ plannedFiles project.plan :=
      plannedFiles_conventions_subset hname hsame
    rw [plannedFiles_conventions (hsame ▸ hname), plannedFiles_plan hname] at hsubset
    rw [needers_conventions]
    exact fun path hpath => List.mem_append_left _ (hsubset (by simpa using hpath))
  rw [wantedDirectories_plan hname, plan_eq, conventions_eq,
    wantedDirectories_withDirectories hfiles hinner]
  intro directory hdirectory
  obtain ⟨path, hpath, hmade⟩ := (mem_plannedDirectories_iff hfiles hinner).mp hdirectory
  exact (mem_plannedDirectories_iff (fun _ => isDirectory_of_mem_files hname)
    fun _ => isInner_of_mem_needers hname).mpr ⟨path, hneeded hpath, hmade⟩

end Named

/-- The conventional files of a project are rendered, whatever its model is. -/
theorem exists_renderPlan_conventions (m : Model) (today : Date) (wanted : Conventions)
    (named strict : Bool) :
    ∃ contents, renderPlan strict ((m.layout today).conventions wanted named) = .ok contents := by
  have hbuiltIn : ∀ name ∈ Catalogue.standard.map Prod.fst,
      ∃ text, Catalogue.standard.render strict name (m.bindings today) = .ok text := by
    intro name hname
    obtain ⟨text, htext⟩ := Catalogue.rendersAll_bindings m today name hname
    exact ⟨text, htext strict⟩
  refine exists_renderPlan_eq_ok fun entry hentry source hsource => ?_
  rw [conventions_eq] at hentry
  have hrendered : entry.source? ≠ none := hsource ▸ Option.some_ne_none source
  have hfile := mem_of_mem_withDirectories hentry (PlanEntry.isDirectory_of_rendered hrendered)
  obtain ⟨steps, hspelled⟩ := mem_conventionFiles_iff.mp hfile
  simp only [spelledConventions, List.mem_append, List.mem_ite_nil_right, List.mem_cons,
    List.not_mem_nil, or_false, Prod.mk.injEq] at hspelled
  rcases hspelled with (((⟨-, rfl, -⟩ | ⟨-, rfl, -⟩) | ⟨-, ⟨rfl, -⟩ | ⟨rfl, -⟩ | ⟨rfl, -⟩⟩) |
    ⟨-, rfl, -⟩) | ⟨rfl, -⟩
  all_goals
    obtain rfl := Option.some.inj hsource
    exact hbuiltIn _ (by simp [Catalogue.standard])

end Layout

/-! ## Settled from the start -/

variable {d : Disk} {root : Path} {contents : Contents} {settings : Settings} {today : Date}
  {wanted : Conventions}

/-- A project whose metadata can be read is prepared, with the name that they declare. -/
theorem Retrofit.exists_prepare (settings : Settings) (today : Date) (wanted : Conventions)
    (hdirectory : d.isDirectory root = .ok true)
    (hthere : d.exists? (root.extend metadataFile) = .ok true) {metadata : Entries}
    (hread : d.read (root.extend metadataFile) >>= Metadata.parse = .ok metadata) :
    ∃ subject prepared, prepare settings today wanted root d = .ok prepared ∧
      Prepared settings today wanted root d subject prepared ∧
      subject.name = Subject.nameIn metadata := by
  obtain ⟨model, hmodel⟩ := exists_modelFor settings root metadata
  have hsubject : subjectToRetrofit settings today root d = .ok _ := subjectToRetrofit_eq_ok_iff.mpr
    ⟨hdirectory, hthere, Subject.ofDisk_of_parsed hthere hread hmodel, rfl⟩
  obtain ⟨contents, hcontents⟩ := Layout.exists_renderPlan_conventions model today wanted
    (Subject.nameIn metadata).isSome settings.strictTemplates
  have hprepare : prepare settings today wanted root d = .ok {
      outset := { root, kind := Kind.ofMetadata metadata, name := Subject.nameIn metadata }
      entries := (model.layout today).conventions wanted (Subject.nameIn metadata).isSome
      contents } := by
    simp only [prepare, hsubject, bind, Except.bind, hcontents]
    rfl
  obtain ⟨subject, hprepared⟩ := exists_prepared hprepare
  refine ⟨subject, _, hprepare, hprepared, ?_⟩
  obtain rfl := Except.ok.inj (hprepared.read.symm.trans hsubject)
  rfl

/-- Where a project is there, and its metadata are read with its name, a retrofit finds nothing to
do. -/
theorem Retrofit.exists_isIdle_of_project (settings : Settings) (today : Date)
    (wanted : Conventions)
    {project : Layout} (hname : Name.isPackageName project.model.name = true)
    (hdirectory : d.isDirectory root = .ok true)
    (hproject : IsSettled root .skip contents project.plan d) {metadata : Entries}
    (hread : d.read (root.extend metadataFile) >>= Metadata.parse = .ok metadata)
    (hnamed : Entries.get? metadata "name" = some (.text project.model.name)) :
    ∃ prepared done, IsIdle settings today wanted root d prepared done := by
  have hthere : d.exists? (root.extend metadataFile) = .ok true := by
    refine hproject.files metadataFile ?_
    rw [Layout.plannedFiles_plan hname]
    exact List.mem_map_of_mem (Layout.mem_files_iff.mpr (.inl ⟨_, metadata_mem_spelledFiles _⟩))
  obtain ⟨subject, prepared, hprepare, hprepared, hsubject⟩ := exists_prepare settings today wanted
    hdirectory hthere hread
  have hnameIn : Subject.nameIn metadata = some project.model.name := by
    rw [Subject.nameIn, hnamed]
    exact if_pos hname
  rw [hnameIn] at hsubject
  obtain ⟨-, -, hfound, -⟩ := subjectToRetrofit_eq_ok_iff.mp hprepared.read
  have hsame : subject.layout.model.name = project.model.name :=
    (Subject.sound_of_ofDisk hfound).name_eq hsubject
  have hentries : prepared.entries = subject.layout.conventions wanted true := by
    rw [hprepared.entries, hsubject]
    rfl
  -- each plan of the retrofit lies within the conventions, and these within the project
  have hsettled : ∀ isKept : PlanEntry → Bool,
      IsSettled prepared.outset.root .skip prepared.contents
      (prepared.entries.filter isKept) d := by
    intro isKept
    have hpart : prepared.entries.filter isKept ⊆ subject.layout.conventions wanted true := by
      rw [hentries]
      exact List.filter_subset_self _
    rw [hprepared.outset]
    exact hproject.within
      (List.Subset.trans (plannedFiles_subset hpart)
        (Layout.plannedFiles_conventions_subset hname hsame))
      (List.Subset.trans (wantedDirectories_subset hpart)
        (Layout.wantedDirectories_conventions_subset hname hsame)) _
  obtain ⟨done, hidle⟩ := exists_isIdle hprepare hprepared <| by
    simp only [batches, List.forall_mem_cons]
    exact ⟨hsettled _, hsettled _, by simp⟩
  exact ⟨prepared, done, hidle⟩

/-- Whatever the settings are and whichever conventions are wanted, a retrofit finds nothing to do
in a project that has been created, wherever that was, as long as its metadata are read with its
name. -/
theorem retrofit_of_created (settings config : Settings) (today date : Date) (wanted : Conventions)
    {m : Model} (hname : Name.isPackageName m.name = true) {creation : Creation} {after : Disk}
    (hcreate : (create settings today m none).outcome d = (.ok creation, after))
    {metadata : Entries}
    (hread : after.read (m.outputRoot.extend metadataFile) >>= Metadata.parse = .ok metadata)
    (hnamed : Entries.get? metadata "name" = some (.text m.name)) :
    ∃ prepared done, Retrofit.IsIdle config date wanted m.outputRoot after prepared done := by
  obtain ⟨contents, middle, carried, -, -, hrooted, hcarry, -⟩ := rooted_of_create hname hcreate
  have hname : Name.isPackageName (m.layout today).model.name = true := hname
  obtain ⟨hspares, hproject⟩ := isSettled_of_carryOut (Layout.isInnerPlan_plan hname) hcarry
    contents
  -- what was made for the root is still there
  have hafter := hspares.rooted hrooted
  exact Retrofit.exists_isIdle_of_project config date wanted hname
    (isDirectory_true_iff.mpr ⟨hafter.noNull, hafter.itemAt⟩) hproject hread hnamed

/-- A plugin that has just been created, with all conventions wanted. -/
theorem retrofit_of_created_plugin : ∃ creation after prepared done,
    Name.isPackageName (androidPlugin "b").name = true ∧
    (create .standard creationDay.date (androidPlugin "b") none).outcome {} = (.ok creation, after) ∧
    after.read ((androidPlugin "b").outputRoot.extend metadataFile) >>= Metadata.parse =
      .ok (androidPlugin "b").metadata ∧
    Entries.get? (androidPlugin "b").metadata "name" = some (.text (androidPlugin "b").name) ∧
    Retrofit.IsIdle .standard creationDay.date {} (androidPlugin "b").outputRoot after prepared
      done := by
  have hname := (isValid_androidPlugin "b").name
  obtain ⟨creation, after, -, hcreate, -, -⟩ :=
    exists_create_androidPlugin isOk_create_androidPlugin
  have hread := parse_metadata_androidPlugin hcreate
  have hnamed : Entries.get? (androidPlugin "b").metadata "name" = some (.text "b") := rfl
  obtain ⟨prepared, done, hidle⟩ := retrofit_of_created .standard .standard creationDay.date
    creationDay.date {} hname hcreate hread hnamed
  exact ⟨creation, after, prepared, done, hname, hcreate, hread, hnamed, hidle⟩

end PackageScaffold
