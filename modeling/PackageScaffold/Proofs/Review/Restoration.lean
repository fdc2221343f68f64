import PackageScaffold.Proofs.Metadata.Name
import PackageScaffold.Proofs.Project.Written
import PackageScaffold.Proofs.Review.Readme
import PackageScaffold.Proofs.Review.Standing

/-!
# Bringing back what was created

A project is created where nothing was, some of what a review can bring back is removed, and the
project is reviewed with repairs.  Every plan that the review makes is a part of the plan that the
project was created from, and whatever is missing is made by one of them, so all of it comes back as
it was.  The metadata are read as their template spells them, unless the name, the organization or
the description of the project stand in the way.

* `Model.IsLegible`, `Written.parse_metadata`: the projects of which nothing stands in the way;
* `Standing.mends_of_mem_repairsOf`: the plans that the review makes;
* `Standing.exists_repair`: whatever is missing is asked for;
* `Standing.isThere_of_mem_repairsOf`: all that the plans make was there before;
* `Standing.review_restores`: what comes of the review;
* `review_restores_created`: the same from the creation on, for a project whose path does not pass
  through anything inside it.
-/

namespace PackageScaffold

/-! ## The metadata of a project that was written -/

section Legible

open Yaml

/-- A project whose metadata can be read as their template spells them. -/
structure Model.IsLegible (m : Model) : Prop where
  valid : m.IsValid
  distinct : m.platforms.Nodup
  name : m.name ∉ Name.reserved
  nameEnds : Name.endsInBreak m.name = false
  organizationEnds : m.kind = .plugin → .android ∈ m.platforms → Name.endsInBreak m.organization = false
  writable : ∀ c ∈ m.description.toList, isWritable c = true
  kept : isKept m.description.toList = true

namespace Model.IsLegible

variable {m : Model} (h : m.IsLegible)

include h

theorem not_breaksLines : ¬ m.BreaksLines := by
  simpa [Model.BreaksLines, h.nameEnds] using h.organizationEnds

theorem isRead_described : (Pubspec.described m.description).IsRead :=
  Pubspec.isRead_described h.writable h.kept

/-- The metadata are read as their template spells them. -/
theorem parse_metadataText : Metadata.parse m.metadataText = .ok m.metadata := by
  have hparse := Pubspec.parse_of_not_breaksLines h.valid h.distinct h.isRead_described
    h.not_breaksLines
  rw [Name.stem_of_not_endsInBreak h.nameEnds, Name.reading_eq_text_iff.mpr ⟨h.name, rfl⟩] at hparse
  rw [hparse]
  unfold Model.metadata
  cases m.kind <;> rfl

end Model.IsLegible

/-- What a file gives back as it was written has no ends of lines to unify. -/
theorem unifyLines_of_stored {text : List Char} (h : ∀ c ∈ text, isStored c = true) :
    Content.unifyLines text = text :=
  Content.unifyLines_eq_self fun hmem => absurd (h _ hmem) (by decide)

/-- The metadata of a project that was written are read as their template spells them. -/
theorem Written.parse_metadata {strict : Bool} {today : Date} {m : Model} {contents : Contents}
    {top : List String} {d : Disk} (h : Written strict today m contents top d)
    (hlegible : m.IsLegible) :
    d.read (m.outputRoot.extend metadataFile) >>= Metadata.parse = .ok m.metadata := by
  obtain ⟨text, hrender, hread⟩ := h.exists_read (metadata_mem_spelledFiles (m.layout today))
    (.inr rfl)
    ⟨Layout.metadataTemplate m.kind, m.bindings today⟩ rfl
  rw [Catalogue.render_metadata] at hrender
  obtain rfl := Except.ok.inj hrender
  have hstored := Pubspec.stored_of_not_breaksLines hlegible.valid hlegible.distinct
    hlegible.isRead_described hlegible.not_breaksLines
  rw [unifyLines_of_stored hstored, String.ofList_toList] at hread
  rw [show d.read (m.outputRoot.extend metadataFile) = _ from hread]
  exact hlegible.parse_metadataText

end Legible

open Disk FileM

/-! ## What is read off the metadata -/

namespace Subject.Rereads

variable {today : Date} {m : Model} {s : Subject} (hs : s.Rereads today m)

include hs

theorem inside (path : String) : s.inside path = m.outputRoot.extend path := by
  rw [Subject.inside, hs.root]

theorem layout_name : s.layout.model.name = m.name := by
  obtain ⟨m', hlayout, halike, -⟩ := hs.layout
  rw [hlayout]
  exact halike.name

theorem layout_kind : s.layout.model.kind = m.kind := by
  obtain ⟨m', hlayout, halike, -⟩ := hs.layout
  rw [hlayout]
  exact halike.kind

theorem libraryPath : Layout.libraryPath s.layout.model = Layout.libraryPath m := by
  rw [Layout.libraryPath, hs.layout_name]
  rfl

theorem path_interface : s.layout.platformInterface.path =
    "lib/src/" ++ m.name ++ "_platform_interface.dart" := by
  rw [← hs.layout_name]
  rfl

theorem path_channel : s.layout.methodChannel.path =
    "lib/src/" ++ m.name ++ "_method_channel.dart" := by
  rw [← hs.layout_name]
  rfl

theorem mem_platforms_iff {platform : Platform} :
    platform ∈ s.platforms ↔ m.kind = .plugin ∧ platform ∈ m.platforms := by
  rw [hs.platforms]
  split
  · simp [List.mem_eraseDups, *]
  · simp [*]

end Subject.Rereads

namespace Standing

variable {settings : Settings} {today : Date} {m : Model} {metadata : Entries} {contents : Contents}
  {top : List String} {d : Disk} (h : Standing settings today m metadata contents top d)
  {removed : List String} (hremoved : ∀ path ∈ removed, path ∈ m.mendable) {s : Subject}
  (hs : s.Rereads today m)

/-! ## Repairs that are asked for -/

include h hremoved hs

/-- What is not missing is not reported. -/
theorem not_missing {path : String} {steps : List String} (hspells : Path.Spells path steps)
    (hkept : ∀ place ∈ m.mendableSteps, ¬ place <+: steps)
    (hthere : d.exists? (m.outputRoot.extend path) = .ok true) :
    (d.lacking m.outputRoot removed).exists? (s.inside path) ≠ .ok false := by
  rw [hs.inside, h.exists_lacking hremoved hspells hkept hthere]
  simp

omit h hremoved in
/-- The plans for the parts of a plugin bring something back. -/
theorem mends_of_mem_checkParts {parts : List Check}
    (hparts : checkParts s (d.lacking m.outputRoot removed) = .ok parts) {check : Check}
    (hcheck : check ∈ parts) {path : String} {entries : List PlanEntry}
    (hrepair : check.repair? = some (path, entries)) : Mends s.layout s.platforms path entries := by
  unfold checkParts at hparts
  split at hparts
  · rename_i name hkind hname
    obtain rfl : m.name = name := Option.some.inj (hs.name.symm.trans hname)
    have hplugin : s.layout.model.kind = .plugin := hs.layout_kind.trans (hs.kind.symm.trans hkind)
    obtain ⟨interface, channel, natives, hinterface, hchannel, hnatives, rfl⟩ :=
      checkPlugin_eq_ok hparts
    simp only [List.cons_append, List.nil_append, List.mem_cons] at hcheck
    rcases hcheck with rfl | rfl | hcheck
    · obtain ⟨-, rfl, rfl, -⟩ := fix_of_checkThere hinterface hrepair
      exact .interface hplugin
    · obtain ⟨-, rfl, rfl, -⟩ := fix_of_checkThere hchannel hrepair
      exact .channel hplugin
    · obtain ⟨platform, hplatform, hcheck⟩ := exists_of_mem_mapM hnatives hcheck
      obtain ⟨isThere, -, hcheck⟩ := bind_eq_ok hcheck
      obtain rfl := Except.ok.inj hcheck
      cases isThere with
      | true => simp at hrepair
      | false =>
          obtain ⟨rfl, rfl, -⟩ := Check.eq_of_repair?_failed hrepair
          rw [← hs.layout_name]
          exact .native hplugin hplatform
  · obtain rfl := Except.ok.inj hparts
    simp at hcheck

/-- Every plan that the review makes brings something back. -/
theorem mends_of_mem_repairsOf {path : String} {entries : List PlanEntry}
    (hmem : (path, entries) ∈ repairsOf s (d.lacking m.outputRoot removed)) :
    Mends s.layout s.platforms path entries := by
  rcases cases_of_mem_repairs hmem with ⟨checks, hchecks, check, hcheck, hrepair⟩ | hdocument
  swap
  · obtain ⟨template, hdocument, -, rfl⟩ := hdocument
    exact .document hdocument
  obtain ⟨lib, library, test, parts, hlib, hlibrary, htest, hparts, rfl⟩ :=
    checkLayout_eq_ok hchecks
  simp only [List.cons_append, List.nil_append, List.mem_cons, List.mem_append, List.not_mem_nil,
    or_false] at hcheck
  -- the directories are there, and so is the library unless the project is a package
  rcases hcheck with rfl | (hcheck | rfl) | hcheck
  · obtain ⟨hmissing, -⟩ := fix_of_checkDirectory hlib hrepair
    exact absurd hmissing (h.not_missing hremoved hs (.single (by decide) (by decide))
      (not_prefix_of_mem_mendableSteps (by simp))
        (exists?_of_isDirectory h.written.isDirectory_sources))
  · obtain ⟨name, hname, hcheck⟩ := exists_of_mem_mapM hlibrary hcheck
    obtain rfl : name = m.name := by simpa [hs.name] using hname
    obtain ⟨hmissing, rfl, rfl, -⟩ := fix_of_checkThere hcheck hrepair
    have hkind : m.kind = .package := by
      by_contra hkind
      exact h.not_missing hremoved hs (Layout.spells_libraryPath (l := m.layout today) h.valid.name)
        (not_prefix_library_of_mem_mendableSteps hkind) h.written.exists_library hmissing
    rw [show "lib/" ++ m.name ++ ".dart" = Layout.libraryPath s.layout.model from
      hs.libraryPath.symm]
    exact .library (hs.layout_kind.trans hkind)
  · obtain ⟨hmissing, -⟩ := fix_of_checkDirectory htest hrepair
    exact absurd hmissing (h.not_missing hremoved hs (.single (by decide) (by decide))
      (not_prefix_of_mem_mendableSteps (by simp))
        (exists?_of_isDirectory h.written.isDirectory_tests))
  · exact mends_of_mem_checkParts hs hparts hcheck hrepair

/-! ## What the rules find -/

/-- What was there can be looked at. -/
theorem exists_look {path : String} (hthere : d.exists? (m.outputRoot.extend path) = .ok true) :
    ∃ isThere, (d.lacking m.outputRoot removed).exists? (s.inside path) = .ok isThere := by
  rw [hs.inside]
  exact exists?_ok_within (h.grows_lacking hremoved) hthere

theorem exists_checkRequiredFiles : ∃ checks,
    checkRequiredFiles s (d.lacking m.outputRoot removed) = .ok checks := by
  rw [checkRequiredFiles_eq]
  refine exists_mapM_eq_ok fun required hmem =>
    exists_checkThere (h.exists_look hremoved hs ?_).choose_spec
  refine h.written.exists_common ?_
  revert hmem
  simp only [requiredFiles, List.mem_cons, List.not_mem_nil, or_false]
  rintro (rfl | rfl | rfl | rfl) <;> decide

theorem exists_checkLint : ∃ checks, checkLint s (d.lacking m.outputRoot removed) = .ok checks := by
  obtain ⟨isThere, hlook⟩ :=
    h.exists_look hremoved hs (h.written.exists_common (show analysisFile ∈ _ by decide))
  obtain ⟨check, hcheck⟩ := exists_checkThere hlook
  rw [checkLint_eq, hcheck]
  exact ⟨_, rfl⟩

theorem exists_checkPlugin (hkind : s.kind = .plugin) : ∃ interface channel natives,
    checkPart s (d.lacking m.outputRoot removed) "platform interface"
      s.layout.platformInterface = .ok interface ∧
    checkPart s (d.lacking m.outputRoot removed) "method channel implementation"
      s.layout.methodChannel = .ok channel ∧
    s.platforms.mapM (checkNative s (d.lacking m.outputRoot removed) m.name) = .ok natives := by
  have hplugin : m.kind = .plugin := hs.kind.symm.trans hkind
  have hpart : ∀ {path : String}, path ∈ m.mendable →
      ∃ isThere, (d.lacking m.outputRoot removed).exists? (s.inside path) = .ok isThere :=
    fun hmem => h.exists_look hremoved hs (h.exists_mendable hmem)
  have hinterface := hpart (mem_mendable_iff.mpr (.inr (.inl ⟨hplugin, .inl rfl⟩)))
  have hchannel := hpart (mem_mendable_iff.mpr (.inr (.inl ⟨hplugin, .inr (.inl rfl)⟩)))
  rw [← hs.path_interface] at hinterface
  rw [← hs.path_channel] at hchannel
  obtain ⟨interface, hinterface⟩ := exists_checkThere hinterface.choose_spec
  obtain ⟨channel, hchannel⟩ := exists_checkThere hchannel.choose_spec
  obtain ⟨natives, hnatives⟩ : ∃ natives,
      s.platforms.mapM (checkNative s (d.lacking m.outputRoot removed) m.name) = .ok natives := by
    refine exists_mapM_eq_ok fun platform hplatform => ?_
    obtain ⟨-, hdeclared⟩ := hs.mem_platforms_iff.mp hplatform
    obtain ⟨isThere, hlook⟩ := hpart
      (mem_mendable_iff.mpr (.inr (.inl ⟨hplugin, .inr (.inr ⟨platform, hdeclared, rfl⟩)⟩)))
    obtain ⟨hasSome, hcontent⟩ := hasContent_of_exists hlook
    exact ⟨_, by rw [checkNative, hcontent]; rfl⟩
  exact ⟨interface, channel, natives, hinterface, hchannel, hnatives⟩

theorem exists_checkLayout :
    ∃ checks, checkLayout s (d.lacking m.outputRoot removed) = .ok checks := by
  obtain ⟨_, hsources⟩ :=
    h.exists_look hremoved hs (exists?_of_isDirectory h.written.isDirectory_sources)
  obtain ⟨_, htests⟩ :=
    h.exists_look hremoved hs (exists?_of_isDirectory h.written.isDirectory_tests)
  obtain ⟨lib, hlib⟩ := exists_checkDirectory .error [directoryEntry "lib"] hsources
  obtain ⟨test, htest⟩ := exists_checkDirectory .warning (testRepair s) htests
  obtain ⟨library, hlibrary⟩ : ∃ library,
      s.name.toList.mapM (checkLibrary s (d.lacking m.outputRoot removed)) = .ok library := by
    refine exists_mapM_eq_ok fun name hname => ?_
    obtain rfl : name = m.name := by simpa [hs.name] using hname
    exact exists_checkThere (h.exists_look hremoved hs h.written.exists_library).choose_spec
  obtain ⟨parts, hparts⟩ : ∃ parts, checkParts s (d.lacking m.outputRoot removed) = .ok parts := by
    unfold checkParts
    split
    · rename_i name hkind hname
      obtain rfl : m.name = name := Option.some.inj (hs.name.symm.trans hname)
      obtain ⟨interface, channel, natives, hinterface, hchannel, hnatives⟩ :=
        h.exists_checkPlugin hremoved hs hkind
      rw [checkPlugin, hinterface, hchannel, hnatives]
      exact ⟨_, rfl⟩
    · exact ⟨_, rfl⟩
  rw [checkLayout_eq, hlib, hlibrary, htest, hparts]
  exact ⟨_, rfl⟩

/-! ## Everything that is missing is asked for -/

variable {path : String}
  (hmissing : (d.lacking m.outputRoot removed).exists? (m.outputRoot.extend path) = .ok false)

include hmissing

theorem exists_repair_document (hpath : path ∈ ["README.md", "CHANGELOG.md", "LICENSE"]) :
    ∃ entries, (path, entries) ∈ repairsOf s (d.lacking m.outputRoot removed) := by
  obtain ⟨template, hrequired⟩ : ∃ template, (path, some template) ∈ requiredFiles := by
    simp only [List.mem_cons, List.not_mem_nil, or_false] at hpath
    rcases hpath with rfl | rfl | rfl <;> exact ⟨_, by simp [requiredFiles, readmeFile]; rfl⟩
  obtain ⟨checks, hchecks⟩ := h.exists_checkRequiredFiles hremoved hs
  have hmapM := hchecks
  rw [checkRequiredFiles_eq] at hmapM
  obtain ⟨check, hmem, hcheck⟩ := exists_mem_of_mapM hmapM hrequired
  rw [← hs.inside] at hmissing
  exact ⟨_, mem_repairsOf_of_missing .requiredFiles hchecks hmem hcheck hmissing
    (List.cons_ne_nil _ _)⟩

theorem exists_repair_analysis (hpath : path = analysisFile) :
    ∃ entries, (path, entries) ∈ repairsOf s (d.lacking m.outputRoot removed) := by
  subst hpath
  obtain ⟨checks, hchecks⟩ := h.exists_checkLint hremoved hs
  have hcheck := hchecks
  rw [← hs.inside] at hmissing
  rw [checkLint_eq, checkThere_of_missing hmissing] at hcheck
  obtain rfl := Except.ok.inj hcheck
  exact ⟨_, mem_repairsOf .lint hchecks List.mem_cons_self rfl⟩

theorem exists_repair_library (hkind : path = Layout.libraryPath m) :
    ∃ entries, (path, entries) ∈ repairsOf s (d.lacking m.outputRoot removed) := by
  subst hkind
  obtain ⟨checks, hchecks⟩ := h.exists_checkLayout hremoved hs
  rw [← hs.inside] at hmissing
  exact ⟨_, mem_repairsOf_library hchecks hs.name hmissing⟩

theorem exists_repair_part (hkind : s.kind = .plugin)
    (hpath : path = "lib/src/" ++ m.name ++ "_platform_interface.dart" ∨
      path = "lib/src/" ++ m.name ++ "_method_channel.dart" ∨
      ∃ platform ∈ m.platforms, path = nativePath m.name platform) :
    ∃ entries, (path, entries) ∈ repairsOf s (d.lacking m.outputRoot removed) := by
  obtain ⟨checks, hchecks⟩ := h.exists_checkLayout hremoved hs
  rw [← hs.inside] at hmissing
  rcases hpath with rfl | rfl | ⟨platform, hplatform, rfl⟩
  · rw [← hs.path_interface] at hmissing ⊢
    exact ⟨_, mem_repairsOf_part hchecks hs.name hkind (.inl rfl) hmissing⟩
  · rw [← hs.path_channel] at hmissing ⊢
    exact ⟨_, mem_repairsOf_part hchecks hs.name hkind (.inr rfl) hmissing⟩
  · have hdeclared := hs.mem_platforms_iff.mpr ⟨hs.kind.symm.trans hkind, hplatform⟩
    exact ⟨_, mem_repairsOf_native hchecks hs.name hkind hdeclared (hasContent_of_missing hmissing)⟩

/-- Whatever can be brought back and is missing is brought back by a repair. -/
theorem exists_repair (hmem : path ∈ m.mendable) :
    ∃ entries, (path, entries) ∈ repairsOf s (d.lacking m.outputRoot removed) := by
  rcases mem_mendable_iff.mp hmem with hdocument | ⟨hkind, hpart⟩ | ⟨-, hlibrary⟩
  · by_cases hanalysis : path = "analysis_options.yaml"
    · exact h.exists_repair_analysis hremoved hs hmissing hanalysis
    · refine h.exists_repair_document hremoved hs hmissing ?_
      simpa [hanalysis] using hdocument
  · exact h.exists_repair_part hremoved hs hmissing (hs.kind.trans hkind) hpart
  · exact h.exists_repair_library hremoved hs hmissing hlibrary

omit hremoved hs hmissing in
/-- Whatever stands in something that can be brought back is on the way to a file of the plan that
brings it back. -/
theorem exists_file_of_mends {platforms : List Platform} (hplatforms : platforms ⊆ m.platforms)
    {entries : List PlanEntry} (hmends : Mends (m.layout today) platforms path entries)
    {steps more : List String} (hspells : Path.Spells path steps) {item : Item}
    (hitem : d.tree.item? (top ++ (steps ++ more)) = some item) :
    ∃ file ∈ plannedFiles entries, steps ++ more <+: (Path.ofString file).steps := by
  -- nothing is below a file of the project
  have hfile : ∀ entry ∈ (m.layout today).files, entry.path = path → path ∈ plannedFiles entries →
      ∃ file ∈ plannedFiles entries, steps ++ more <+: (Path.ofString file).steps := by
    rintro entry hentry rfl hplanned
    obtain rfl := h.eq_nil_of_below_file hentry hspells hitem
    exact ⟨entry.path, hplanned, by simp [hspells.steps_eq]⟩
  cases hmends with
  | document hdocument =>
      exact hfile _ (Layout.mem_files_iff.mpr (.inl ⟨_, document_mem_spelledFiles hdocument⟩)) rfl
        (by simp)
  | interface hkind =>
      exact hfile _ (Layout.mem_files_iff.mpr (.inl ⟨_, interface_mem_spelledFiles hkind⟩)) rfl
        List.mem_cons_self
  | channel hkind =>
      exact hfile _ (Layout.mem_files_iff.mpr (.inl ⟨_, channel_mem_spelledFiles hkind⟩)) rfl
        List.mem_cons_self
  | @native hkind platform hplatform =>
      by_cases hweb : platform = .web
      · subst hweb
        refine hfile ((m.layout today).pluginStub .web) ?_ rfl List.mem_cons_self
        rw [← nativeFile_of_plugin hkind]
        exact Layout.mem_files_iff.mpr (.inr ⟨_, hplatforms hplatform, rfl⟩)
      · have hnative := spells_nativePath h.valid.name platform
        rw [nativeSteps, if_neg hweb] at hnative
        obtain rfl : steps = [platform.text] := hspells.steps_eq.symm.trans hnative.steps_eq
        exact ⟨_, List.mem_cons_self, h.isPrefix_of_below_native hkind hitem⟩
  | library hkind =>
      obtain ⟨entry, hentry, hpath⟩ := exists_library_mem_spelledFiles (m.layout today)
      exact hfile entry (Layout.mem_files_iff.mpr (.inl ⟨_, hentry⟩)) hpath List.mem_cons_self

omit hmissing

/-- Everything that the repairs make was there. -/
theorem isThere_of_mem_repairsOf {entries : List PlanEntry}
    (hmem : (path, entries) ∈ repairsOf s (d.lacking m.outputRoot removed)) :
    ∃ part, Mends (m.layout today) s.platforms path part ∧
      plannedFiles entries = plannedFiles part ∧ IsThere settings d m.outputRoot entries := by
  obtain ⟨m', hlayout, halike, horganization⟩ := hs.layout
  have hmends := h.mends_of_mem_repairsOf hremoved hs hmem
  rw [hlayout] at hmends
  have hsame : .android ∈ s.platforms → m'.organization = m.organization := by
    intro handroid
    obtain ⟨hkind, hdeclared⟩ := hs.mem_platforms_iff.mp handroid
    exact horganization hkind hdeclared
  obtain ⟨part, hpart, hplan⟩ :=
    exists_mends_of_alike halike today settings.strictTemplates hsame hmends
  have hsubset : s.platforms ⊆ (m.layout today).model.platforms :=
    fun _ hplatform => (hs.mem_platforms_iff.mp hplatform).2
  exact ⟨part, hpart, hplan.files,
    hplan.isThere ((hpart.isPart h.named hsubset).holdsPlan h.fresh.holds h.rendered)⟩

/-- What is removed and was there is made again by some repair, which makes a file at its place or
below. -/
theorem exists_repair_of_removed {steps : List String} {item : Item}
    (hitem : d.tree.item? steps = some item)
    (hgone : (d.lacking m.outputRoot removed).tree.item? steps = none) :
    ∃ repair ∈ repairsOf s (d.lacking m.outputRoot removed),
      ∃ file ∈ plannedFiles repair.2, steps <+: top ++ (Path.ofString file).steps := by
  have hne := h.places_ne_nil hremoved
  obtain ⟨place, hplace, more, rfl⟩ : ∃ place ∈ d.places (removed.map m.outputRoot.extend),
      place <+: steps := by
    by_contra hkept
    rw [lacking, item?_without hne, if_neg hkept, hitem] at hgone
    simp at hgone
  obtain ⟨path, hpath, steps, -, hspells, rfl⟩ := h.exists_of_mem_places hremoved hplace
  have hmendable := hremoved path hpath
  -- what was removed is missing at its own path, so a check misses it
  have hmissing : (d.lacking m.outputRoot removed).exists? (m.outputRoot.extend path) =
      .ok false := by
    obtain ⟨isThere, hexists⟩ :=
      exists?_ok_within (h.grows_lacking hremoved) (h.exists_mendable hmendable)
    cases isThere with
    | false => exact hexists
    | true =>
        exfalso
        obtain ⟨-, left, hleft⟩ := exists?_true_iff.mp hexists
        rw [Path.extend_eq_below hspells.isInner, hspells.steps_eq] at hleft
        have hstands := (h.rooted_lacking hremoved).item?_of_itemAt hspells.forward hleft
        rw [lacking, item?_without hne, if_pos ⟨_, hplace, List.prefix_refl _⟩] at hstands
        simp at hstands
  obtain ⟨entries, hrepair⟩ := h.exists_repair hremoved hs hmissing hmendable
  obtain ⟨part, hpart, hfiles, -⟩ := h.isThere_of_mem_repairsOf hremoved hs hrepair
  rw [List.append_assoc] at hitem
  obtain ⟨file, hfile, hstarts⟩ := h.exists_file_of_mends
    (fun _ hplatform => (hs.mem_platforms_iff.mp hplatform).2) hpart hspells hitem
  refine ⟨_, hrepair, file, hfiles ▸ hfile, ?_⟩
  rw [List.append_assoc]
  exact (List.prefix_append_right_inj top).mpr hstarts

omit hs

/-- A review with repairs brings back whatever was removed, as it was. -/
theorem review_restores {now : Moment} (hdate : now.date = today)
    (hauthor : m.author = settings.author)
    (horganization : Name.isOrganization settings.organization = true)
    (hplatforms : ∃ platforms, Platform.ofList settings.platforms = .ok platforms) (strict : Bool) :
    ∃ report after, (review settings now strict true m.outputRoot).outcome
        (d.lacking m.outputRoot removed) = (.ok report, after) ∧
      report.fixErrors = [] ∧ after.working = d.working ∧
      ∀ steps, after.tree.item? steps = d.tree.item? steps := by
  obtain ⟨s, hsubject, hs⟩ := h.subject_lacking hremoved hauthor horganization hplatforms strict
  have hrooted := h.rooted_lacking hremoved
  obtain ⟨log, after, hrun, herrors, hbefore, hafter, hpresent⟩ := repairAll_within hrooted
    (h.grows_lacking hremoved) (fun repair hmem =>
      (h.isThere_of_mem_repairsOf hremoved hs hmem).choose_spec.2.2) {}
  refine ⟨reportOf s true now (d.lacking m.outputRoot removed) log, after, ?_, herrors,
    hafter.working.symm, fun steps => ?_⟩
  · have hdirectory := isDirectory_true_iff.mpr ⟨hrooted.noNull, hrooted.itemAt⟩
    rw [outcome_review, hdirectory, hdate, hsubject]
    simp only [if_true, hrun]
    rfl
  · -- nothing is there that was not before, so it is enough that everything is there again
    cases hitem : d.tree.item? steps with
    | none =>
        cases hlater : after.tree.item? steps with
        | none => rfl
        | some item => simp [hafter.keeps hlater] at hitem
    | some item =>
        obtain ⟨found, hfound⟩ : ∃ found, after.tree.item? steps = some found := by
          cases hleft : (d.lacking m.outputRoot removed).tree.item? steps with
          | some left => exact ⟨left, hbefore.keeps hleft⟩
          | none =>
              -- some repair has made a file here or below
              obtain ⟨repair, hrepair, file, hfile, more, hmore⟩ :=
                h.exists_repair_of_removed hremoved hs hitem hleft
              obtain ⟨-, -, -, contents', -, hholds⟩ :=
                h.isThere_of_mem_repairsOf hremoved hs hrepair
              have hinner := (hholds.files file hfile).inner
              obtain ⟨-, made, hmade⟩ := exists?_true_iff.mp (hpresent repair hrepair file hfile)
              rw [Path.extend_eq_below hinner] at hmade
              have hplace := (hrooted.grows hbefore).item?_of_itemAt hinner.forward hmade
              rw [← hmore] at hplace
              by_cases hnil : more = []
              · exact ⟨made, by rwa [hnil, List.append_nil] at hplace⟩
              · exact ⟨_, FileTree.item?_of_item?_append hnil (by simp [hplace])⟩
        rw [hfound, ← hitem, hafter.keeps hfound]

end Standing

/-! ## A plugin for Android -/

/-- A plugin for Android, to be written below a root. -/
def androidPlugin (root : String) : Model where
  variety := .plugin [.android]
  name := "b"
  description := "d"
  author := "Your Name"
  organization := "a.b"
  outputRoot := Path.ofString root
  force := false

/-- The directories of the plugin. -/
def androidDirectories : List String :=
  [".github", "android", "example", "lib", "test", ".github/workflows", "android/src",
   "example/lib", "lib/src", "android/src/main", "android/src/main/java",
   "android/src/main/java/a", "android/src/main/java/a/b", "android/src/main/java/a/b/b"]

/-- A day to create the plugin on. -/
def creationDay : Moment := { date := ⟨2024, 3, 5⟩ }

/-- The plan of the plugin, with its directories written out. -/
theorem plan_androidPlugin {root : String} (hroot : root ∈ ["b", "b/android/.."]) :
    ((androidPlugin root).layout creationDay.date).plan =
      androidDirectories.map directoryEntry ++
        ((androidPlugin root).layout creationDay.date).files := by
  have hdirectories : ∀ root ∈ ["b", "b/android/.."],
      List.insertionSort (fun a b => shallowFirst a b = true)
        ((((androidPlugin root).layout creationDay.date).files.map PlanEntry.path ++
          ((androidPlugin root).layout creationDay.date).furtherDirectories.map fun d =>
            withoutFinalSlashes d ++ "/_").flatMap parentsOf).eraseDups = androidDirectories := by
    decide +kernel
  rw [Layout.plan_eq, withDirectories, directoriesFor_eq_insertionSort, hdirectories root hroot]

theorem isValid_androidPlugin (root : String) : (androidPlugin root).IsValid where
  name := show Name.isPackageName "b" = true by decide
  description := show "d" ≠ "" by decide
  author := show "Your Name" ≠ "" by decide
  organization := show Name.isOrganization "a.b" = true by decide
  platforms _ := List.cons_ne_nil _ _

theorem isLegible_androidPlugin (root : String) : (androidPlugin root).IsLegible where
  valid := isValid_androidPlugin root
  distinct := List.nodup_singleton _
  name := show "b" ∉ Name.reserved by decide
  nameEnds := show Name.endsInBreak "b" = false by decide
  organizationEnds _ _ := show Name.endsInBreak "a.b" = false by decide
  writable := show ∀ c ∈ "d".toList, Yaml.isWritable c = true by decide
  kept := show Yaml.isKept "d".toList = true by decide

/-- The metadata of the plugin are read as their template spells them. -/
theorem parse_metadata_androidPlugin {root : String} {d d₁ : Disk} {creation : Creation}
    (hcreate : (create .standard creationDay.date (androidPlugin root) none).outcome d =
      (.ok creation, d₁)) :
    d₁.read ((androidPlugin root).outputRoot.extend metadataFile) >>= Metadata.parse =
      .ok (androidPlugin root).metadata := by
  obtain ⟨-, contents, top, hwritten⟩ :=
    create_written (isValid_androidPlugin root).name rfl hcreate
  exact hwritten.parse_metadata (isLegible_androidPlugin root)

/-- The plugin can be created, and its metadata spell it. -/
theorem exists_create_androidPlugin {root : String}
    (hrun : ((create .standard creationDay.date (androidPlugin root) none).outcome {}).1.isOk =
      true) :
    ∃ creation d₁ metadata,
      (create .standard creationDay.date (androidPlugin root) none).outcome {} =
        (.ok creation, d₁) ∧
      d₁.read ((androidPlugin root).outputRoot.extend metadataFile) >>= Metadata.parse =
        .ok metadata ∧ (androidPlugin root).IsSpelledBy metadata := by
  obtain ⟨creation, d₁, hcreate⟩ := exists_outcome_ok hrun
  exact ⟨creation, d₁, _, hcreate, parse_metadata_androidPlugin hcreate,
    Model.isSpelledBy_metadata _⟩

/-- Where there was nothing, the plugin is created. -/
theorem isOk_create_androidPlugin :
    ((create .standard creationDay.date (androidPlugin "b") none).outcome {}).1.isOk = true := by
  unfold create
  rw [plan_androidPlugin (by simp)]
  decide +kernel

/-! ## From the creation to the repair -/

/-- Whatever a review can bring back of a project that was created where nothing was comes back as
it was, if its author is that of the settings and the day has not changed.  The path of the project
may not pass through anything inside it, as it would not lead there any more without that. -/
theorem review_restores_created {settings : Settings} {now : Moment} {m : Model} {d d₁ : Disk}
    {creation : Creation} {metadata : Entries} {removed : List String} (hvalid : m.IsValid)
    (hauthor : m.author = settings.author)
    (horganization : Name.isOrganization settings.organization = true)
    (hplatforms : ∃ platforms, Platform.ofList settings.platforms = .ok platforms)
    (habsent : d.tree.item? (d.place m.outputRoot) = none) (hdirect : IsDirect d m.outputRoot)
    (hcreate : (create settings now.date m none).outcome d = (.ok creation, d₁))
    (hmetadata : d₁.read (m.outputRoot.extend metadataFile) >>= Metadata.parse = .ok metadata)
    (hspelled : m.IsSpelledBy metadata) (hremoved : ∀ path ∈ removed, path ∈ m.mendable)
    (strict : Bool) :
    ∃ report d₂, (review settings now strict true m.outputRoot).outcome
        (d₁.lacking m.outputRoot removed) = (.ok report, d₂) ∧
      report.fixErrors = [] ∧ d₂.working = d₁.working ∧
      ∀ steps, d₂.tree.item? steps = d₁.tree.item? steps := by
  obtain ⟨contents, hrendered, hfresh, hdirect'⟩ := create_spec hvalid.name habsent hdirect hcreate
  have h : Standing settings now.date m metadata contents (d.place m.outputRoot) d₁ :=
    ⟨hvalid, hspelled, hrendered, hfresh, hdirect', hmetadata⟩
  exact h.review_restores hremoved rfl hauthor horganization hplatforms strict

theorem review_restores_created_plugin : ∃ creation d₁ metadata,
    (create .standard creationDay.date (androidPlugin "b") none).outcome {} = (.ok creation, d₁) ∧
    d₁.read ((androidPlugin "b").outputRoot.extend metadataFile) >>= Metadata.parse = .ok metadata ∧
    (androidPlugin "b").IsSpelledBy metadata ∧
    ∃ report d₂, (review .standard creationDay false true (androidPlugin "b").outputRoot).outcome
        (d₁.lacking (androidPlugin "b").outputRoot
          ["README.md", "lib/src/b_method_channel.dart", "android"]) = (.ok report, d₂) ∧
      report.fixErrors = [] ∧ d₂.working = d₁.working ∧
      ∀ steps, d₂.tree.item? steps = d₁.tree.item? steps := by
  have habsent := @item?_place_of_not_exists {} (androidPlugin "b").outputRoot (by decide)
    (by decide) (by decide)
  obtain ⟨creation, d₁, metadata, hcreate, hmetadata, hspelled⟩ :=
    exists_create_androidPlugin isOk_create_androidPlugin
  exact ⟨creation, d₁, metadata, hcreate, hmetadata, hspelled,
    review_restores_created (isValid_androidPlugin "b") rfl (by decide) ⟨_, rfl⟩ habsent
      (isDirect_of_forward (by decide)) hcreate hmetadata hspelled (by decide) false⟩

/-- A path that passes through a directory of the plugin no longer leads to it once that directory
is removed, so there is nothing to review. -/
theorem review_not_restored_through_itself : ∃ creation d₁ metadata,
    (androidPlugin "b/android/..").IsValid ∧
    (androidPlugin "b/android/..").author = Settings.standard.author ∧
    Name.isOrganization Settings.standard.organization = true ∧
    (∃ platforms, Platform.ofList Settings.standard.platforms = .ok platforms) ∧
    ({} : Disk).exists? (androidPlugin "b/android/..").outputRoot = .ok false ∧
    (create .standard creationDay.date (androidPlugin "b/android/..") none).outcome {} =
      (.ok creation, d₁) ∧
    d₁.read ((androidPlugin "b/android/..").outputRoot.extend metadataFile) >>= Metadata.parse =
      .ok metadata ∧
    (androidPlugin "b/android/..").IsSpelledBy metadata ∧
    "android" ∈ (androidPlugin "b/android/..").mendable ∧
    ¬ ∃ report d₂,
      (review .standard creationDay false true (androidPlugin "b/android/..").outputRoot).outcome
        (d₁.lacking (androidPlugin "b/android/..").outputRoot ["android"]) = (.ok report, d₂) ∧
      ∀ steps, d₂.tree.item? steps = d₁.tree.item? steps := by
  have hrun :
      let run := (create .standard creationDay.date (androidPlugin "b/android/..") none).outcome {}
      (run.1.isOk, (run.2.lacking (androidPlugin "b/android/..").outputRoot
        ["android"]).isDirectory (androidPlugin "b/android/..").outputRoot) =
          (true, .ok false) := by
    unfold create
    rw [plan_androidPlugin (by simp)]
    decide +kernel
  obtain ⟨hok, hgone⟩ := Prod.mk.inj hrun
  obtain ⟨creation, d₁, metadata, hcreate, hmetadata, hspelled⟩ := exists_create_androidPlugin hok
  refine ⟨creation, d₁, metadata, isValid_androidPlugin _, rfl, by decide, ⟨_, rfl⟩, by decide,
    hcreate, hmetadata, hspelled, by decide, ?_⟩
  rintro ⟨report, d₂, hreview, -⟩
  rw [hcreate] at hgone
  rw [outcome_review, hgone] at hreview
  simp at hreview

end PackageScaffold
