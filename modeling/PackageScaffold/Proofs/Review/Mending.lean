import PackageScaffold.Proofs.Catalogue.Mention
import PackageScaffold.Proofs.Plan.Parts
import PackageScaffold.Proofs.Review.Fix
import PackageScaffold.Proofs.Review.Repair

/-!
# Parts of a project that can be mended

A review brings back the documents of a project, and the parts of a plugin or of a package.  Where
the whole project was carried out before, its repairs bring back what there was.

* `Mends`: what can be brought back, with the plans that do so;
* `Mends.isPart`: each of these plans is a part of the plan of the project;
* `exists_mends_of_alike`: a model that is alike makes the same plans;
* `repairAll_within`: repairs that make what was there before all succeed.
-/

namespace PackageScaffold

open Disk FileM

/-! ## Plans that make the same -/

/-- Two plans that make the same files with the same contents. -/
structure SamePlan (strict : Bool) (entries entries' : List PlanEntry) : Prop where
  directories : plannedDirectories entries' = plannedDirectories entries
  files : plannedFiles entries' = plannedFiles entries
  contents : renderPlan strict entries' = renderPlan strict entries

/-- A plan that is rendered, and whose files and directories are all there. -/
def IsThere (settings : Settings) (disk : Disk) (root : Path) (entries : List PlanEntry) : Prop :=
  ∃ contents, renderPlan settings.strictTemplates entries = .ok contents ∧
    HoldsPlan disk root entries contents

theorem SamePlan.isThere {settings : Settings} {disk : Disk} {root : Path}
    {entries entries' : List PlanEntry} (h : SamePlan settings.strictTemplates entries entries')
    (hthere : IsThere settings disk root entries) : IsThere settings disk root entries' := by
  obtain ⟨contents, hcontents, hdirectories, hfiles⟩ := hthere
  refine ⟨contents, h.contents.trans hcontents, ?_, h.files ▸ hfiles⟩
  rw [wantedDirectories, h.directories, h.files]
  exact hdirectories

theorem samePlan_file {strict : Bool} {l l' : Layout} {path path' template : String}
    (hpath : path' = path)
    (hrender : Catalogue.standard.render strict template l'.bindings =
      Catalogue.standard.render strict template l.bindings) :
    SamePlan strict [l.file path template] [l'.file path' template] := by
  subst hpath
  refine ⟨rfl, rfl, ?_⟩
  simp only [renderPlan, Layout.file, PlanEntry.rendered, PlanEntry.source?, PlanEntry.path,
    hrender]
  rfl

/-! ## What can be brought back -/

/-- What can be brought back of a project with some platforms, with the plans that do so. -/
inductive Mends (l : Layout) (platforms : List Platform) : String → List PlanEntry → Prop
  | document {path template : String} (hdocument : (path, template) ∈ documentFiles) :
      Mends l platforms path [l.file path template]
  | interface (hkind : l.model.kind = .plugin) :
      Mends l platforms l.platformInterface.path [l.platformInterface]
  | channel (hkind : l.model.kind = .plugin) :
      Mends l platforms l.methodChannel.path [l.methodChannel]
  | native (hkind : l.model.kind = .plugin) {platform : Platform} (hplatform : platform ∈ platforms) :
      Mends l platforms (nativePath l.model.name platform) [l.pluginStub platform]
  | library (hkind : l.model.kind = .package) :
      Mends l platforms (Layout.libraryPath l.model) l.library

section Mends

variable {l : Layout} {platforms : List Platform} {path : String} {entries : List PlanEntry}

theorem document_mem_spelledFiles {template : String} (h : (path, template) ∈ documentFiles) :
    (l.file path template, [path]) ∈ l.spelledFiles := by
  refine List.mem_append_left _ ?_
  simp only [documentFiles, List.mem_cons, Prod.mk.injEq, List.not_mem_nil, or_false] at h
  rcases h with ⟨rfl, rfl⟩ | ⟨rfl, rfl⟩ | ⟨rfl, rfl⟩ | ⟨rfl, rfl⟩ <;>
    simp [Layout.spelledCommonFiles, readmeFile, analysisFile]

theorem nativeFile_of_plugin (hkind : l.model.kind = .plugin) (platform : Platform) :
    l.nativeFile platform = l.pluginStub platform :=
  if_neg (by simp [hkind])

theorem interface_mem_spelledFiles (hkind : l.model.kind = .plugin) :
    (l.platformInterface, ["lib", "src", l.model.name ++ "_platform_interface.dart"]) ∈
      l.spelledFiles := by
  simp [Layout.spelledFiles, Layout.spelledKindFiles, hkind]

theorem channel_mem_spelledFiles (hkind : l.model.kind = .plugin) :
    (l.methodChannel, ["lib", "src", l.model.name ++ "_method_channel.dart"]) ∈ l.spelledFiles := by
  simp [Layout.spelledFiles, Layout.spelledKindFiles, hkind]

/-- What brings something back is a part of the plan of the whole project. -/
theorem Mends.isPart (hname : Name.isPackageName l.model.name = true)
    (hplatforms : platforms ⊆ l.model.platforms) (h : Mends l platforms path entries) :
    IsPart entries l.plan := by
  cases h with
  | document hdocument =>
      exact Layout.isPart_spelled hname (document_mem_spelledFiles hdocument) (.inr rfl)
  | interface hkind =>
      exact Layout.isPart_spelled hname (interface_mem_spelledFiles hkind) (.inl (by simp [hkind]))
  | channel hkind =>
      exact Layout.isPart_spelled hname (channel_mem_spelledFiles hkind) (.inl (by simp [hkind]))
  | native hkind hplatform =>
      rw [← nativeFile_of_plugin hkind]
      exact Layout.isPart_nativeFile hname (hplatforms hplatform)
  | library hkind => exact Layout.isPart_library hname hkind

end Mends

/-! ## Models that are alike -/

section Alike

variable {m m' : Model} (h : m.Alike m') (today : Date) (strict : Bool)

include h

/-- The stub of a plugin is the same for models that are alike, if the organization is the same
where there are Android sources. -/
theorem samePlan_pluginStub (platform : Platform)
    (horganization : platform = .android → m'.organization = m.organization) :
    SamePlan strict [(m.layout today).pluginStub platform]
      [(m'.layout today).pluginStub platform] := by
  have hpath : Layout.pluginStubPath m' platform = Layout.pluginStubPath m platform := by
    unfold Layout.pluginStubPath Model.androidPackagePath Model.androidPackage Model.pascalName
    cases platform with
    | android => rw [h.name, horganization rfl]
    | ios | web | windows | linux | macos => rw [h.name]
  refine samePlan_file hpath ?_
  cases platform with
  | android => exact Catalogue.render_android_of_alike h today strict (horganization rfl)
  | ios | web | windows | linux | macos =>
      exact Catalogue.render_of_alike h today strict
        (by simp [Catalogue.avoidedNames, Platform.text])

theorem samePlan_document {path template : String} (hdocument : (path, template) ∈ documentFiles) :
    SamePlan strict [(m.layout today).file path template]
      [(m'.layout today).file path template] := by
  refine samePlan_file rfl ?_
  simp only [documentFiles, List.mem_cons, Prod.mk.injEq, List.not_mem_nil, or_false] at hdocument
  rcases hdocument with ⟨-, rfl⟩ | ⟨-, rfl⟩ | ⟨-, rfl⟩ | ⟨-, rfl⟩ <;>
    exact Catalogue.render_of_alike h today strict (by simp [Catalogue.avoidedNames])

theorem samePlan_library :
    SamePlan strict (m.layout today).library (m'.layout today).library := by
  have hpath : Layout.libraryPath m' = Layout.libraryPath m := by
    rw [Layout.libraryPath, h.name]
    rfl
  have hfiles : plannedFiles (m'.layout today).library = plannedFiles (m.layout today).library := by
    change [Layout.libraryPath m', "lib/src/" ++ m'.name ++ "_base.dart"] =
      [Layout.libraryPath m, "lib/src/" ++ m.name ++ "_base.dart"]
    rw [hpath, h.name]
  exact ⟨rfl, hfiles, Catalogue.renderPlan_library_of_alike h today strict⟩

/-- Models that are alike bring back the same by the same plans. -/
theorem exists_mends_of_alike {platforms : List Platform}
    (horganization : .android ∈ platforms → m'.organization = m.organization) {path : String}
    {entries' : List PlanEntry} (hmends : Mends (m'.layout today) platforms path entries') :
    ∃ entries, Mends (m.layout today) platforms path entries ∧
      SamePlan strict entries entries' := by
  have hkinds : (m'.layout today).model.kind = (m.layout today).model.kind := h.kind
  cases hmends with
  | document hdocument => exact ⟨_, .document hdocument, samePlan_document h today strict hdocument⟩
  | interface hkind =>
      have hpath : (m'.layout today).platformInterface.path =
          (m.layout today).platformInterface.path := by
        change "lib/src/" ++ m'.name ++ _ = "lib/src/" ++ m.name ++ _
        rw [h.name]
      rw [hpath]
      exact ⟨_, .interface (hkinds.symm.trans hkind), samePlan_file hpath
        (Catalogue.render_of_alike h today strict (by simp [Catalogue.avoidedNames]))⟩
  | channel hkind =>
      have hpath : (m'.layout today).methodChannel.path = (m.layout today).methodChannel.path := by
        change "lib/src/" ++ m'.name ++ _ = "lib/src/" ++ m.name ++ _
        rw [h.name]
      rw [hpath]
      exact ⟨_, .channel (hkinds.symm.trans hkind), samePlan_file hpath
        (Catalogue.render_of_alike h today strict (by simp [Catalogue.avoidedNames]))⟩
  | native hkind hplatform =>
      have hname : (m'.layout today).model.name = (m.layout today).model.name := h.name
      rw [hname]
      refine ⟨_, .native (hkinds.symm.trans hkind) hplatform,
        samePlan_pluginStub h today strict _ ?_⟩
      rintro rfl
      exact horganization hplatform
  | library hkind =>
      have hpath : Layout.libraryPath (m'.layout today).model =
          Layout.libraryPath (m.layout today).model := by
        change Layout.libraryPath m' = Layout.libraryPath m
        rw [Layout.libraryPath, h.name]
        rfl
      rw [hpath]
      exact ⟨_, .library (hkinds.symm.trans hkind), samePlan_library h today strict⟩

end Alike

/-! ## Repairs of what was there -/

section Within

variable {settings : Settings} {d full : Disk} {root : Path} {top : List String}

/-- A repair that makes what was there before succeeds. -/
theorem repair_within (h : Rooted d root top) (hgrows : Grows d full) {entries : List PlanEntry}
    (hthere : IsThere settings full root entries) :
    ∃ written after, (repair settings root entries).outcome d = (.ok written, after) ∧
      Grows d after ∧ Grows after full ∧
      ∀ file ∈ plannedFiles entries, after.exists? (root.extend file) = .ok true := by
  obtain ⟨contents, hcontents, hholds⟩ := hthere
  obtain ⟨done, after, hcarry, hbefore, hafter, hpresent⟩ := carryOut_within h hgrows hholds
  refine ⟨done.1.written, after, ?_, hbefore, hafter, hpresent⟩
  rw [outcome_repair, hcontents]
  simp only [hcarry]
  rfl

/-- Repairs that make what was there before all succeed, and bring nothing else. -/
theorem repairAll_within (h : Rooted d root top) (hgrows : Grows d full)
    {repairs : List (String × List PlanEntry)}
    (hthere : ∀ repair ∈ repairs, IsThere settings full root repair.2) (log : RepairLog) :
    ∃ log' after, (repairAll settings root log repairs).outcome d = (.ok log', after) ∧
      log'.errors = log.errors ∧ Grows d after ∧ Grows after full ∧
      ∀ repair ∈ repairs, ∀ file ∈ plannedFiles repair.2,
        after.exists? (root.extend file) = .ok true := by
  induction repairs generalizing d log with
  | nil => exact ⟨log, d, rfl, rfl, .refl _ d, hgrows, by simp⟩
  | cons first rest ih =>
      obtain ⟨subject, entries⟩ := first
      obtain ⟨hfirst, hrest⟩ := List.forall_mem_cons.mp hthere
      obtain ⟨written, middle, hrepair, hbefore, hmiddle, hmade⟩ := repair_within h hgrows hfirst
      obtain ⟨log', after, hrun, herrors, hgrown, hafter, hpresent⟩ :=
        ih (h.grows hbefore) hmiddle hrest (log.addWritten written)
      refine ⟨log', after, ?_, herrors, hbefore.trans hgrown, hafter, List.forall_mem_cons.mpr
        ⟨fun file hfile => exists?_true_of_grows (hmade file hfile) hgrown, hpresent⟩⟩
      rw [repairAll, outcome_bind, outcome_repairOne, hrepair]
      exact hrun

end Within

end PackageScaffold
