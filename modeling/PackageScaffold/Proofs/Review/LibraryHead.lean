import PackageScaffold.Proofs.Catalogue.Library
import PackageScaffold.Proofs.Plan.Parts
import PackageScaffold.Proofs.Review.AndroidPackage
import PackageScaffold.Proofs.Review.Standing

/-!
# Descriptions in libraries

A description comes from a user who creates a project, or from the metadata of a package whose
library a review brings back.  Either way it becomes the comment at the head of the library, with a
mark in front of its first line only.  So nothing of it gets out of the comment exactly where its
further lines, if it has any, are comments or blank as they are.

* `Layout.exists_library`: where the library of a new project comes from;
* `description_of_ofRequest`, `description_of_modelFor`: where its description comes from;
* `commented_iff_fits`: the two ways, and what becomes of the description.
-/

namespace PackageScaffold

open Text

variable {strict : Bool} {m : Model} {today : Date}

/-! ## Plans -/

/-- What a plan makes at a path is a library, with all in front of its directive in comments exactly
if some condition holds. -/
def MakesLibrary (rule : LineRule) (entries : List PlanEntry) (path : String) (fits : Prop) : Prop :=
  ∀ strict, ∃ contents text, renderPlan strict entries = .ok contents ∧ contents.lookup path = some text ∧
    rule.IsNamed text ∧ (rule.IsCommented text ↔ fits)

namespace Layout

/-- The library that users of the project import. -/
def mainLibrary (l : Layout) : PlanEntry :=
  match l.model.kind with
  | .application => l.file (libraryPath l.model) "dart/app_library"
  | .plugin => l.file (libraryPath l.model) "dart/plugin_library"
  | .package => l.exporting.file (libraryPath l.model) "dart/library"

variable (hname : Name.isPackageName m.name = true)

include hname

/-- The text of the library of a new project has its description in its head. -/
theorem headsLibrary_mainLibrary {source : FileSource} {text : String}
    (hsource : (m.layout today).mainLibrary.source? = some source)
    (h : Catalogue.standard.render strict source.template source.bindings = .ok text) :
    HeadsLibrary m.description text := by
  unfold mainLibrary at hsource
  split at hsource
  all_goals obtain rfl := Option.some.inj hsource
  · exact Catalogue.headsLibrary_of_render rfl (by simp) hname h
  · exact Catalogue.headsLibrary_of_render rfl (by simp) hname h
  · exact Catalogue.headsLibrary_of_render_library hname h

omit hname in
theorem exists_renderPlan_plan (m : Model) (today : Date) (strict : Bool) :
    ∃ contents, renderPlan strict (m.layout today).plan = .ok contents := by
  refine exists_renderPlan_eq_ok fun entry hentry source hsource => ?_
  have hfile : entry.isDirectory = false := by
    cases entry with
    | directory path => cases hsource
    | file path source => rfl
  obtain ⟨source', hsource', -, text, htext⟩ := (renders_layout m today).files entry hentry hfile
  obtain rfl := Option.some.inj (hsource.symm.trans hsource')
  exact ⟨text, htext strict⟩

omit hname in
/-- The library of an application comes behind its entry point, in front of a test and
the runners. -/
theorem plan_of_application {l : Layout} (hkind : l.model.kind = .application) : ∃ front,
    l.plan = front ++ l.mainLibrary :: l.test false :: l.model.platforms.map l.runner := by
  have hfiles : l.commonFiles ++ l.applicationFiles =
      (l.commonFiles ++ [l.file "lib/main.dart" "dart/app_main"]) ++
        l.mainLibrary :: l.test false :: l.model.platforms.map l.runner := by
    rw [mainLibrary, hkind]
    simp [applicationFiles]
  refine ⟨(directoriesFor ((l.commonFiles ++ l.applicationFiles).map PlanEntry.path)
    ["assets/images"]).map directoryEntry ++
      (l.commonFiles ++ [l.file "lib/main.dart" "dart/app_main"]), ?_⟩
  rw [List.append_assoc, ← hfiles, plan, hkind]
  rfl

/-- Neither the test nor a runner of an application has the path of its library. -/
theorem path_ne_libraryPath {l : Layout} (hl : l.model = m) : ∀ other ∈ l.test false ::
    l.model.platforms.map l.runner, other.path ≠ libraryPath m := by
  intro other hother hpath
  have hsteps := congrArg (fun path => (Path.ofString path).steps.head?) hpath
  simp only [steps_libraryPath hname, List.head?_cons] at hsteps
  rcases List.mem_cons.mp hother with rfl | hother
  · subst hl
    have htest : (Path.ofString (l.test false).path).steps = _ := steps_testPath hname
    rw [htest] at hsteps
    exact absurd hsteps (by simp)
  · obtain ⟨platform, -, rfl⟩ := List.mem_map.mp hother
    obtain ⟨-, steps, -, hrunner⟩ := runnerPath_spec l.model platform
    have hpath : (l.runner platform).path = runnerPath l.model platform := rfl
    rw [hpath, hrunner] at hsteps
    exact Added.platform_ne_lib platform (Option.some.inj hsteps)

/-- What the plan of a project gives to the path of its library is the text of the library, also
where the entry point of an application has this path. -/
theorem lookup_mainLibrary {contents : Contents}
    (h : renderPlan strict (m.layout today).plan = .ok contents) :
    ∃ text, contents.lookup (libraryPath m) = some text ∧ HeadsLibrary m.description text := by
  have hsource : ∃ source, (m.layout today).mainLibrary.source? = some source := by
    unfold mainLibrary
    split <;> exact ⟨_, rfl⟩
  obtain ⟨source, hsource⟩ := hsource
  have hpath : (m.layout today).mainLibrary.path = libraryPath m := by
    unfold mainLibrary
    split <;> rfl
  suffices htext : ∃ text, Catalogue.standard.render strict source.template source.bindings =
      .ok text ∧ contents.lookup (m.layout today).mainLibrary.path = some text by
    obtain ⟨text, htext, hlookup⟩ := htext
    exact ⟨text, hpath ▸ hlookup, headsLibrary_mainLibrary hname hsource htext⟩
  -- the entry point of an application may have the same path, but the library comes behind it
  by_cases hkind : (m.layout today).model.kind = .application
  · obtain ⟨front, hplan⟩ := plan_of_application hkind
    rw [hplan] at h
    refine lookup_renderPlan_of_last h (fun other hother _ => ?_) hsource
    rw [hpath]
    exact path_ne_libraryPath hname rfl other hother
  · have hspelled : ((m.layout today).mainLibrary, ["lib", m.name ++ ".dart"]) ∈
        (m.layout today).spelledFiles := by
      unfold mainLibrary spelledFiles spelledKindFiles
      cases hother : (m.layout today).model.kind with
      | application => exact absurd hother hkind
      | plugin => simp [Model.layout]
      | package => simp [Model.layout]
    have hpart := isPart_spelled (l := m.layout today) hname hspelled (.inl hkind)
    exact lookup_renderPlan h (hpart.subset List.mem_cons_self) (hpart.alone _ List.mem_cons_self)
      hsource

/-- The library of a new project. -/
theorem makesLibrary_plan (rule : LineRule) (today : Date) :
    MakesLibrary rule (m.layout today).plan (libraryPath m) (rule.FitsComment m.description) := by
  intro strict
  obtain ⟨contents, hcontents⟩ := exists_renderPlan_plan m today strict
  obtain ⟨text, hlookup, hheads⟩ := lookup_mainLibrary hname hcontents
  exact ⟨contents, text, hcontents, hlookup, hheads.isNamed rule, hheads.isCommented_iff rule⟩

/-- The library that a repair brings back. -/
theorem makesLibrary_library (rule : LineRule) (today : Date) :
    MakesLibrary rule (m.layout today).library (libraryPath m)
      (rule.FitsComment m.description) := by
  intro strict
  obtain ⟨contents, hcontents⟩ := exists_eq_ok_of_isOk (isOk_renderPlan_library strict m today)
  have hplan : renderPlan strict ([] ++ (m.layout today).exporting.file (libraryPath m)
    "dart/library" ::
      [(m.layout today).exporting.file ("lib/src/" ++ m.name ++ "_base.dart") "dart/base_class"]) =
      .ok contents := hcontents
  obtain ⟨text, htext, hlookup⟩ := lookup_renderPlan_of_last hplan (by
    simp only [List.forall_mem_singleton]
    intro _ hpath
    have hsteps := congrArg (fun path => (Path.ofString path).steps.length) hpath
    have hbase : (Path.ofString ("lib/src/" ++ m.name ++ "_base.dart")).steps = _ :=
      steps_source hname "_base.dart" (by decide) (by decide)
    simp [file, PlanEntry.rendered, PlanEntry.path, steps_libraryPath hname, hbase] at hsteps) rfl
  have hheads := Catalogue.headsLibrary_of_render_library hname htext
  exact ⟨contents, text, hcontents, hlookup, hheads.isNamed rule, hheads.isCommented_iff rule⟩

end Layout

/-! ## Where descriptions come from -/

/-- A description that is asked for is used. -/
theorem Model.description_of_ofRequest {settings : Settings} {request : Request}
    {description : String}
    (h : Model.ofRequest settings request = .ok m)
    (hrequest : request.description = .text description)
    (hdescription : description ≠ "") : m.description = description := by
  have hmakes := (Model.ofRequest_eq_ok_iff.mp h).description
  rw [hrequest, valueOr_text hdescription, readText_text hdescription] at hmakes
  exact (Except.ok.inj hmakes).symm

/-- The standard descriptions have one line. -/
theorem fitsComment_standardDescription (rule : LineRule) (kind : Kind) :
    rule.FitsComment kind.standardDescription := by
  refine LineRule.fitsComment_of_line fun c hc => ?_
  have hprinted : ∀ c ∈ kind.standardDescription.toList, ' ' ≤ c ∧ c ≤ '~' := by
    cases kind <;> decide
  exact rule.printed c (hprinted c hc).1 (hprinted c hc).2

section Review

variable {settings : Settings} {root : Path} {metadata : Entries} {description name : String}

/-- A review uses the description of the metadata unless it is refused what it asks for. -/
theorem Subject.description_of_modelFor (h : Subject.modelFor settings root metadata = .ok m)
    (hmetadata : Subject.descriptionIn metadata = .text description)
    (hdescription : description ≠ "") :
    (Model.ofRequest settings (requestFor root metadata) = .ok m ∧ m.description = description) ∨
      (∀ other, Model.ofRequest settings (requestFor root metadata) ≠ .ok other) ∧
        m.description = m.kind.standardDescription := by
  rcases modelFor_cases h with hasked | ⟨hrefused, hplain⟩
  · exact .inl ⟨hasked, Model.description_of_ofRequest hasked hmetadata hdescription⟩
  · have hmakes := (Model.ofRequest_eq_ok_iff.mp hplain).description
    have hread : Conversion.readText 1 (.text m.kind.standardDescription) = .ok m.description :=
      hmakes
    rw [readText_text (standardDescription_ne_empty m.kind)] at hread
    exact .inr ⟨hrefused, (Except.ok.inj hread).symm⟩

/-- What a review makes of a library fits if the description of the metadata does, or if it
is not used. -/
theorem Subject.fitsComment_of_modelFor (rule : LineRule)
    (h : Subject.modelFor settings root metadata = .ok m)
    (hmetadata : Subject.descriptionIn metadata = .text description)
    (hdescription : description ≠ "") :
    rule.FitsComment m.description ↔ rule.FitsComment description ∨
      ∀ other, Model.ofRequest settings (requestFor root metadata) ≠ .ok other := by
  rcases description_of_modelFor h hmetadata hdescription with ⟨hasked, hsame⟩ |
    ⟨hrefused, hstandard⟩
  · rw [hsame, iff_self_or]
    exact fun hrefused => absurd hasked (hrefused m)
  · rw [hstandard]
    exact iff_of_true (fitsComment_standardDescription rule _) (.inr hrefused)

/-! ## Repairs of the library -/

variable {s : Subject} {d : Disk} {entries : List PlanEntry}

/-- What brings back the library is the library of a package, whatever the kind. -/
theorem eq_library_of_fix (hs : s.Sound) (h : Fix s d (Layout.libraryPath s.layout.model) entries) :
    entries = s.layout.library := by
  -- the steps of the path tell the library from everything else that can be brought back
  have hsteps := Layout.steps_libraryPath hs.named
  have hstep : ∀ path, Path.IsStep path →
      (Path.ofString path).steps ≠ ["lib", s.layout.model.name ++ ".dart"] := fun path h => by
    rw [Path.steps_of_isStep h]
    simp
  generalize Layout.libraryPath s.layout.model = path at h hsteps
  cases h with
  | document hdocument hmissing =>
      rw [(steps_document hdocument).1] at hsteps
      exact absurd hsteps (by simp)
  | sources hmissing => exact absurd hsteps (hstep "lib" (by decide))
  | library hmissing => rfl
  | tests hnamed hmissing => exact absurd hsteps (hstep "test" (by decide))
  | part hentry hmissing =>
      rcases hentry with rfl | rfl
      · have hother : (Path.ofString s.layout.platformInterface.path).steps = _ :=
          Layout.steps_source hs.named _ (by decide) (by decide)
        simp [hother] at hsteps
      · have hother : (Path.ofString s.layout.methodChannel.path).steps = _ :=
          Layout.steps_source hs.named _ (by decide) (by decide)
        simp [hother] at hsteps
  | native platform hmissing =>
      rw [(spells_nativePath hs.named platform).steps_eq, nativeSteps] at hsteps
      split at hsteps <;> simp at hsteps

end Review

/-! ## The result -/

/-- Where a project is created with a description, and where a review brings back the library of a
package with one, everything in front of the directive is commented exactly if the lines of the
description behind the first are comments or blank; a review does without the description if it is
refused what it asks for.  The libraries are made, with a directive, and a review brings back a
library that is missing if it has looked at the layout. -/
theorem commented_iff_fits (rule : LineRule) :
    (∀ (settings : Settings) (request : Request) (m : Model) (description : String),
      Model.ofRequest settings request = .ok m → request.description = .text description →
      description ≠ "" → ∀ today, MakesLibrary rule (m.layout today).plan ("lib/" ++ m.name ++ ".dart")
        (rule.FitsComment description)) ∧
    ∀ (settings : Settings) (root : Path) (metadata : Entries) (name description : String),
      Subject.nameIn metadata = some name → Subject.descriptionIn metadata = .text description →
      description ≠ "" → ∀ today strict d, Subject.readMetadata d root = .ok (some (.ok metadata)) →
        ∃ s, Subject.ofDisk settings today strict root d = .ok s ∧
          (∀ entries, ("lib/" ++ name ++ ".dart", entries) ∈ repairsOf s d →
            MakesLibrary rule entries ("lib/" ++ name ++ ".dart") (rule.FitsComment description ∨
              ∀ other, Model.ofRequest settings (Subject.requestFor root metadata) ≠ .ok other)) ∧
          ((checkLayout s d).isOk = true → d.exists? (s.inside ("lib/" ++ name ++ ".dart")) = .ok false →
            ∃ entries, ("lib/" ++ name ++ ".dart", entries) ∈ repairsOf s d) := by
  constructor
  · intro settings request m description hmodel hrequest hdescription today
    have hlibrary := Layout.makesLibrary_plan (Model.name_of_ofRequest hmodel).2 rule today
    rwa [Model.description_of_ofRequest hmodel hrequest hdescription] at hlibrary
  · intro settings root metadata name description hname hmetadata hdescription today strict d hfound
    obtain ⟨m, hmodel⟩ := exists_modelFor settings root metadata
    obtain ⟨hmodelName, hvalid⟩ := Subject.name_of_modelFor hmodel
    rw [hname, Option.getD_some] at hmodelName
    have hread : Subject.ofDisk settings today strict root d = .ok _ :=
      Subject.ofDisk_of_readMetadata hfound hmodel
    have hpath : "lib/" ++ name ++ ".dart" = Layout.libraryPath m := by
      rw [Layout.libraryPath, hmodelName]
    refine ⟨_, hread, fun entries hentries => ?_, fun hlayout hmissing => ?_⟩
    · have hfix := fix_of_mem_repairs (Subject.sound_of_ofDisk hread) hentries
      rw [hpath] at hfix ⊢
      rw [eq_library_of_fix (Subject.sound_of_ofDisk hread) hfix]
      have hlibrary := Layout.makesLibrary_library hvalid rule today
      rw [Subject.fitsComment_of_modelFor rule hmodel hmetadata hdescription] at hlibrary
      exact hlibrary
    · obtain ⟨checks, hchecks⟩ := exists_eq_ok_of_isOk hlayout
      exact ⟨_, mem_repairsOf_library hchecks hname hmissing⟩

/-- A package with a description of two lines and no library. -/
def blockDisk : Disk :=
  { tree := .directory [("geo", .directory [("pubspec.yaml", .file (.text
      "name: geo\ndescription: |\n  Maps.\n  Fast.\n"))])] }

/-- Whether a value is a text. -/
def isText (text : String) : Value → Bool
  | .text found => found == text
  | _ => false

theorem readMetadata_blockDisk :
    ∃ metadata, Subject.readMetadata blockDisk (Path.ofString "geo") = .ok (some (.ok metadata)) ∧
      Subject.nameIn metadata = some "geo" ∧ Subject.descriptionIn metadata =
        .text "Maps.\nFast.\n" ∧
      ∃ m, Model.ofRequest .standard (Subject.requestFor (Path.ofString "geo") metadata) =
        .ok m := by
  have hread : (Subject.readMetadata blockDisk (Path.ofString "geo")).map (fun found =>
      (found.bind Except.toOption).map fun metadata => (Subject.nameIn metadata,
        isText "Maps.\nFast.\n" (Subject.descriptionIn metadata),
        (Model.ofRequest .standard (Subject.requestFor (Path.ofString "geo") metadata)).isOk)) =
      .ok (some (some "geo", true, true)) := by
    decide +kernel
  obtain ⟨metadata, hfound, hread⟩ := Subject.exists_readMetadata_of_map hread
  rw [Prod.mk.injEq, Prod.mk.injEq] at hread
  obtain ⟨hname, hdescription, haccepted⟩ := hread
  refine ⟨metadata, hfound, hname, ?_, exists_eq_ok_of_isOk haccepted⟩
  cases hvalue : Subject.descriptionIn metadata <;> simp_all [isText]

/-- With two lines the second is no comment, whether a user wrote them or they stand in the
metadata. -/
theorem commented_iff_fits_two_lines :
    let root := Path.ofString "geo"
    let today : Date := ⟨2024, 3, 5⟩
    let request : Request :=
      { kind := .text "package", name := .text "geo", description := .text "Maps.\nFast.\n" }
    ∃ m metadata s entries, Model.ofRequest .standard request = .ok m ∧
      MakesLibrary .returns (m.layout today).plan "lib/geo.dart" False ∧
      Subject.readMetadata blockDisk root = .ok (some (.ok metadata)) ∧
      Subject.descriptionIn metadata = .text "Maps.\nFast.\n" ∧
      Subject.ofDisk .standard today false root blockDisk = .ok s ∧
      ("lib/geo.dart", entries) ∈ repairsOf s blockDisk ∧
      MakesLibrary .returns entries "lib/geo.dart" False := by
  intro root today request
  obtain ⟨metadata, hfound, hname, hdescription, other, haccepted⟩ := readMetadata_blockDisk
  have hunfit : ¬ LineRule.returns.FitsComment "Maps.\nFast.\n" := by decide
  have hmodel : (Model.ofRequest .standard request).map (fun m => m.name) = .ok "geo" := by
    decide +kernel
  obtain ⟨m, hmodel, hmodelName⟩ := map_eq_ok hmodel
  obtain ⟨hcreated, hreviewed⟩ := commented_iff_fits .returns
  have hplan := hcreated .standard request m _ hmodel rfl (by decide) today
  obtain ⟨s, hs, hmakes, hrepair⟩ :=
    hreviewed .standard root metadata "geo" _ hname hdescription (by decide) today false
      blockDisk hfound
  have hlooked : (Subject.ofDisk .standard today false root blockDisk).map (fun s =>
      (checkLayout s blockDisk).isOk) = .ok true := by
    decide +kernel
  rw [hs] at hlooked
  have hmissing : blockDisk.exists? (s.inside ("lib/" ++ "geo" ++ ".dart")) = .ok false := by
    rw [Subject.inside, Subject.root_of_ofDisk hs]
    decide +kernel
  obtain ⟨entries, hentries⟩ := hrepair (Except.ok.inj hlooked) hmissing
  have hlibrary := hmakes entries hentries
  have hrefused : ¬ ∀ other, Model.ofRequest .standard (Subject.requestFor root metadata) ≠
      .ok other :=
    fun hrefused => hrefused other haccepted
  rw [hmodelName, eq_false hunfit] at hplan
  rw [eq_false hunfit, eq_false hrefused, or_self] at hlibrary
  exact ⟨m, metadata, s, entries, hmodel, hplan, hfound, hdescription, hs, hentries, hlibrary⟩

end PackageScaffold
