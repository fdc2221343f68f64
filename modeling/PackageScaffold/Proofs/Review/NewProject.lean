import PackageScaffold.Proofs.Metadata.Declaration
import PackageScaffold.Proofs.Review.Findings
import PackageScaffold.Proofs.Review.Readme
import PackageScaffold.Proofs.Review.Restoration

/-!
# The review of a new project

A project that was created without leave to overwrite, and whose metadata are read as their template
spells them, satisfies the rules.  All that a review finds is that a library can be published, and
in an application, if it is strict, the fields that only a library has.

* `NewProject`: a project as it was written, under review, with the outcome of each rule;
* `review_of_created`: what a review of it finds.
-/

namespace PackageScaffold

open Disk FileM

/-! ## What is found -/

/-- The warning that a strict review gives for a field. -/
def missingField (field : String) : Finding where
  category := .metadata
  severity := .warning
  message := "Missing recommended field '" ++ field ++ "' in pubspec.yaml"
  subject := "pubspec.yaml"

/-- The warning that a package can be published. -/
def publishable : Finding where
  category := .publish
  severity := .warning
  message := "No 'publish_to: none' in pubspec.yaml; the package can be published by accident"
  subject := "pubspec.yaml"

/-- What a review finds in a new project of a kind. -/
def Kind.newFindings (strict : Bool) : Kind → List Finding
  | .application =>
    if strict then ["homepage", "repository", "issue_tracker", "documentation"].map missingField
    else []
  | .plugin | .package => [publishable]

theorem severity_of_mem_newFindings {kind : Kind} {strict : Bool} {finding : Finding}
    (h : finding ∈ kind.newFindings strict) : finding.severity = .warning := by
  unfold Kind.newFindings at h
  split at h
  · split at h
    · obtain ⟨field, -, rfl⟩ := List.mem_map.mp h
      rfl
    · simp at h
  · rw [List.mem_singleton.mp h]
    rfl
  · rw [List.mem_singleton.mp h]
    rfl

/-! ## A new project -/

/-- A project as it was written, read for a review. -/
structure NewProject (strictly : Bool) (today : Date) (m : Model) (description : String)
    (contents : Contents) (top : List String) (strict : Bool) (s : Subject) (d : Disk) : Prop where
  written : Written strictly today m contents top d
  described : description ≠ ""
  root : s.root = m.outputRoot
  strict : s.strict = strict
  metadata : s.metadata = some ({ m with description }).metadata
  noDefect : s.defect = none
  name : s.name = some m.name
  kind : s.kind = m.kind
  platforms : s.platforms = if m.kind = .plugin then m.platforms.eraseDups else []
  layout : s.layout.model.name = m.name

namespace NewProject

variable {strictly : Bool} {today : Date} {m : Model} {description : String} {contents : Contents}
  {top : List String} {strict : Bool} {s : Subject} {d : Disk}

/-- A project that was written is read for a review. -/
theorem exists_of_written (settings : Settings) (date : Date)
    (h : Written strictly today m contents top d) (hdescription : description ≠ "")
    (hread : d.read (m.outputRoot.extend metadataFile) >>= Metadata.parse =
      .ok ({ m with description }).metadata) (strict : Bool) :
    ∃ s, Subject.ofDisk settings date strict m.outputRoot d = .ok s ∧
      NewProject strictly today m description contents top strict s d := by
  have hspelled := Model.isSpelledBy_metadata { m with description }
  generalize hmetadata : ({ m with description }).metadata = metadata at hread hspelled
  have hname : Subject.nameIn metadata = some m.name :=
    nameIn_of_isSpelledBy (m := { m with description }) hspelled h.named
  have hkind : Kind.ofMetadata metadata = m.kind :=
    ofMetadata_of_isSpelledBy (m := { m with description }) hspelled
  have hplatforms : Platform.declaredIn metadata =
      if m.kind = .plugin then m.platforms.eraseDups else [] :=
    declaredIn_of_isSpelledBy (m := { m with description }) hspelled
  have hthere := h.exists_common (show metadataFile ∈ _ by decide)
  obtain ⟨model, hmodel⟩ := exists_modelFor settings m.outputRoot metadata
  have hmodelName := (Subject.name_of_modelFor hmodel).1
  rw [hname, Option.getD_some] at hmodelName
  exact ⟨_, Subject.ofDisk_of_parsed hthere hread hmodel, h, hdescription, rfl, rfl,
    hmetadata ▸ rfl, rfl, hname, hkind, hplatforms, hmodelName⟩

variable (h : NewProject strictly today m description contents top strict s d)

include h

theorem inside (path : String) : s.inside path = m.outputRoot.extend path := by
  rw [Subject.inside, h.root]

/-! ### What is there -/

theorem exists_required {required : String × Option String} (hrequired : required ∈ requiredFiles) :
    d.exists? (s.inside required.1) = .ok true := by
  rw [h.inside]
  refine h.written.exists_common ?_
  simp only [requiredFiles, metadataFile, readmeFile, List.mem_cons, List.not_mem_nil, or_false]
    at hrequired
  rcases hrequired with rfl | rfl | rfl | rfl <;> simp

theorem exists_analysis : d.exists? (s.inside analysisFile) = .ok true := by
  rw [h.inside]
  exact h.written.exists_common (by decide)

theorem checkDirectory_passed {name : String}
    (hdirectory : d.isDirectory (m.outputRoot.extend name) = .ok true) (severity : Severity)
    (repair : List PlanEntry) :
    checkDirectory s d name severity repair = .ok (.passed (name ++ "/ directory present")) := by
  obtain ⟨hnull, hitem⟩ := isDirectory_true_iff.mp hdirectory
  rw [checkDirectory_eq, h.inside, hnull, hitem]
  rfl

theorem checkPart_passed (label : String) {entry : PlanEntry} {steps : List String}
    (hspelled : (entry, steps) ∈ (m.layout today).spelledFiles) (entry' : PlanEntry)
    (hpath : entry'.path = entry.path) :
    checkPart s d label entry' = .ok (.passed (label ++ " present (" ++ entry'.path ++ ")")) := by
  have hthere := (h.written.holdsFile (Layout.mem_files_iff.mpr (.inl ⟨steps, hspelled⟩))).exists
  rw [checkPart, hpath, h.inside, hthere]
  rfl

/-- There is content wherever a plugin has a native part. -/
theorem hasContent_nativePath (hkind : m.kind = .plugin) {platform : Platform}
    (hplatform : platform ∈ m.platforms) :
    hasContent d (s.inside (nativePath m.name platform)) = .ok true := by
  have hstub : (m.layout today).pluginStub platform ∈ (m.layout today).files := by
    rw [← nativeFile_of_plugin hkind]
    exact Layout.mem_files_iff.mpr (.inr ⟨platform, hplatform, rfl⟩)
  have hexists := h.written.exists_stub hkind hplatform
  obtain ⟨isThere, hcontent⟩ := hasContent_of_exists hexists
  rw [h.inside, hcontent]
  rcases hasContent_eq_ok hcontent with ⟨hfree, -⟩ | ⟨-, -, rfl⟩ |
    ⟨-, place, hlocate, hitem, hempty⟩
  · simp [hexists] at hfree
  · rfl
  · obtain ⟨content, hfile⟩ := h.written.item?_file hstub
    have hspells := spells_nativePath h.written.named platform
    rw [Path.extend_eq_below hspells.isInner, hspells.steps_eq] at hlocate
    obtain rfl := h.written.rooted.eq_append_of_locate hspells.forward hlocate
    by_cases hweb : platform = .web
    · -- the native part on the web is a file
      subst hweb
      have hsteps : (Path.ofString ((m.layout today).pluginStub .web).path).steps =
          nativeSteps m.name .web := hspells.steps_eq
      rw [hsteps, hitem] at hfile
      simp at hfile
    · obtain ⟨more, hmore, hsteps⟩ := Layout.steps_pluginStubPath (m := m) hweb
      obtain ⟨step, rest, rfl⟩ := List.exists_cons_of_ne_nil hmore
      have hbelow : (Path.ofString ((m.layout today).pluginStub platform).path).steps =
          nativeSteps m.name platform ++ step :: rest := by
        rw [nativeSteps, if_neg hweb]
        exact hsteps
      have hinside : d.tree.item? (top ++ nativeSteps m.name platform ++ [step]) ≠ none := by
        refine FileTree.item?_next_ne_none rest ?_
        rw [List.append_assoc, ← hbelow, hfile]
        simp
      cases isThere with
      | true => rfl
      | false => exact absurd (hempty.mp rfl step) hinside

theorem parts_passed :
    ∃ checks, checkParts s d = .ok checks ∧ ∀ check ∈ checks, check.IsPassed := by
  rw [checkParts, h.kind, h.name]
  cases hkind : m.kind with
  | application => exact ⟨[], rfl, by simp⟩
  | package => exact ⟨[], rfl, by simp⟩
  | plugin =>
      have hinterface := h.checkPart_passed "platform interface"
        (interface_mem_spelledFiles (l := m.layout today) hkind) s.layout.platformInterface
          (by rw [Layout.platformInterface, h.layout]; rfl)
      have hchannel := h.checkPart_passed "method channel implementation"
        (channel_mem_spelledFiles (l := m.layout today) hkind) s.layout.methodChannel
          (by rw [Layout.methodChannel, h.layout]; rfl)
      have hplatforms : ∀ platform ∈ s.platforms, platform ∈ m.platforms := by
        rw [h.platforms, if_pos hkind]
        exact fun platform hplatform => List.mem_eraseDups.mp hplatform
      obtain ⟨natives, hnatives, hpassed⟩ := @exists_mapM_eq_ok_of_forall _ _ _
        (checkNative s d m.name) s.platforms Check.IsPassed fun platform hplatform => by
          rw [checkNative, h.hasContent_nativePath hkind (hplatforms platform hplatform)]
          exact ⟨_, rfl, _, rfl⟩
      have hchecks : checkPlugin s d m.name =
          .ok ([.passed ("platform interface present (" ++ s.layout.platformInterface.path ++ ")"),
            .passed ("method channel implementation present (" ++ s.layout.methodChannel.path ++
              ")")] ++
            natives) := by
        unfold checkPlugin
        rw [hinterface, hchannel, hnatives]
        rfl
      refine ⟨_, hchecks, ?_⟩
      simp only [List.cons_append, List.nil_append, List.forall_mem_cons]
      exact ⟨⟨_, rfl⟩, ⟨_, rfl⟩, hpassed⟩

theorem layout_passed :
    ∃ checks, checkLayout s d = .ok checks ∧ ∀ check ∈ checks, check.IsPassed := by
  have hlibrary : checkLibrary s d m.name = .ok (.passed (Layout.libraryPath m ++ " present")) := by
    have hthere : d.exists? (s.inside ("lib/" ++ m.name ++ ".dart")) = .ok true := by
      rw [h.inside]
      exact h.written.exists_library
    rw [checkLibrary, hthere]
    rfl
  obtain ⟨parts, hparts, hpassed⟩ := h.parts_passed
  have hchecks : checkLayout s d =
      .ok ([.passed ("lib" ++ "/ directory present")] ++
        [.passed (Layout.libraryPath m ++ " present")] ++
        [.passed ("test" ++ "/ directory present")] ++ parts) := by
    rw [checkLayout_eq, h.checkDirectory_passed h.written.isDirectory_sources, h.name,
      Option.toList_some, List.mapM_cons, hlibrary,
        h.checkDirectory_passed h.written.isDirectory_tests,
      hparts]
    rfl
  refine ⟨_, hchecks, ?_⟩
  simp only [List.cons_append, List.nil_append, List.forall_mem_cons]
  exact ⟨⟨_, rfl⟩, ⟨_, rfl⟩, ⟨_, rfl⟩, hpassed⟩

/-! ### What it says -/

theorem documentation_passed :
    ∃ checks, checkDocumentation s d = .ok checks ∧ ∀ check ∈ checks, check.IsPassed := by
  have hspelled : ((m.layout today).file readmeFile "docs/readme", [readmeFile]) ∈
      (m.layout today).spelledFiles := document_mem_spelledFiles (by simp [documentFiles])
  obtain ⟨text, hrender, hread⟩ := h.written.exists_read hspelled (.inr rfl)
    ⟨"docs/readme", (m.layout today).bindings⟩ rfl
  have hexists := h.written.exists_common (show readmeFile ∈ _ by decide)
  refine ⟨_, ?_, passed_of_render_readme hrender s.strict⟩
  rw [checkDocumentation, h.inside, hexists,
    show d.read (m.outputRoot.extend readmeFile) = _ from hread]
  simp [bind, Except.bind, pure, Except.pure]

theorem field?_eq (field : String) :
    s.field? field = Entries.get? ({ m with description }).metadata field := by
  rw [Subject.field?, h.metadata]
  rfl

theorem version_passed :
    ∃ checks, checkVersion s = .ok checks ∧ ∀ check ∈ checks, check.IsPassed := by
  obtain ⟨version, -, hisVersion, hgiven⟩ := ({ m with description } : Model).exists_version
  rw [← h.field?_eq] at hgiven
  refine ⟨[.of (isVersion version.toList) _ _], by rw [checkVersion, hgiven]; rfl, ?_⟩
  simp [hisVersion, Check.of, Check.IsPassed]

theorem publish_findings : (RuleOutcome.ofRule s d .publish).findings =
    if m.kind = .application then [] else [publishable] := by
  have htarget : (Entries.get? ({ m with description }).metadata "publish_to").getD (.text "") =
      .text (if m.kind = .application then "none" else "") := by
    rw [Model.get?_publish_to]
    change Option.getD (if m.kind = .application then _ else _) _ = _
    split <;> rfl
  have hchecks : Category.checks .publish s d =
    .ok [if m.kind = .application then .passed "publish_to: none is set"
      else .failed .warning publishable.message "pubspec.yaml" []] := by
    simp only [Category.checks, checkPublish, h.metadata, htarget]
    split <;> rfl
  rw [findings_of_checks hchecks]
  split <;> rfl

theorem metadata_findings : (RuleOutcome.ofRule s d .metadata).findings =
    if m.kind = .application ∧ strict = true then recommendedFields.map missingField else [] := by
  have hnamed := Name.ne_empty_of_isPackageName h.written.named
  have hrequired : (requiredFields.map (checkField ({ m with description }).metadata .error
      "required")).filterMap (Check.finding? .metadata) = [] := by
    rw [List.filterMap_eq_nil_iff]
    refine List.forall_mem_map.mpr fun field hfield => ?_
    rw [checkField, Model.isFilled_metadata (m := { m with description }) h.described hnamed hfield]
    rfl
  have hrecommended : (recommendedFields.map (checkField ({ m with description }).metadata .warning
      "recommended")).filterMap (Check.finding? .metadata) =
      if m.kind = .application then recommendedFields.map missingField else [] := by
    have hfilled : ∀ field ∈ recommendedFields,
        isFilled (Entries.get? ({ m with description }).metadata field) =
          decide (m.kind ≠ .application) := fun field => Model.isFilled_recommended
    simp only [recommendedFields, List.forall_mem_cons] at hfilled
    obtain ⟨hhomepage, hrepository, htracker, hdocumentation, -⟩ := hfilled
    simp only [recommendedFields, List.map_cons, List.map_nil, checkField, hhomepage, hrepository,
      htracker, hdocumentation]
    by_cases hkind : m.kind = .application
    · simp only [hkind, ne_eq, not_true, decide_false, if_true]
      decide
    · simp only [hkind, ne_eq, not_false_eq_true, decide_true, if_false]
      rfl
  have hchecks : Category.checks .metadata s d = .ok (
      requiredFields.map (checkField ({ m with description }).metadata .error "required") ++
        if strict = true then
          recommendedFields.map (checkField ({ m with description }).metadata .warning
            "recommended")
        else []) := by
    rw [Category.checks, checkMetadata, h.noDefect, h.metadata, h.strict]
  rw [findings_of_checks hchecks, List.filterMap_append, hrequired, List.nil_append]
  cases strict with
  | false => simp
  | true => simpa using hrecommended

/-- All that is found. -/
theorem findings_eq : (runRules s d).flatMap RuleOutcome.findings = m.kind.newFindings strict := by
  have hfiles := findings_requiredFiles_of_there fun _ => h.exists_required
  have hversion : (RuleOutcome.ofRule s d .version).findings = [] :=
    findings_eq_nil h.version_passed
  have hlayout : (RuleOutcome.ofRule s d .layout).findings = [] := findings_eq_nil h.layout_passed
  have hdocumentation : (RuleOutcome.ofRule s d .documentation).findings = [] :=
    findings_eq_nil h.documentation_passed
  have hlint := findings_lint_of_there h.exists_analysis
  simp only [runRules, Category.all, List.map_cons, List.map_nil, List.flatMap_cons,
    List.flatMap_nil, hfiles, hversion, hlayout, hdocumentation, hlint, h.metadata_findings,
    h.publish_findings, List.nil_append, List.append_nil]
  cases m.kind <;> cases strict <;> rfl

end NewProject

/-! ## What a review finds -/

/-- A review of a project that was created without leave to overwrite, and whose metadata are read
as their template spells them, finds nothing but what its kind leaves out, and no error. -/
theorem review_of_created (settings config : Settings) (today : Date) (now : Moment) (strict : Bool)
    {m : Model} (hname : Name.isPackageName m.name = true) (hforce : m.force = false)
    {d d₁ : Disk} {creation : Creation}
    (hcreate : (create settings today m none).outcome d = (.ok creation, d₁))
    {description : String} (hdescription : description ≠ "")
    (hread : d₁.read (m.outputRoot.extend metadataFile) >>= Metadata.parse =
      .ok ({ m with description }).metadata) :
    ∃ report, (review config now strict false m.outputRoot).outcome d₁ = (.ok report, d₁) ∧
      report.findings = m.kind.newFindings strict ∧
      ∀ finding ∈ report.findings, finding.severity ≠ .error := by
  obtain ⟨-, contents, top, hwritten⟩ := create_written hname hforce hcreate
  obtain ⟨s, hsubject, hnew⟩ := NewProject.exists_of_written config now.date hwritten hdescription
    hread strict
  have hdirectory : d₁.isDirectory m.outputRoot = .ok true :=
    isDirectory_true_iff.mpr ⟨hwritten.rooted.noNull, hwritten.rooted.itemAt⟩
  refine ⟨reportOf s false now d₁ {}, ?_, hnew.findings_eq, ?_⟩
  · rw [outcome_review, hdirectory, hsubject]
    rfl
  · intro finding hfinding
    have hmem : finding ∈ m.kind.newFindings strict := hnew.findings_eq ▸ hfinding
    rw [severity_of_mem_newFindings hmem]
    simp

theorem review_of_created_plugin : ∃ creation d₁,
    (create .standard creationDay.date (androidPlugin "b") none).outcome {} = (.ok creation, d₁) ∧
    d₁.read ((androidPlugin "b").outputRoot.extend metadataFile) >>= Metadata.parse =
      .ok (androidPlugin "b").metadata ∧
    ∃ report, (review .standard creationDay true false (androidPlugin "b").outputRoot).outcome d₁ =
        (.ok report, d₁) ∧
      report.findings = [publishable] ∧ ∀ finding ∈ report.findings, finding.severity ≠ .error := by
  obtain ⟨creation, d₁, -, hcreate, -, -⟩ := exists_create_androidPlugin isOk_create_androidPlugin
  have hread := parse_metadata_androidPlugin hcreate
  have hvalid := isValid_androidPlugin "b"
  exact ⟨creation, d₁, hcreate, hread,
    review_of_created .standard .standard creationDay.date creationDay true hvalid.name rfl hcreate
      hvalid.description hread⟩

end PackageScaffold
