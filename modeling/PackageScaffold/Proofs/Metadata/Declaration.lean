import PackageScaffold.Proofs.Plan.Places
import PackageScaffold.Proofs.Review.Rereading
import PackageScaffold.Review.Rule

/-!
# What the metadata of a new project declare

The mapping that the metadata template of a kind spells for a model.

* `Model.metadata`: the mapping;
* `Model.isSpelledBy_metadata`: it spells the model;
* `Model.isFilled_metadata`, `Model.isFilled_recommended`: the fields that have a value.
-/

namespace PackageScaffold

namespace Model

/-- A binding of a name to a mapping. -/
def sectionBinding (name : String) (entries : Entries) : Value × Value := (.text name, .map entries)

/-- A dependency on a part of the Flutter tools. -/
def flutterDependency (name : String) : Value × Value :=
  sectionBinding name [textBinding "sdk" "flutter"]

/-- The versions of the tools that a Flutter project asks for. -/
def flutterEnvironment : Entries :=
  [textBinding "sdk" sdkConstraint, textBinding "flutter" flutterConstraint]

/-- What a Flutter project needs for its own development. -/
def flutterDevelopment : Entries :=
  [flutterDependency "flutter_test", textBinding "flutter_lints" "^5.0.0"]

/-- Where the users of a library find more about it. -/
def publicationEntries (m : Model) : Entries :=
  [textBinding "homepage" m.repository, textBinding "repository" m.repository,
   textBinding "issue_tracker" (m.repository ++ "/issues"),
   textBinding "documentation" ("https://pub.dev/documentation/" ++ m.name ++ "/latest/")]

/-- What the metadata of a plugin declare of one of its platforms. -/
def platformEntries (m : Model) (platform : Platform) : Entries :=
  (if platform = .android then [textBinding "package" m.androidPackage] else []) ++
  textBinding "pluginClass" (platform.pluginClass m.pascalName) ::
  (if platform = .web then [textBinding "fileName" (m.name ++ "_web.dart")] else [])

/-- The mapping that the metadata template of its kind spells for a model. -/
def metadata (m : Model) : Entries :=
  match m.kind with
  | .application =>
    [textBinding "name" m.name,
     textBinding "description" m.description,
     textBinding "publish_to" "none",
     textBinding "version" (m.kind.firstVersion ++ "+1"),
     sectionBinding "environment" flutterEnvironment,
     sectionBinding "dependencies"
      [flutterDependency "flutter", textBinding "cupertino_icons" "^1.0.8"],
     sectionBinding "dev_dependencies" flutterDevelopment,
     sectionBinding "flutter"
      [switchBinding "uses-material-design" true,
       (.text "assets", .list [.text "assets/images/"])]]
  | .plugin =>
    [textBinding "name" m.name,
     textBinding "description" m.description,
     textBinding "version" m.kind.firstVersion] ++
    m.publicationEntries ++
    [sectionBinding "environment" flutterEnvironment,
     sectionBinding "dependencies"
      ([flutterDependency "flutter", textBinding "plugin_platform_interface" "^2.1.8"] ++
        if .web ∈ m.platforms then
          [flutterDependency "flutter_web_plugins", textBinding "web" "^1.1.0"]
        else []),
     sectionBinding "dev_dependencies" flutterDevelopment,
     sectionBinding "flutter"
      [sectionBinding "plugin"
        [sectionBinding "platforms"
          (m.platforms.eraseDups.map fun platform =>
            sectionBinding platform.text (m.platformEntries platform))]]]
  | .package =>
    [textBinding "name" m.name,
     textBinding "description" m.description,
     textBinding "version" m.kind.firstVersion] ++
    m.publicationEntries ++
    [sectionBinding "environment" [textBinding "sdk" sdkConstraint],
     sectionBinding "dependencies" [textBinding "meta" "^1.15.0"],
     sectionBinding "dev_dependencies"
      [textBinding "lints" "^5.0.0", textBinding "test" "^1.25.0"]]

/-! ## Reading it -/

/-- Of distinct platforms, each has a section of its own. -/
theorem get?_sections {f : Platform → Entries} {platforms : List Platform} {platform : Platform}
    (h : platform ∈ platforms) :
    Entries.get? (platforms.map fun other => sectionBinding other.text (f other)) platform.text =
      some (.map (f platform)) := by
  induction platforms with
  | nil => simp at h
  | cons first rest ih =>
      rw [List.map_cons, sectionBinding, Entries.get?]
      by_cases hsame : first = platform
      · rw [hsame, beq_self_eq_true, if_pos rfl]
      · have hkey : (first.text == platform.text) = false :=
          beq_false_of_ne fun htext => hsame (Layout.platform_of_text_eq htext)
        rw [hkey]
        exact ih ((List.mem_cons.mp h).resolve_left (Ne.symm hsame))

/-- The metadata of a model spell it. -/
theorem isSpelledBy_metadata (m : Model) : m.IsSpelledBy m.metadata where
  name := by
    rw [Entries.text?_eq_some_iff, metadata]
    cases m.kind <;> rfl
  description := by
    rw [Entries.text?_eq_some_iff, metadata]
    cases m.kind <;> rfl
  flutter := by
    rw [metadata]
    cases hkind : m.kind with
    | application => exact ⟨_, rfl, rfl⟩
    | plugin =>
        refine ⟨_, rfl, _, rfl, _, rfl, ?_, fun handroid => ?_⟩
        · rw [List.map_map]
          rfl
        · refine ⟨_, Entries.mapping?_eq_some_iff.mpr
            (get?_sections (f := m.platformEntries) (List.mem_eraseDups.mpr handroid)), ?_⟩
          rfl
    | package => exact ⟨rfl, rfl⟩

/-- The metadata give a version. -/
theorem exists_version (m : Model) : ∃ version, version ≠ "" ∧ isVersion version.toList = true ∧
    Entries.get? m.metadata "version" = some (.text version) := by
  unfold metadata
  cases m.kind with
  | application => exact ⟨Kind.firstVersion .application ++ "+1", by decide, by decide, rfl⟩
  | plugin => exact ⟨Kind.firstVersion .plugin, by decide, by decide, rfl⟩
  | package => exact ⟨Kind.firstVersion .package, by decide, by decide, rfl⟩

/-- Only an application is kept from being published. -/
theorem get?_publish_to (m : Model) : Entries.get? m.metadata "publish_to" =
    if m.kind = .application then some (.text "none") else none := by
  unfold metadata
  cases m.kind <;> rfl

theorem isFilled_text {text : String} (h : text ≠ "") : isFilled (some (.text text)) = true := by
  unfold isFilled
  split <;> simp_all

/-- Every required field of the metadata has a value. -/
theorem isFilled_metadata {m : Model} (hdescription : m.description ≠ "") (hname : m.name ≠ "")
    {field : String} (hfield : field ∈ requiredFields) :
    isFilled (Entries.get? m.metadata field) = true := by
  have hnamed := Entries.text?_eq_some_iff.mp m.isSpelledBy_metadata.name
  have hdescribed := Entries.text?_eq_some_iff.mp m.isSpelledBy_metadata.description
  obtain ⟨version, hversion, -, hgiven⟩ := m.exists_version
  have henvironment : isFilled (Entries.get? m.metadata "environment") = true := by
    unfold metadata
    cases m.kind <;> rfl
  simp only [requiredFields, List.mem_cons, List.not_mem_nil, or_false] at hfield
  rcases hfield with rfl | rfl | rfl | rfl
  · rw [hnamed, isFilled_text hname]
  · rw [hdescribed, isFilled_text hdescription]
  · rw [hgiven, isFilled_text hversion]
  · exact henvironment

/-- Only a library says where its users find more about it. -/
theorem isFilled_recommended {m : Model} {field : String} (hfield : field ∈ recommendedFields) :
    isFilled (Entries.get? m.metadata field) = decide (m.kind ≠ .application) := by
  have hfilled (first rest : String) (hfirst : first ≠ "") : first ++ rest ≠ "" := by
    simp [hfirst]
  have hrepository : m.repository ≠ "" := hfilled _ _ (by decide)
  have hdocumentation : "https://pub.dev/documentation/" ++ m.name ++ "/latest/" ≠ "" :=
    hfilled _ _ (hfilled _ _ (by decide))
  simp only [recommendedFields, List.mem_cons, List.not_mem_nil, or_false] at hfield
  unfold metadata
  cases m.kind with
  | application => rcases hfield with rfl | rfl | rfl | rfl <;> rfl
  | plugin | package =>
      rcases hfield with rfl | rfl | rfl | rfl
      · exact isFilled_text hrepository
      · exact isFilled_text hrepository
      · exact isFilled_text (hfilled _ _ hrepository)
      · exact isFilled_text hdocumentation

end Model

end PackageScaffold
