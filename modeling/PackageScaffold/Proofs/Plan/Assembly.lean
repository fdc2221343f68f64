import PackageScaffold.Plan.Assembly
import PackageScaffold.Proofs.Catalogue.Pubspec
import PackageScaffold.Proofs.Catalogue.Signature
import PackageScaffold.Proofs.Plan.Parts
import PackageScaffold.Proofs.Review.Rereading

/-!
# Planned projects are rendered

The paths of a plan have three names in them, which every layout gives a text; so a plan is put
together whatever the names are.  Each of its files is made from a built-in template, and these are
all rendered under the bindings of a project.

* `isTree_of_mem_plainPaths`, `isTree_of_mem_namedPaths`: the paths as templates;
* `Layout.NamesPaths`, `Layout.assemble_eq_ok`: putting a plan together gives the plan;
* `Layout.exists_source_of_mem_plan`: what its files are made from;
* `Layout.Renders`, `layouts_render`: nothing about a project fails to be rendered.
-/

namespace PackageScaffold

open Template Catalogue

/-! ## The paths -/

/-- The paths of planned files without names in them. -/
def plainPaths : List String :=
  ["pubspec.yaml", "README.md", "CHANGELOG.md", "LICENSE", "analysis_options.yaml", ".gitignore",
   ".github/workflows/ci.yml", "lib/main.dart", "ios/Runner/AppDelegate.swift", "web/index.html",
   "windows/runner/main.cpp", "linux/main.cc", "macos/Runner/AppDelegate.swift",
   "example/pubspec.yaml", "example/lib/main.dart", "example/README.md"]

/-- The paths of planned files with one name in them: what stands in front of it, the name, and what
stands behind it. -/
def namedPaths : List (String × String × String) :=
  [("lib/", "project_name", ".dart"),
   ("test/", "project_name", "_test.dart"),
   ("lib/src/", "project_name", "_platform_interface.dart"),
   ("lib/src/", "project_name", "_method_channel.dart"),
   ("lib/src/", "project_name", "_base.dart"),
   ("example/", "project_name", "_example.dart"),
   ("ios/Classes/Swift", "pascal_name", "Plugin.swift"),
   ("lib/", "project_name", "_web.dart"),
   ("windows/", "project_name", "_plugin.cpp"),
   ("linux/", "project_name", "_plugin.cc"),
   ("macos/Classes/", "pascal_name", "Plugin.swift"),
   ("android/app/src/main/kotlin/", "android_package_path", "/MainActivity.kt")]

theorem isTree_of_mem_plainPaths :
    ∀ path ∈ plainPaths, isTree [.literal path] (tokenize path) = true := by
  decide +kernel

/-- The tree of a path with one name in it. -/
def namedPathNodes (front name back : String) : List Node :=
  [.literal front, variableNode name, .literal back]

theorem isTree_of_mem_namedPaths {front name back : String} (h : (front, name, back) ∈ namedPaths) :
    isTree (namedPathNodes front name back) (tokenize (front ++ var name ++ back)) = true := by
  have hchecked : ∀ entry ∈ namedPaths, isTree (namedPathNodes entry.1 entry.2.1 entry.2.2)
      (scan [] true 0 (entry.1.toList ++ spell entry.2.1.toList ++ entry.2.2.toList)) = true := by
    decide +kernel
  have hchars : (front ++ var name ++ back).toList = front.toList ++ spell name.toList ++
      back.toList :=
    toList_append_of (toList_append_of rfl (toList_var rfl)) rfl
  exact checked_of_chars hchars (hchecked (front, name, back) h)

/-- The tree of the path of the native part of a plugin on Android. -/
def androidStubPathNodes : List Node :=
  [.literal "android/src/main/java/", variableNode "android_package_path", .literal "/",
   variableNode "pascal_name", .literal "Plugin.java"]

theorem isTree_androidStubPath :
    isTree androidStubPathNodes (tokenize (FileTemplate.pluginStub .android).1) = true := by
  decide +kernel

/-- A path is expanded to what its tree writes. -/
theorem expandPath_of_writes {path text : String} {nodes : List Node} {bindings : Entries}
    (h : isTree nodes (tokenize path) = true) (hwrites : Writes [bindings] nodes text) :
    expandPath path bindings = .ok text := by
  refine expandWith_of_writes ?_ hwrites true
  rw [show tokenize path = _ from beq_iff_eq.mp h]
  exact Node.spells_lineTokensAll nodes

namespace Layout

variable {l : Layout} {path front name back value : String} (template : String)

theorem fileAt_of_expandPath {file : FileTemplate} (h : expandPath file.1 l.bindings = .ok path) :
    l.fileAt file = .ok (l.file path file.2) := by
  rw [fileAt, h]
  rfl

theorem fileAt_plain (h : path ∈ plainPaths) :
    l.fileAt (path, template) = .ok (l.file path template) := by
  have hwrites : Writes [l.bindings] [.literal path] path :=
    (Writes.literal path .nil).of_eq (by simp)
  exact fileAt_of_expandPath (expandPath_of_writes (isTree_of_mem_plainPaths path h) hwrites)

theorem fileAt_named (h : (front, name, back) ∈ namedPaths)
    (hvalue : Entries.get? l.bindings name = some (.text value)) :
    l.fileAt (front ++ var name ++ back, template) =
      .ok (l.file (front ++ value ++ back) template) := by
  have hwrites : Writes [l.bindings] (namedPathNodes front name back) (front ++ value ++ back) :=
    (Writes.literal front (.bound _ hvalue (.literal back .nil))).of_eq
      (by simp [String.append_assoc])
  exact fileAt_of_expandPath (expandPath_of_writes (isTree_of_mem_namedPaths h) hwrites)

/-- The bindings of a layout give the names in paths the texts that the paths of its plan are made
from. -/
structure NamesPaths (l : Layout) : Prop where
  name : Entries.get? l.bindings "project_name" = some (.text l.model.name)
  pascalName : Entries.get? l.bindings "pascal_name" = some (.text l.model.pascalName)
  androidPackagePath :
    Entries.get? l.bindings "android_package_path" = some (.text l.model.androidPackagePath)

theorem namesPaths_layout (m : Model) (today : Date) : (m.layout today).NamesPaths :=
  ⟨rfl, rfl, rfl⟩

/-- Only what is exported is bound anew. -/
theorem get?_exporting {name : String} (h : name ≠ "exports") :
    Entries.get? l.exporting.bindings name = Entries.get? l.bindings name := by
  rw [Layout.exporting, Entries.get?_put]
  simp [Entries.get?, Ne.symm h]

theorem NamesPaths.exporting (h : l.NamesPaths) : l.exporting.NamesPaths :=
  ⟨(get?_exporting (by decide)).trans h.name, (get?_exporting (by decide)).trans h.pascalName,
    (get?_exporting (by decide)).trans h.androidPackagePath⟩

variable (h : l.NamesPaths)

include h

theorem fileAt_test : l.fileAt FileTemplate.test = .ok (l.test false) :=
  fileAt_named _ (by simp [namedPaths]) h.name

theorem fileAt_library :
    l.fileAt (FileTemplate.library template) = .ok (l.file (libraryPath l.model) template) :=
  fileAt_named _ (by simp [namedPaths]) h.name

theorem fileAt_runner (platform : Platform) :
    l.fileAt (FileTemplate.runner platform) = .ok (l.runner platform) := by
  cases platform with
  | android => exact fileAt_named _ (by simp [namedPaths]) h.androidPackagePath
  | ios | web | windows | linux | macos => exact fileAt_plain _ (by simp [plainPaths])

theorem fileAt_pluginStub (platform : Platform) :
    l.fileAt (FileTemplate.pluginStub platform) = .ok (l.pluginStub platform) := by
  cases platform with
  | android =>
      have hwrites : Writes [l.bindings] androidStubPathNodes _ :=
        .literal _ <| .bound _ h.androidPackagePath <| .literal _ <| .bound _ h.pascalName <|
        .literal _ .nil
      refine fileAt_of_expandPath (expandPath_of_writes isTree_androidStubPath (hwrites.of_eq ?_))
      unfold pluginStubPath
      simp only [String.append_assoc, String.append_empty]
  | ios => exact fileAt_named _ (by simp [namedPaths]) h.pascalName
  | web => exact fileAt_named _ (by simp [namedPaths]) h.name
  | windows => exact fileAt_named _ (by simp [namedPaths]) h.name
  | linux => exact fileAt_named _ (by simp [namedPaths]) h.name
  | macos => exact fileAt_named _ (by simp [namedPaths]) h.pascalName

/-! ## Plans -/

omit h in
theorem filesAt_common : l.filesAt (FileTemplate.common l.model.kind) = .ok l.commonFiles := by
  have hfiles : l.commonFiles =
      (FileTemplate.common l.model.kind).map fun file => l.file file.1 file.2 := rfl
  have hplain : ∀ file ∈ FileTemplate.common l.model.kind, file.1 ∈ plainPaths := by
    simp [FileTemplate.common, plainPaths]
  refine mapM_eq_ok_of_forall₂ ?_
  rw [hfiles, List.forall₂_map_right_iff, List.forall₂_same]
  exact fun file hfile => fileAt_plain file.2 (hplain file hfile)

theorem filesAt_application :
    l.filesAt (FileTemplate.application l.model.platforms) = .ok l.applicationFiles := by
  have hrunners : List.Forall₂ (fun file entry => l.fileAt file = .ok entry)
      (l.model.platforms.map FileTemplate.runner) (l.model.platforms.map l.runner) := by
    rw [List.forall₂_map_left_iff, List.forall₂_map_right_iff, List.forall₂_same]
    exact fun platform _ => fileAt_runner h platform
  exact mapM_eq_ok_of_forall₂ <|
    .cons (fileAt_plain _ (by simp [plainPaths])) <| .cons (fileAt_library _ h) <|
    .cons (fileAt_test h) hrunners

theorem filesAt_plugin : l.filesAt (FileTemplate.plugin l.model.platforms) = .ok l.pluginFiles := by
  have hstubs : List.Forall₂ (fun file entry => l.fileAt file = .ok entry)
      (l.model.platforms.map FileTemplate.pluginStub) (l.model.platforms.map l.pluginStub) := by
    rw [List.forall₂_map_left_iff, List.forall₂_map_right_iff, List.forall₂_same]
    exact fun platform _ => fileAt_pluginStub h platform
  exact mapM_eq_ok_of_forall₂ <|
    .cons (fileAt_library _ h) <|
    .cons (fileAt_named _ (by simp [namedPaths]) h.name) <|
    .cons (fileAt_named _ (by simp [namedPaths]) h.name) <|
    .cons (fileAt_test h) <|
    .cons (fileAt_plain _ (by simp [plainPaths])) <|
    .cons (fileAt_plain _ (by simp [plainPaths])) <|
    .cons (fileAt_plain _ (by simp [plainPaths])) hstubs

theorem filesAt_libraries : l.exporting.filesAt FileTemplate.libraries = .ok l.library :=
  mapM_eq_ok_of_forall₂ <|
    .cons (fileAt_library _ h.exporting) <|
    .cons (fileAt_named _ (by simp [namedPaths]) h.exporting.name) .nil

theorem filesAt_package : l.filesAt FileTemplate.package =
    .ok [l.test false, l.file ("example/" ++ l.model.name ++ "_example.dart")
      "example/package_main"] :=
  mapM_eq_ok_of_forall₂ <|
    .cons (fileAt_test h) <| .cons (fileAt_named _ (by simp [namedPaths]) h.name) .nil

/-- Putting a plan together gives the plan. -/
theorem assemble_eq_ok : l.assemble = .ok l.plan := by
  unfold assemble plan
  rw [filesAt_common]
  cases l.model.kind with
  | application => rw [filesAt_application h]; rfl
  | plugin => rw [filesAt_plugin h]; rfl
  | package => rw [filesAt_libraries h, filesAt_package h]; rfl

/-! ## What the files are made from -/

omit h in
/-- Files are made from the templates that they name. -/
theorem exists_of_mem_filesAt {files : List FileTemplate} {entries : List PlanEntry}
    {entry : PlanEntry}
    (hentries : l.filesAt files = .ok entries) (hentry : entry ∈ entries) :
    ∃ file ∈ files, entry.source? = some ⟨file.2, l.bindings⟩ := by
  obtain ⟨file, hfile, hmade⟩ := exists_of_mem_mapM hentries hentry
  obtain ⟨path, -, hmade⟩ := bind_eq_ok hmade
  obtain rfl := Except.ok.inj hmade
  exact ⟨file, hfile, rfl⟩

end Layout

/-- A file is made from a built-in template. -/
def FileTemplate.IsBuiltIn (file : FileTemplate) : Prop :=
  file.2 ∈ standard.map Prod.fst

namespace FileTemplate

instance (file : FileTemplate) : Decidable file.IsBuiltIn :=
  inferInstanceAs (Decidable (_ ∈ _))

theorem isBuiltIn_of_mem_common {kind : Kind} : ∀ file ∈ common kind, file.IsBuiltIn := by
  cases kind <;> decide +kernel

theorem isBuiltIn_runner (platform : Platform) : (runner platform).IsBuiltIn := by
  cases platform <;> decide +kernel

theorem isBuiltIn_pluginStub (platform : Platform) : (pluginStub platform).IsBuiltIn := by
  cases platform <;> decide +kernel

theorem isBuiltIn_of_mem_application (platforms : List Platform) :
    ∀ file ∈ application platforms, file.IsBuiltIn := by
  refine List.forall_mem_append.mpr ⟨by decide +kernel, ?_⟩
  exact List.forall_mem_map.mpr fun platform _ => isBuiltIn_runner platform

theorem isBuiltIn_of_mem_plugin (platforms : List Platform) :
    ∀ file ∈ plugin platforms, file.IsBuiltIn := by
  refine List.forall_mem_append.mpr ⟨by decide +kernel, ?_⟩
  exact List.forall_mem_map.mpr fun platform _ => isBuiltIn_pluginStub platform

theorem isBuiltIn_of_mem_libraries : ∀ file ∈ libraries, file.IsBuiltIn := by
  decide +kernel

theorem isBuiltIn_of_mem_package : ∀ file ∈ package, file.IsBuiltIn := by
  decide +kernel

end FileTemplate

namespace Layout

/-- Each file of a plan is made from a built-in template, under the bindings of the layout or under
those for libraries. -/
theorem exists_source_of_mem_plan {l : Layout} (h : l.NamesPaths) {entry : PlanEntry}
    (hentry : entry ∈ l.plan) (hfile : entry.isDirectory = false) :
    ∃ source : FileSource, entry.source? = some source ∧
      source.template ∈ standard.map Prod.fst ∧
      (source.bindings = l.bindings ∨ source.bindings = l.exporting.bindings) := by
  -- all files but the libraries of a package have the bindings of the layout itself
  have hown : ∀ {files : List FileTemplate} {entries : List PlanEntry},
      (∀ file ∈ files, file.IsBuiltIn) → l.filesAt files = .ok entries → entry ∈ entries →
        ∃ source : FileSource, entry.source? = some source ∧
          source.template ∈ standard.map Prod.fst ∧
          (source.bindings = l.bindings ∨ source.bindings = l.exporting.bindings) := by
    intro files entries hbuiltIn hentries hmem
    obtain ⟨file, hmem, hsource⟩ := exists_of_mem_filesAt hentries hmem
    exact ⟨_, hsource, hbuiltIn file hmem, .inl rfl⟩
  unfold plan at hentry
  split at hentry
  · rcases List.mem_append.mp (mem_of_mem_withDirectories hentry hfile) with hcommon | hfurther
    · exact hown FileTemplate.isBuiltIn_of_mem_common filesAt_common hcommon
    · exact hown (FileTemplate.isBuiltIn_of_mem_application _) (filesAt_application h) hfurther
  · rcases List.mem_append.mp (mem_of_mem_withDirectories hentry hfile) with hcommon | hfurther
    · exact hown FileTemplate.isBuiltIn_of_mem_common filesAt_common hcommon
    · exact hown (FileTemplate.isBuiltIn_of_mem_plugin _) (filesAt_plugin h) hfurther
  · rcases List.mem_append.mp (mem_of_mem_withDirectories hentry hfile) with hcommon | hfurther
    · exact hown FileTemplate.isBuiltIn_of_mem_common filesAt_common hcommon
    · rcases List.mem_append.mp hfurther with hlibrary | hother
      · obtain ⟨file, hmem, hsource⟩ := exists_of_mem_filesAt (filesAt_libraries h) hlibrary
        exact ⟨_, hsource, FileTemplate.isBuiltIn_of_mem_libraries file hmem, .inr rfl⟩
      · exact hown FileTemplate.isBuiltIn_of_mem_package (filesAt_package h) hother

/-- Nothing about a layout fails to be rendered: its plan is put together, each of its files has a
text, and so do all built-in templates under its bindings, the same strictly or not. -/
structure Renders (l : Layout) : Prop where
  assembled : l.assemble = .ok l.plan
  files : ∀ entry ∈ l.plan, entry.isDirectory = false → ∃ source : FileSource,
    entry.source? = some source ∧ source.template ∈ standard.map Prod.fst ∧
      ∃ text, ∀ strict, standard.render strict source.template source.bindings = .ok text
  templates : RendersAll l.bindings

/-- The layout of a project renders, whatever the project is. -/
theorem renders_layout (m : Model) (today : Date) : (m.layout today).Renders := by
  have hnames := namesPaths_layout m today
  refine ⟨assemble_eq_ok hnames, fun entry hentry hfile => ?_, rendersAll_bindings m today⟩
  obtain ⟨source, hsource, htemplate, hbindings⟩ := exists_source_of_mem_plan hnames hentry hfile
  refine ⟨source, hsource, htemplate, ?_⟩
  rcases hbindings with heq | heq
  · rw [heq]
    exact rendersAll_bindings m today _ htemplate
  · rw [heq]
    exact rendersAll_put_exports m today _ htemplate

end Layout

/-- No planned project fails to be rendered, nor does what is made for a package with any
metadata. -/
theorem layouts_render :
    (∀ (m : Model) (today : Date), (m.layout today).Renders) ∧
      ∀ (settings : Settings) (root : Path) (metadata : Entries) (today : Date),
        ∃ model, Subject.modelFor settings root metadata = .ok model ∧ (model.layout today).Renders := by
  refine ⟨Layout.renders_layout, fun settings root metadata today => ?_⟩
  obtain ⟨model, hmodel⟩ := exists_modelFor settings root metadata
  exact ⟨model, hmodel, Layout.renders_layout model today⟩

end PackageScaffold
