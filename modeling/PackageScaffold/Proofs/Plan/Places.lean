import Mathlib.Data.List.Nodup
import PackageScaffold.Plan.Assembly
import PackageScaffold.Proofs.Plan.Layout
import PackageScaffold.Proofs.Plan.Spelling

/-!
# Where the files of a whole project stand

All files of a project stand in places of their own.  Most of them are spelled by their steps; the
native parts, whose paths hold names of packages and classes, have the directories of their
platforms for themselves.

* `Layout.spelledFiles`, `Layout.nativeFile`: the files of a project with their steps, and
  `plan_eq`, by which there are no others;
* `isInnerPlan_plan`: all of them stay inside the project;
* `path_of_steps_eq`: files in the same place are written alike;
* `eq_nativeFile_of_head`: the directory of a platform holds the native part alone.
-/

namespace PackageScaffold

open Path

instance (s : String) (steps : List String) : Decidable (Spells s steps) :=
  decidable_of_iff (s = Text.join "/" steps ∧ steps ≠ [] ∧ (∀ step ∈ steps, IsStep step) ∧
    ".." ∉ steps)
    ⟨fun ⟨text, nonempty, isStep, forward⟩ => ⟨text, nonempty, isStep, forward⟩,
      fun ⟨text, nonempty, isStep, forward⟩ => ⟨text, nonempty, isStep, forward⟩⟩

/-- A spelled path below spelled directories. -/
theorem Path.Spells.below {s above front : String} {made steps : List String} (h : Spells s steps)
    (habove : Spells above made) (hfront : front = above ++ "/") :
    Spells (front ++ s) (made ++ steps) where
  text := by
    rw [hfront, habove.text, h.text, Text.join, Text.join, Text.join,
      String.intercalate_append_of_ne_nil habove.nonempty h.nonempty]
  nonempty := by simp [h.nonempty]
  isStep := List.forall_mem_append.mpr ⟨habove.isStep, h.isStep⟩
  forward := by
    rw [List.mem_append, not_or]
    exact ⟨habove.forward, h.forward⟩

/-- What is made from a template is a file. -/
theorem PlanEntry.isDirectory_of_rendered {entry : PlanEntry} (h : entry.source? ≠ none) :
    entry.isDirectory = false := by
  cases entry with
  | directory path => exact absurd rfl h
  | file path source => rfl

namespace Layout

/-! ## The files of a project -/

theorem library_eq (l : Layout) :
    l.library =
      [l.exporting.file (libraryPath l.model) "dart/library",
       l.exporting.file ("lib/src/" ++ l.model.name ++ "_base.dart") "dart/base_class"] := rfl

/-- The files of every project, with their steps. -/
def spelledCommonFiles (l : Layout) : List (PlanEntry × List String) :=
  [(l.file "pubspec.yaml" (metadataTemplate l.model.kind), ["pubspec.yaml"]),
   (l.file "README.md" "docs/readme", ["README.md"]),
   (l.file "CHANGELOG.md" "docs/changelog", ["CHANGELOG.md"]),
   (l.file "LICENSE" "docs/license_mit", ["LICENSE"]),
   (l.file "analysis_options.yaml" "config/analysis_options", ["analysis_options.yaml"]),
   (l.file ".gitignore" "config/gitignore", [".gitignore"]),
   (l.file ".github/workflows/ci.yml" "config/ci_workflow", [".github", "workflows", "ci.yml"])]

/-- The files that a project has for its kind, without native parts, with their steps. -/
def spelledKindFiles (l : Layout) : List (PlanEntry × List String) :=
  match l.model.kind with
  | .application =>
    [(l.file "lib/main.dart" "dart/app_main", ["lib", "main.dart"]),
     (l.file (libraryPath l.model) "dart/app_library", ["lib", l.model.name ++ ".dart"]),
     (l.test false, ["test", l.model.name ++ "_test.dart"])]
  | .plugin =>
    [(l.file (libraryPath l.model) "dart/plugin_library", ["lib", l.model.name ++ ".dart"]),
     (l.platformInterface, ["lib", "src", l.model.name ++ "_platform_interface.dart"]),
     (l.methodChannel, ["lib", "src", l.model.name ++ "_method_channel.dart"]),
     (l.test false, ["test", l.model.name ++ "_test.dart"]),
     (l.file "example/pubspec.yaml" "pubspec/example", ["example", "pubspec.yaml"]),
     (l.file "example/lib/main.dart" "example/plugin_main", ["example", "lib", "main.dart"]),
     (l.file "example/README.md" "example/plugin_readme", ["example", "README.md"])]
  | .package =>
    [(l.exporting.file (libraryPath l.model) "dart/library", ["lib", l.model.name ++ ".dart"]),
     (l.exporting.file ("lib/src/" ++ l.model.name ++ "_base.dart") "dart/base_class",
       ["lib", "src", l.model.name ++ "_base.dart"]),
     (l.test false, ["test", l.model.name ++ "_test.dart"]),
     (l.file ("example/" ++ l.model.name ++ "_example.dart") "example/package_main",
       ["example", l.model.name ++ "_example.dart"])]

/-- The files of a project without its native parts, with their steps. -/
def spelledFiles (l : Layout) : List (PlanEntry × List String) :=
  l.spelledCommonFiles ++ l.spelledKindFiles

/-- The native part of a project on a platform. -/
def nativeFile (l : Layout) (platform : Platform) : PlanEntry :=
  if l.model.kind = .application then l.runner platform else l.pluginStub platform

/-- All files of a project. -/
def files (l : Layout) : List PlanEntry :=
  l.spelledFiles.map Prod.fst ++ l.model.platforms.map l.nativeFile

/-- The directories that a project has although no file needs them. -/
def furtherDirectories (l : Layout) : List String :=
  if l.model.kind = .application then ["assets/images"] else []

theorem plan_eq (l : Layout) : l.plan = withDirectories l.files l.furtherDirectories := by
  obtain ⟨⟨variety, name, description, author, organization, outputRoot, force⟩, bindings⟩ := l
  cases variety with
  | application platforms => rfl
  | plugin platforms => rfl
  | package => rfl

variable {l : Layout} {entry : PlanEntry} {steps : List String}

theorem mem_files_iff :
    entry ∈ l.files ↔ (∃ steps, (entry, steps) ∈ l.spelledFiles) ∨
      ∃ platform ∈ l.model.platforms, l.nativeFile platform = entry := by
  simp only [files, List.mem_append, List.mem_map, Prod.exists, exists_and_right, exists_eq_right]

/-! ## Spelled files -/

/-- A file with its steps, which do not start in the directory of a platform. -/
structure IsSpelled (file : PlanEntry × List String) : Prop where
  rendered : file.1.source? ≠ none
  spells : Spells file.1.path file.2
  head : ∀ platform : Platform, file.2.head? ≠ some platform.text

theorem isSpelled_file {path first template : String} (h : Spells path (first :: steps))
    (hfirst : first ∉ Platform.all.map Platform.text) :
    IsSpelled (l.file path template, first :: steps) where
  rendered := by simp [file, PlanEntry.rendered, PlanEntry.source?]
  spells := h
  head platform heq := by
    obtain rfl : first = platform.text := by simpa using heq
    refine hfirst (List.mem_map_of_mem ?_)
    cases platform <;> decide

section Named

variable (hname : Name.isPackageName l.model.name = true)

include hname

/-- A file that is named after the project, below spelled directories. -/
theorem spells_named {above front ending : String} {made : List String} (habove : Spells above made)
    (hfront : front = above ++ "/") (hslash : '/' ∉ ending.toList)
    (hlength : 3 ≤ ending.toList.length) :
    Spells (front ++ l.model.name ++ ending) (made ++ [l.model.name ++ ending]) := by
  have hback : l.model.name ++ ending ≠ ".." := by
    intro heq
    have hlengths := congrArg (List.length ∘ String.toList) heq
    have hdots : "..".toList.length = 2 := by decide
    simp only [Function.comp_apply, String.toList_append, List.length_append, hdots] at hlengths
    omega
  have hstep : IsStep (l.model.name ++ ending) := isStep_named hname hslash (by omega)
  rw [String.append_assoc]
  exact (Spells.single hstep hback).below habove hfront

theorem spells_libraryPath : Spells (libraryPath l.model) ["lib", l.model.name ++ ".dart"] :=
  spells_named hname (.single (by decide) (by decide)) (by decide) (by decide) (by decide)

theorem spells_webPath :
    Spells ("lib/" ++ l.model.name ++ "_web.dart") ["lib", l.model.name ++ "_web.dart"] :=
  spells_named hname (.single (by decide) (by decide)) (by decide) (by decide) (by decide)

theorem spells_testPath :
    Spells ("test/" ++ l.model.name ++ "_test.dart") ["test", l.model.name ++ "_test.dart"] :=
  spells_named hname (.single (by decide) (by decide)) (by decide) (by decide) (by decide)

theorem spells_examplePath :
    Spells ("example/" ++ l.model.name ++ "_example.dart")
      ["example", l.model.name ++ "_example.dart"] :=
  spells_named hname (.single (by decide) (by decide)) (by decide) (by decide) (by decide)

/-- A file among the sources that is named after the project. -/
theorem spells_source {ending : String} (hslash : '/' ∉ ending.toList)
    (hlength : 3 ≤ ending.toList.length) :
    Spells ("lib/src/" ++ l.model.name ++ ending) ["lib", "src", l.model.name ++ ending] := by
  have habove : Spells "lib/src" ["lib", "src"] := by decide
  exact spells_named hname habove (by decide) hslash hlength

theorem isSpelled_of_mem {file : PlanEntry × List String} (h : file ∈ l.spelledFiles) :
    IsSpelled file := by
  have hcommon : ∀ file ∈ l.spelledCommonFiles, IsSpelled file := by
    simp only [spelledCommonFiles, List.forall_mem_cons]
    refine ⟨?_, ?_, ?_, ?_, ?_, ?_, ?_, by simp⟩ <;> exact isSpelled_file (by decide) (by decide)
  have hkind : ∀ file ∈ l.spelledKindFiles, IsSpelled file := by
    unfold spelledKindFiles
    cases l.model.kind <;> simp only [List.forall_mem_cons]
    · exact ⟨isSpelled_file (by decide) (by decide),
        isSpelled_file (spells_libraryPath hname) (by decide),
        isSpelled_file (spells_testPath hname) (by decide), by simp⟩
    · exact ⟨isSpelled_file (spells_libraryPath hname) (by decide),
        isSpelled_file (spells_source hname (by decide) (by decide)) (by decide),
        isSpelled_file (spells_source hname (by decide) (by decide)) (by decide),
        isSpelled_file (spells_testPath hname) (by decide),
        isSpelled_file (by decide) (by decide), isSpelled_file (by decide) (by decide),
        isSpelled_file (by decide) (by decide), by simp⟩
    · exact ⟨isSpelled_file (spells_libraryPath hname) (by decide),
        isSpelled_file (spells_source hname (by decide) (by decide)) (by decide),
        isSpelled_file (spells_testPath hname) (by decide),
        isSpelled_file (spells_examplePath hname) (by decide), by simp⟩
  rcases List.mem_append.mp h with h | h
  · exact hcommon file h
  · exact hkind file h

end Named

/-- Apart from the two libraries that an application can have in one place, spelled files in the
same place are the same. -/
theorem eq_of_steps_eq {entry' : PlanEntry} (h : (entry, steps) ∈ l.spelledFiles)
    (h' : (entry', steps) ∈ l.spelledFiles)
    (hkind : l.model.kind ≠ .application ∨ steps.length = 1) : entry = entry' := by
  have hinj : ∀ files : List (PlanEntry × List String), (files.map Prod.snd).Nodup →
      (entry, steps) ∈ files → (entry', steps) ∈ files → entry = entry' := by
    intro files hnodup hmem hmem'
    exact congrArg Prod.fst (List.inj_on_of_nodup_map hnodup hmem hmem' rfl)
  rcases hkind with hkind | hlength
  · refine hinj l.spelledFiles ?_ h h'
    unfold spelledFiles spelledCommonFiles spelledKindFiles
    cases hk : l.model.kind with
    | application => exact absurd hk hkind
    | plugin => simp
    | package => simp
  · refine hinj (l.spelledFiles.filter fun file => file.2.length == 1) ?_ ?_ ?_
    · unfold spelledFiles spelledCommonFiles spelledKindFiles
      cases l.model.kind <;> simp
    · exact List.mem_filter.mpr ⟨h, by simpa using hlength⟩
    · exact List.mem_filter.mpr ⟨h', by simpa using hlength⟩

/-- The part of a plugin on the web is no spelled file. -/
theorem webPath_not_spelled (hkind : l.model.kind ≠ .application) :
    (entry, ["lib", l.model.name ++ "_web.dart"]) ∉ l.spelledFiles := by
  intro h
  unfold spelledFiles spelledCommonFiles spelledKindFiles at h
  cases hk : l.model.kind with
  | application => exact hkind hk
  | plugin => simp [hk] at h
  | package => simp [hk] at h

/-! ## Native parts -/

theorem path_nativeFile (l : Layout) (platform : Platform) :
    (l.nativeFile platform).path =
      if l.model.kind = .application then runnerPath l.model platform
      else pluginStubPath l.model platform := by
  unfold nativeFile
  split <;> rfl

/-- The runner of an application stands in the directory of its platform. -/
theorem runnerPath_spec (m : Model) (platform : Platform) :
    IsInner (runnerPath m platform) ∧
      ∃ steps, steps ≠ [] ∧ (ofString (runnerPath m platform)).steps = platform.text :: steps := by
  have hspelled : ∀ (path : String) {steps : List String}, steps ≠ [] →
      Spells path (platform.text :: steps) → IsInner path ∧
        ∃ steps, steps ≠ [] ∧ (ofString path).steps = platform.text :: steps :=
    fun _ _ hsteps hspells => ⟨hspells.isInner, _, hsteps, hspells.steps_eq⟩
  unfold runnerPath
  cases platform with
  | android =>
      refine ⟨isInner_around "android/app/src/main/kotlin/" "/MainActivity.kt"
        m.dot_not_mem_androidPackagePath (by decide) ⟨'a', by decide, by decide⟩ (by decide), ?_⟩
      rw [String.append_assoc]
      exact steps_native "app/src/main/kotlin/" (by decide) (by decide) _
        ⟨'a', by rw [String.toList_append]; exact List.mem_append_left _ (by decide), by decide⟩
  | ios =>
      exact hspelled "ios/Runner/AppDelegate.swift"
        (List.cons_ne_nil "Runner" ["AppDelegate.swift"]) (by decide)
  | web => exact hspelled "web/index.html" (List.cons_ne_nil "index.html" []) (by decide)
  | windows =>
      exact hspelled "windows/runner/main.cpp" (List.cons_ne_nil "runner" ["main.cpp"]) (by decide)
  | linux => exact hspelled "linux/main.cc" (List.cons_ne_nil "main.cc" []) (by decide)
  | macos =>
      exact hspelled "macos/Runner/AppDelegate.swift"
        (List.cons_ne_nil "Runner" ["AppDelegate.swift"]) (by decide)

/-- A native part stands in the directory of its platform, except for a plugin on the web. -/
theorem steps_nativeFile {platform : Platform}
    (hplatform : l.model.kind = .application ∨ platform ≠ .web) :
    ∃ steps, steps ≠ [] ∧
      (ofString (l.nativeFile platform).path).steps = platform.text :: steps := by
  rw [path_nativeFile]
  split
  · exact (runnerPath_spec l.model platform).2
  · exact steps_pluginStubPath (hplatform.resolve_left ‹_›)

section Named

variable (hname : Name.isPackageName l.model.name = true)

include hname

theorem rendered_of_mem_files (h : entry ∈ l.files) : entry.source? ≠ none := by
  rcases mem_files_iff.mp h with ⟨steps, hspelled⟩ | ⟨platform, -, rfl⟩
  · exact (isSpelled_of_mem hname hspelled).rendered
  · unfold nativeFile
    split <;> exact Option.some_ne_none _

theorem isDirectory_of_mem_files (h : entry ∈ l.files) : entry.isDirectory = false :=
  PlanEntry.isDirectory_of_rendered (rendered_of_mem_files hname h)

theorem plannedFiles_plan : plannedFiles l.plan = l.files.map PlanEntry.path := by
  rw [plan_eq, plannedFiles_withDirectories]
  exact fun _ hentry => isDirectory_of_mem_files hname hentry

theorem isInner_of_mem_files (h : entry ∈ l.files) : IsInner entry.path := by
  rcases mem_files_iff.mp h with ⟨steps, hspelled⟩ | ⟨platform, -, rfl⟩
  · exact (isSpelled_of_mem hname hspelled).spells.isInner
  · rw [path_nativeFile]
    split
    · exact (runnerPath_spec l.model platform).1
    · exact isInner_pluginStubPath hname platform

omit hname in
/-- What the directories of a project are needed for: its files, and the images of an
application. -/
theorem needers_eq (l : Layout) : needers l.files l.furtherDirectories =
    l.files.map PlanEntry.path ++
      if l.model.kind = .application then ["assets/images/_"] else [] := by
  have himages : withoutFinalSlashes "assets/images" ++ "/_" = "assets/images/_" := by decide
  unfold needers furtherDirectories
  split
  · rw [List.map_singleton, himages]
  · rfl

theorem isInner_of_mem_needers {path : String} (h : path ∈ needers l.files l.furtherDirectories) :
    IsInner path := by
  rw [needers_eq] at h
  rcases List.mem_append.mp h with h | h
  · obtain ⟨entry, hentry, rfl⟩ := List.mem_map.mp h
    exact isInner_of_mem_files hname hentry
  · split at h
    · obtain rfl := List.mem_singleton.mp h
      have himages : Spells "assets/images/_" ["assets", "images", "_"] := by decide
      exact himages.isInner
    · simp at h

theorem isInnerPlan_plan : IsInnerPlan l.plan := by
  rw [plan_eq]
  exact isInnerPlan_withDirectories (fun _ => isDirectory_of_mem_files hname)
    fun _ => isInner_of_mem_needers hname

/-! ## Files in the same place -/

/-- A native part stands in the directory of its platform, or it is the part of a plugin on the web
and is spelled. -/
theorem nativeFile_cases (platform : Platform) :
    (ofString (l.nativeFile platform).path).steps.head? = some platform.text ∨
      (IsSpelled (l.nativeFile platform, ["lib", l.model.name ++ "_web.dart"]) ∧
        platform = .web ∧ l.model.kind ≠ .application) := by
  by_cases hplatform : l.model.kind = .application ∨ platform ≠ .web
  · obtain ⟨steps, -, hsteps⟩ := steps_nativeFile hplatform
    exact .inl (by rw [hsteps]; rfl)
  · rw [not_or, not_not] at hplatform
    obtain ⟨happlication, rfl⟩ := hplatform
    rw [nativeFile, if_neg happlication]
    exact .inr ⟨isSpelled_file (spells_webPath hname) (by decide), rfl, happlication⟩

/-- A spelled file and a native part in the same place are written alike. -/
theorem path_eq_of_steps_nativeFile (h : (entry, steps) ∈ l.spelledFiles) {platform : Platform}
    (hsteps : (ofString (l.nativeFile platform).path).steps = steps) :
    entry.path = (l.nativeFile platform).path := by
  have hspelled := isSpelled_of_mem hname h
  rcases nativeFile_cases hname platform with hhead | ⟨hnative, -⟩
  · rw [hsteps] at hhead
    exact absurd hhead (hspelled.head platform)
  · have hlib := hnative.spells.steps_eq
    rw [hsteps] at hlib
    subst hlib
    exact hspelled.spells.eq_of_steps_eq hnative.spells

omit hname in
theorem platform_of_text_eq {platform other : Platform} (h : platform.text = other.text) :
    platform = other := by
  cases platform <;> cases other <;> first | rfl | exact absurd h (by decide)

/-- Native parts that start in the same directory are of the same platform. -/
theorem platform_of_head_eq {platform other : Platform}
    (hhead : (ofString (l.nativeFile platform).path).steps.head? =
      (ofString (l.nativeFile other).path).steps.head?) : platform = other := by
  rcases nativeFile_cases hname platform with hfirst | ⟨hnative, hweb, -⟩ <;>
    rcases nativeFile_cases hname other with hsecond | ⟨hnative', hweb', -⟩
  · rw [hfirst, hsecond] at hhead
    exact platform_of_text_eq (Option.some.inj hhead)
  · rw [hfirst, hnative'.spells.steps_eq] at hhead
    exact absurd hhead.symm (hnative'.head platform)
  · rw [hsecond, hnative.spells.steps_eq] at hhead
    exact absurd hhead (hnative.head other)
  · rw [hweb, hweb']

/-- Files of a project that stand in the same place are written alike. -/
theorem path_of_steps_eq {other : PlanEntry} (h : entry ∈ l.files) (hother : other ∈ l.files)
    (hsteps : (ofString entry.path).steps = (ofString other.path).steps) :
    entry.path = other.path := by
  rcases mem_files_iff.mp h with ⟨steps, hspelled⟩ | ⟨platform, -, rfl⟩ <;>
    rcases mem_files_iff.mp hother with ⟨steps', hspelled'⟩ | ⟨platform', -, rfl⟩
  · have hspells : Spells entry.path steps := (isSpelled_of_mem hname hspelled).spells
    have hspells' : Spells other.path steps' := (isSpelled_of_mem hname hspelled').spells
    rw [hspells.steps_eq, hspells'.steps_eq] at hsteps
    subst hsteps
    exact hspells.eq_of_steps_eq hspells'
  · have hspells : Spells entry.path steps := (isSpelled_of_mem hname hspelled).spells
    exact path_eq_of_steps_nativeFile hname hspelled (hsteps ▸ hspells.steps_eq)
  · have hspells' : Spells other.path steps' := (isSpelled_of_mem hname hspelled').spells
    exact (path_eq_of_steps_nativeFile hname hspelled' (hsteps.symm ▸ hspells'.steps_eq)).symm
  · rw [platform_of_head_eq hname (congrArg List.head? hsteps)]

/-- A native part is the only file of its project that starts in the directory of its platform. -/
theorem eq_nativeFile_of_head (h : entry ∈ l.files) {platform : Platform}
    (hhead : (ofString entry.path).steps.head? = some platform.text) :
    entry = l.nativeFile platform := by
  rcases mem_files_iff.mp h with ⟨steps, hspelled⟩ | ⟨other, -, rfl⟩
  · have hfile := isSpelled_of_mem hname hspelled
    rw [hfile.spells.steps_eq] at hhead
    exact absurd hhead (hfile.head platform)
  · rcases nativeFile_cases hname other with hhead' | ⟨hnative, -⟩
    · rw [hhead] at hhead'
      rw [platform_of_text_eq (Option.some.inj hhead')]
    · rw [hnative.spells.steps_eq] at hhead
      exact absurd hhead (hnative.head platform)

end Named

end Layout

end PackageScaffold
