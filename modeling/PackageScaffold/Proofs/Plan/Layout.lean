import PackageScaffold.Plan.Layout
import PackageScaffold.Proofs.Path
import PackageScaffold.Proofs.Project.Name

/-!
# Where the files of a layout stand

The paths of a layout are made from the name of its model.  Since a valid name has neither slashes
nor dots, they are what they look like: they stay inside the project, and their steps can be read
off.

* `isInner_around`: a path made around a text without dots stays inside;
* `steps_in`, `steps_libraryPath` and the like: the steps of planned files.
-/

namespace PackageScaffold

open Path

/-- A path that is made around a text without dots, with at most one dot in the rest of it, stays
inside. -/
theorem isInner_around (front back : String) {middle : String} (hmiddle : '.' ∉ middle.toList)
    (hhead : front.toList.head? ≠ some '/') (hletter : ∃ c ∈ front.toList, c ≠ '/' ∧ c ≠ '.')
    (hdots : (front.toList ++ back.toList).count '.' ≤ 1) :
    IsInner (front ++ middle ++ back) := by
  obtain ⟨c, hmem, hc⟩ := hletter
  refine isInner_of_count ?_ ?_ ⟨c, by simp [hmem], hc⟩
  · cases hfront : front.toList with
    | nil => simp [hfront] at hmem
    | cons first rest => simpa [hfront] using hhead
  · have hcount : middle.toList.count '.' = 0 := List.count_eq_zero.mpr hmiddle
    rw [List.count_append] at hdots
    simp only [String.toList_append, List.count_append, hcount]
    omega

/-- The steps of a path that starts in a directory. -/
theorem steps_in {directory : String} (h : IsStep directory) (rest : String) :
    (ofString (directory ++ "/" ++ rest)).steps = directory :: (ofString rest).steps := by
  rw [steps_append, steps_of_isStep h]
  rfl

theorem isStep_of_toList {s : String} (hnonempty : s.toList ≠ []) (hdot : s.toList ≠ ['.'])
    (hslash : '/' ∉ s.toList) : IsStep s := by
  refine ⟨?_, ?_, hslash⟩
  · rintro rfl
    exact hnonempty rfl
  · rintro rfl
    exact hdot rfl

instance (s : String) : Decidable (IsStep s) :=
  inferInstanceAs (Decidable (_ ∧ _ ∧ _))

namespace Layout

variable {m : Model} (hname : Name.isPackageName m.name = true)

include hname

theorem dot_not_mem_name : '.' ∉ m.name.toList :=
  fun hmem => (Name.isPackageName_chars hname _ hmem).1 rfl

/-- A name with an ending is one step of a path. -/
theorem isStep_named {ending : String} (hslash : '/' ∉ ending.toList)
    (hlength : 2 ≤ ending.toList.length) : IsStep (m.name ++ ending) := by
  refine isStep_of_toList ?_ ?_ ?_
  · intro heq
    have := congrArg List.length heq
    simp only [String.toList_append, List.length_append, List.length_nil] at this
    omega
  · intro heq
    have := congrArg List.length heq
    simp only [String.toList_append, List.length_append, List.length_cons, List.length_nil] at this
    omega
  · rw [String.toList_append, List.mem_append, not_or]
    exact ⟨fun hmem => (Name.isPackageName_chars hname _ hmem).2.1 rfl, hslash⟩

/-- The steps of a file in a directory that is named after the project. -/
theorem steps_named {path directory ending : String}
    (hpath : path = directory ++ "/" ++ (m.name ++ ending)) (hdirectory : IsStep directory)
    (hslash : '/' ∉ ending.toList) (hlength : 2 ≤ ending.toList.length) :
    (ofString path).steps = [directory, m.name ++ ending] := by
  rw [hpath, steps_in hdirectory, steps_of_isStep (isStep_named hname hslash hlength)]

theorem steps_libraryPath : (ofString (libraryPath m)).steps = ["lib", m.name ++ ".dart"] := by
  refine steps_named hname ?_ (by decide) (by decide) (by decide)
  rw [libraryPath, String.append_assoc]
  rfl

theorem steps_webPath :
    (ofString ("lib/" ++ m.name ++ "_web.dart")).steps = ["lib", m.name ++ "_web.dart"] := by
  refine steps_named hname ?_ (by decide) (by decide) (by decide)
  rw [String.append_assoc]
  rfl

/-- The steps of a file among the sources that is named after the project. -/
theorem steps_source (ending : String) (hslash : '/' ∉ ending.toList)
    (hlength : 2 ≤ ending.toList.length) :
    (ofString ("lib/src/" ++ m.name ++ ending)).steps = ["lib", "src", m.name ++ ending] := by
  have hpath : "lib/src/" ++ m.name ++ ending = "lib" ++ "/" ++
      ("src" ++ "/" ++ (m.name ++ ending)) := by
    rw [String.append_assoc, ← String.append_assoc, ← String.append_assoc]
    rfl
  rw [hpath, steps_in (by decide), steps_in (by decide),
    steps_of_isStep (isStep_named hname hslash hlength)]

theorem steps_testPath :
    (ofString ("test/" ++ m.name ++ "_test.dart")).steps = ["test", m.name ++ "_test.dart"] := by
  refine steps_named hname ?_ (by decide) (by decide) (by decide)
  rw [String.append_assoc]
  rfl

omit hname in
/-- A path that starts in a directory and has something else than slashes and dots after it leads
to something in that directory. -/
theorem steps_native (more : String) {front directory : String}
    (hfront : front = directory ++ "/" ++ more)
    (hdirectory : IsStep directory) (back : String)
    (hletter : ∃ c ∈ (more ++ back).toList, c ≠ '/' ∧ c ≠ '.') :
    ∃ steps, steps ≠ [] ∧ (ofString (front ++ back)).steps = directory :: steps := by
  rw [hfront, String.append_assoc, steps_in hdirectory]
  exact ⟨_, steps_ne_nil hletter, rfl⟩

omit hname in
/-- The native part of a plugin on a platform other than the web stands in the directory of the
platform. -/
theorem steps_pluginStubPath {platform : Platform} (hweb : platform ≠ .web) :
    ∃ steps, steps ≠ [] ∧ (ofString (pluginStubPath m platform)).steps =
      platform.text :: steps := by
  unfold pluginStubPath
  cases platform with
  | android =>
      simp only [String.append_assoc]
      exact steps_native "src/main/java/" (by decide) (by decide) _ ⟨'s', by simp, by decide⟩
  | ios =>
      simp only [String.append_assoc]
      exact steps_native "Classes/Swift" (by decide) (by decide) _ ⟨'C', by simp, by decide⟩
  | web => exact absurd rfl hweb
  | windows =>
      simp only [String.append_assoc]
      exact steps_native "" (by decide) (by decide) _ ⟨'_', by simp, by decide⟩
  | linux =>
      simp only [String.append_assoc]
      exact steps_native "" (by decide) (by decide) _ ⟨'_', by simp, by decide⟩
  | macos =>
      simp only [String.append_assoc]
      exact steps_native "Classes/" (by decide) (by decide) _ ⟨'C', by simp, by decide⟩

theorem isInner_pluginStubPath (platform : Platform) : IsInner (pluginStubPath m platform) := by
  have hplain := dot_not_mem_name hname
  have hpascal : '.' ∉ m.pascalName.toList := Name.not_mem_pascalCase hname (by decide) hplain
  cases platform with
  | android =>
      have hmiddle : '.' ∉ (m.androidPackagePath ++ "/" ++ m.pascalName).toList := by
        simp [m.dot_not_mem_androidPackagePath, hpascal]
      have hinner := isInner_around "android/src/main/java/" "Plugin.java" hmiddle
        (by decide) ⟨'a', by decide, by decide⟩ (by decide)
      unfold pluginStubPath
      simpa only [String.append_assoc] using hinner
  | ios => exact isInner_around _ _ hpascal (by decide) ⟨'i', by decide, by decide⟩ (by decide)
  | web => exact isInner_around _ _ hplain (by decide) ⟨'l', by decide, by decide⟩ (by decide)
  | windows => exact isInner_around _ _ hplain (by decide) ⟨'w', by decide, by decide⟩ (by decide)
  | linux => exact isInner_around _ _ hplain (by decide) ⟨'l', by decide, by decide⟩ (by decide)
  | macos => exact isInner_around _ _ hpascal (by decide) ⟨'m', by decide, by decide⟩ (by decide)

end Layout

end PackageScaffold
