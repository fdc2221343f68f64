import Mathlib.Data.List.Sort
import PackageScaffold.Proofs.Plan.CarryOut
import PackageScaffold.Proofs.Text.Trim

/-!
# Paths that are spelled by their steps

A planned path is usually nothing but its steps with slashes between them.  Such a path is read back
as it is written, so two of them that lead to the same place are the same text.

* `Path.Spells`: a written path with its steps;
* `plannedFiles_withDirectories`, `exists_of_mem_withDirectories`: what a plan consists of once the
  directories that its files need stand in front of them.
-/

namespace PackageScaffold

namespace Path

/-- Steps with slashes between them do not end in a slash. -/
theorem getLast?_join_ne {steps : List String} (hne : steps ≠ [])
    (hsteps : ∀ step ∈ steps, IsStep step) :
    (Text.join "/" steps).toList.getLast? ≠ some '/' := by
  obtain ⟨above, name, rfl⟩ := List.eq_nil_or_concat steps |>.resolve_left hne
  rw [List.concat_eq_append] at hsteps ⊢
  obtain ⟨hempty, -, hslash⟩ := hsteps name (by simp)
  have hname : name.toList ≠ [] := by simpa using hempty
  have hends : ∃ front, (Text.join "/" (above ++ [name])).toList = front ++ name.toList := by
    by_cases hnil : above = []
    · refine ⟨[], ?_⟩
      rw [hnil, List.nil_append, Text.join, String.intercalate_singleton, List.nil_append]
    · refine ⟨(Text.join "/" above ++ "/").toList, ?_⟩
      rw [Text.join, String.intercalate_append_of_ne_nil hnil (by simp),
        String.intercalate_singleton, String.toList_append]
      rfl
  obtain ⟨front, hfront⟩ := hends
  rw [hfront, List.getLast?_append_of_ne_nil _ hname]
  exact fun hlast => hslash (List.mem_of_getLast? hlast)

/-- A written path that is its steps with slashes between them, none of which leads back. -/
structure Spells (s : String) (steps : List String) : Prop where
  text : s = Text.join "/" steps
  nonempty : steps ≠ []
  isStep : ∀ step ∈ steps, IsStep step
  forward : ".." ∉ steps

namespace Spells

variable {s : String} {steps : List String}

theorem ofString_eq (h : Spells s steps) : ofString s = ⟨.working, steps⟩ := by
  have htext : (⟨.working, steps⟩ : Path).text = s := by
    simp [Path.text, Anchor.text, h.nonempty, h.text]
  rw [← ofString_text h.isStep, htext]

theorem steps_eq (h : Spells s steps) : (ofString s).steps = steps := by
  rw [h.ofString_eq]

theorem isInner (h : Spells s steps) : IsInner s := by
  refine ⟨?_, ?_, ?_⟩ <;> rw [h.ofString_eq]
  · exact h.nonempty
  · exact h.forward

/-- Paths that are spelled by the same steps are the same. -/
theorem eq_of_steps_eq {other : String} (h : Spells s steps) (hother : Spells other steps) :
    s = other :=
  h.text.trans hother.text.symm

theorem single {step : String} (h : IsStep step) (hforward : step ≠ "..") : Spells step [step] where
  text := by simp [Text.join]
  nonempty := by simp
  isStep := by simpa using h
  forward := by simpa using hforward.symm

/-- The steps of a path up to one of them spell a path. -/
theorem of_front {made : List String} (hstarts : made <+: steps) (hmade : made ≠ [])
    (hsteps : ∀ step ∈ steps, IsStep step) (hforward : ".." ∉ steps) :
    Spells (⟨.working, made⟩ : Path).text made where
  text := by simp [Path.text, Anchor.text, hmade]
  nonempty := hmade
  isStep step hstep := hsteps step (hstarts.mem hstep)
  forward hmem := hforward (hstarts.mem hmem)

/-- A spelled path does not end in a slash. -/
theorem getLast?_ne (h : Spells s steps) : s.toList.getLast? ≠ some '/' := by
  rw [h.text]
  exact getLast?_join_ne h.nonempty h.isStep

end Spells

end Path

open Path

/-! ## Directories in front of files -/

theorem withoutFinalSlashes_append_slash (s : String) :
    withoutFinalSlashes (s ++ "/") = withoutFinalSlashes s := by
  have hs : (s ++ "/").toList = s.toList ++ ['/'] := by simp
  rw [withoutFinalSlashes, hs, Text.trimEnd_concat_of_pos (by decide), withoutFinalSlashes]

theorem withoutFinalSlashes_eq_self {s : String} (h : s.toList.getLast? ≠ some '/') :
    withoutFinalSlashes s = s := by
  rcases List.eq_nil_or_concat s.toList with hnil | ⟨front, last, hlast⟩
  · rw [withoutFinalSlashes, hnil, Text.trimEnd, ← hnil, String.ofList_toList]
  · rw [List.concat_eq_append] at hlast
    have hne : last ≠ '/' := by simpa [hlast] using h
    rw [withoutFinalSlashes, hlast, Text.trimEnd_concat (by simpa using hne), ← hlast,
      String.ofList_toList]

theorem withoutFinalSlashes_of_spells {s : String} {steps : List String} (h : Spells s steps) :
    withoutFinalSlashes s = s :=
  withoutFinalSlashes_eq_self h.getLast?_ne

/-- The paths above an inner path are spelled by its first steps. -/
theorem exists_of_mem_parentsOf {path directory : String} (h : IsInner path)
    (hmem : directory ∈ parentsOf path) :
    ∃ made, Spells directory made ∧ made <+: (ofString path).steps.dropLast := by
  simp only [parentsOf, ancestors, List.mem_filter, List.mem_map, List.mem_reverse, List.mem_range,
    List.map_map, Function.comp_apply] at hmem
  obtain ⟨⟨count, hcount, rfl⟩, hdot⟩ := hmem
  have hstarts : (ofString path).steps.take count <+: (ofString path).steps.dropLast := by
    rw [List.dropLast_eq_take]
    exact List.take_prefix_take_left (by omega)
  rw [h.anchor] at hdot ⊢
  refine ⟨_, .of_front (hstarts.trans (List.dropLast_prefix _)) ?_
    (fun _ hstep => isStep_of_mem_steps hstep) h.forward, hstarts⟩
  intro hnil
  rw [hnil] at hdot
  revert hdot
  decide

section WithDirectories

variable {files : List PlanEntry} {directories : List String}

theorem isDirectory_directoryEntry (path : String) : (directoryEntry path).isDirectory = true := rfl

/-- What is no directory in a plan is one of the files that directories stand in front of. -/
theorem mem_of_mem_withDirectories {files : List PlanEntry} {directories : List String}
    {entry : PlanEntry} (h : entry ∈ withDirectories files directories)
    (hfile : entry.isDirectory = false) : entry ∈ files := by
  rcases List.mem_append.mp h with hdirectory | hentry
  · obtain ⟨directory, -, rfl⟩ := List.mem_map.mp hdirectory
    rw [isDirectory_directoryEntry] at hfile
    exact absurd hfile.symm Bool.false_ne_true
  · exact hentry

/-- The directories in front of the files of a plan do not count among its files. -/
theorem plannedFiles_withDirectories (hfiles : ∀ entry ∈ files, entry.isDirectory = false) :
    plannedFiles (withDirectories files directories) = files.map PlanEntry.path := by
  have hkeep : files.filter (!·.isDirectory) = files := by
    rw [List.filter_eq_self]
    exact fun entry hentry => by rw [hfiles entry hentry]; rfl
  have hdrop : ∀ paths : List String,
      (paths.map directoryEntry).filter (!·.isDirectory) = [] := by
    intro paths
    simp [isDirectory_directoryEntry]
  rw [plannedFiles, withDirectories, List.filter_append, hdrop, hkeep, List.nil_append]

/-- What a plan needs its directories for: its files, and something in each further directory. -/
def needers (files : List PlanEntry) (directories : List String) : List String :=
  files.map PlanEntry.path ++ directories.map fun d => withoutFinalSlashes d ++ "/_"

theorem shallowFirst_iff {a b : String} :
    shallowFirst a b = true ↔ depth a < depth b ∨ (depth a = depth b ∧ a ≤ b) := by
  simp [shallowFirst]

instance : Std.Total (fun a b => shallowFirst a b = true) := ⟨fun a b => by
  have := String.le_total a b
  rw [shallowFirst_iff, shallowFirst_iff]
  grind⟩

instance : IsTrans String (fun a b => shallowFirst a b = true) := ⟨fun a b c => by
  have := @String.le_trans a b c
  rw [shallowFirst_iff, shallowFirst_iff, shallowFirst_iff]
  grind⟩

instance : Std.Antisymm (fun a b => shallowFirst a b = true) := ⟨fun a b => by
  have := @String.le_antisymm a b
  rw [shallowFirst_iff, shallowFirst_iff]
  grind⟩

/-- Directories are in one order only, so they can as well be put in their places one by one. -/
theorem directoriesFor_eq_insertionSort (files directories : List String) :
    directoriesFor files directories =
      List.insertionSort (fun a b => shallowFirst a b = true)
        ((files ++ directories.map fun directory =>
          withoutFinalSlashes directory ++ "/_").flatMap parentsOf).eraseDups := by
  rw [← List.mergeSort_eq_insertionSort]
  simp [directoriesFor]

/-- The directories in front of the files of a plan are written as they are found. -/
theorem map_path_directoryEntry (hinner : ∀ path ∈ needers files directories, IsInner path) :
    ((directoriesFor (files.map PlanEntry.path) directories).map directoryEntry).map
      PlanEntry.path = directoriesFor (files.map PlanEntry.path) directories := by
  rw [List.map_map]
  refine (List.map_congr_left fun directory hmem => ?_).trans (List.map_id' _)
  simp only [directoriesFor, List.mem_mergeSort, List.mem_eraseDups, List.mem_flatMap] at hmem
  obtain ⟨path, hpath, hparent⟩ := hmem
  obtain ⟨made, hspells, -⟩ := exists_of_mem_parentsOf (hinner path hpath) hparent
  exact withoutFinalSlashes_of_spells hspells

/-- Each directory of a plan is on the way to something that it is needed for. -/
theorem exists_of_mem_withDirectories (hfiles : ∀ entry ∈ files, entry.isDirectory = false)
    (hinner : ∀ path ∈ needers files directories, IsInner path) {directory : String}
    (hmem : directory ∈ plannedDirectories (withDirectories files directories)) :
    ∃ path ∈ needers files directories, ∃ made, Spells directory made ∧
      made <+: (ofString path).steps.dropLast := by
  have hnone : files.filter PlanEntry.isDirectory = [] := by
    rw [List.filter_eq_nil_iff]
    exact fun entry hentry => by simp [hfiles entry hentry]
  simp only [plannedDirectories, withDirectories, List.filter_append, hnone, List.append_nil,
    List.mem_map, List.mem_filter, directoriesFor, List.mem_mergeSort, List.mem_eraseDups,
    List.mem_flatMap] at hmem
  obtain ⟨entry, ⟨⟨written, ⟨path, hpath, hwritten⟩, rfl⟩, -⟩, rfl⟩ := hmem
  obtain ⟨made, hspells, hmade⟩ := exists_of_mem_parentsOf (hinner path hpath) hwritten
  refine ⟨path, hpath, made, ?_, hmade⟩
  change Spells (withoutFinalSlashes written) made
  rwa [withoutFinalSlashes_of_spells hspells]

/-- A plan whose files stay inside the root stays inside as a whole. -/
theorem isInnerPlan_withDirectories (hfiles : ∀ entry ∈ files, entry.isDirectory = false)
    (hinner : ∀ path ∈ needers files directories, IsInner path) :
    IsInnerPlan (withDirectories files directories) where
  directories directory hmem := by
    obtain ⟨-, -, made, hspells, -⟩ := exists_of_mem_withDirectories hfiles hinner hmem
    exact hspells.isInner
  files file hmem := by
    rw [plannedFiles_withDirectories hfiles] at hmem
    exact hinner file (List.mem_append_left _ hmem)

end WithDirectories

end PackageScaffold
