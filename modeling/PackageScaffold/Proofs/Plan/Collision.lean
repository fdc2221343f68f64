import Mathlib.Data.List.Nodup
import PackageScaffold.Proofs.Plan.Places

/-!
# Plans without collisions

In a plan for a new project no two entries should stand in the same place, and no file should stand
on the way to another entry.  Spelled files lie in a few directories whose names no file has, and
native parts have the directories of their platforms for themselves, so there is one exception
only: an application called `main` has both of its libraries in one place.

* `PlanEntry.Apart`, `IsCollisionFree`: what is asked of a plan;
* `Placed`, `Placed.eq_of_leads`: where the files of a project stand, and that none of them is on
  the way to another;
* `nodup_steps`: their places are distinct;
* `isCollisionFree_plan_iff`: the plans that are without collisions.
-/

namespace PackageScaffold

open Path

/-- Neither of two entries is a file in the place of the other or on the way to it. -/
def PlanEntry.Apart (first second : PlanEntry) : Prop :=
  (first.isDirectory = false →
    ¬ (ofString first.path).steps <+: (ofString second.path).steps) ∧
  (second.isDirectory = false →
    ¬ (ofString second.path).steps <+: (ofString first.path).steps)

instance : Std.Symm PlanEntry.Apart := ⟨fun _ _ h => ⟨h.2, h.1⟩⟩

/-- No path comes up twice, and no file stands in the place of another entry or on the way to
one. -/
structure IsCollisionFree (entries : List PlanEntry) : Prop where
  distinct : (entries.map PlanEntry.path).Nodup
  apart : entries.Pairwise PlanEntry.Apart

/-- Nothing is twice in a list once its duplicates have been erased. -/
theorem nodup_eraseDups {α : Type} [BEq α] [LawfulBEq α] (items : List α) :
    items.eraseDups.Nodup := by
  induction hlength : items.length using Nat.strong_induction_on generalizing items with
  | h length ih =>
      cases items with
      | nil => simp
      | cons first rest =>
          rw [List.eraseDups_cons, List.nodup_cons]
          refine ⟨fun hmem => ?_, ih _ ?_ _ rfl⟩
          · simpa using (List.mem_filter.mp (List.mem_eraseDups.mp hmem)).2
          · have hle := List.length_filter_le (fun other => !other == first) rest
            rw [List.length_cons] at hlength
            omega

/-- No directory stands twice in front of files. -/
theorem nodup_directoriesFor (files directories : List String) :
    (directoriesFor files directories).Nodup := by
  rw [directoriesFor, (List.mergeSort_perm _ _).nodup_iff]
  exact nodup_eraseDups _

/-! ## Names of files and names of directories -/

/-- The names of the directories that lie on the way to spelled files. -/
def directoryNames : List String :=
  [".github", "workflows", "lib", "src", "test", "example", "assets", "images"]

/-- The way to a file: through directories to a name that none of them has. -/
def IsLeaf (steps : List String) : Prop :=
  ∃ above name, steps = above ++ [name] ∧ (∀ step ∈ above, step ∈ directoryNames) ∧
    name ∉ directoryNames

theorem IsLeaf.of_steps (above : List String) {name : String}
    (habove : ∀ step ∈ above, step ∈ directoryNames) (hname : name ∉ directoryNames) :
    IsLeaf (above ++ [name]) :=
  ⟨above, name, rfl, habove, hname⟩

/-- No directory is called like a library. -/
theorem not_mem_directoryNames (s : String) {ending : String}
    (h : ".dart".toList <:+ ending.toList) : s ++ ending ∉ directoryNames := by
  intro hmem
  have hnames : ∀ name ∈ directoryNames, ¬ ".dart".toList <:+ name.toList := by decide
  refine hnames _ hmem (h.trans ?_)
  rw [String.toList_append]
  exact List.suffix_append _ _

/-- The way to a file does not lead on to another one. -/
theorem IsLeaf.eq_of_leads {steps other : List String} (h : IsLeaf steps) (hother : IsLeaf other)
    (hleads : steps <+: other) : steps = other := by
  obtain ⟨above, name, rfl, -, hname⟩ := h
  obtain ⟨above', name', rfl, habove', -⟩ := hother
  rcases List.prefix_concat_iff.mp hleads with heq | hshort
  · exact heq
  · exact absurd (habove' name (hshort.mem (by simp))) hname

namespace Layout

variable {l : Layout} {entry : PlanEntry} {steps : List String}

theorem isLeaf_of_mem_spelledFiles (h : (entry, steps) ∈ l.spelledFiles) : IsLeaf steps := by
  have hcommon : ∀ file ∈ l.spelledCommonFiles, IsLeaf file.2 := by
    simp only [spelledCommonFiles, List.forall_mem_cons]
    have htop : ∀ {name : String}, name ∉ directoryNames → IsLeaf [name] :=
      fun hname => .of_steps [] (by simp) hname
    exact ⟨htop (by decide), htop (by decide), htop (by decide), htop (by decide), htop (by decide),
      htop (by decide), .of_steps [".github", "workflows"] (by decide) (by decide), by simp⟩
  have hkind : ∀ file ∈ l.spelledKindFiles, IsLeaf file.2 := by
    -- what is named after the project is told from a directory by its ending
    have hnamed : ∀ (above : List String) (ending : String),
        (∀ step ∈ above, step ∈ directoryNames) → ".dart".toList <:+ ending.toList →
          IsLeaf (above ++ [l.model.name ++ ending]) :=
      fun above ending habove hending => .of_steps above habove (not_mem_directoryNames _ hending)
    unfold spelledKindFiles
    cases l.model.kind <;> simp only [List.forall_mem_cons]
    · exact ⟨.of_steps ["lib"] (by decide) (by decide), hnamed ["lib"] _ (by decide) (by decide),
        hnamed ["test"] _ (by decide) (by decide), by simp⟩
    · exact ⟨hnamed ["lib"] _ (by decide) (by decide),
        hnamed ["lib", "src"] _ (by decide) (by decide),
        hnamed ["lib", "src"] _ (by decide) (by decide), hnamed ["test"] _ (by decide) (by decide),
        .of_steps ["example"] (by decide) (by decide),
        .of_steps ["example", "lib"] (by decide) (by decide),
        .of_steps ["example"] (by decide) (by decide), by simp⟩
    · exact ⟨hnamed ["lib"] _ (by decide) (by decide),
        hnamed ["lib", "src"] _ (by decide) (by decide),
        hnamed ["test"] _ (by decide) (by decide), hnamed ["example"] _ (by decide) (by decide),
        by simp⟩
  rcases List.mem_append.mp h with h | h
  · exact hcommon _ h
  · exact hkind _ h

/-! ## Places -/

/-- Where something of a project stands: where the native part for a platform does, or at the end of
the way to a spelled file. -/
inductive Placed (l : Layout) (steps : List String) : Prop
  | native (platform : Platform) (head : steps.head? = some platform.text)
      (here : steps = (ofString (l.nativeFile platform).path).steps)
  | spelled (leaf : IsLeaf steps) (head : ∀ platform : Platform, steps.head? ≠ some platform.text)

/-- What stands at one place is not on the way to another. -/
theorem Placed.eq_of_leads {other : List String} (h : Placed l steps) (hother : Placed l other)
    (hleads : steps <+: other) : steps = other := by
  have hhead : steps ≠ [] → steps.head? = other.head? := by
    intro hne
    obtain ⟨more, rfl⟩ := hleads
    rw [List.head?_append_of_ne_nil _ hne]
  cases h with
  | native platform head here =>
      have hne : steps ≠ [] := by
        rintro rfl
        simp at head
      cases hother with
      | native platform' head' here' =>
          have htext : platform.text = platform'.text := by
            rw [hhead hne, head'] at head
            exact (Option.some.inj head).symm
          rw [here, here', platform_of_text_eq htext]
      | spelled leaf' head' => exact absurd ((hhead hne).symm.trans head) (head' platform)
  | spelled leaf head =>
      have hne : steps ≠ [] := by
        obtain ⟨above, name, rfl, -⟩ := leaf
        simp
      cases hother with
      | native platform' head' here' => exact absurd ((hhead hne).trans head') (head platform')
      | spelled leaf' head' => exact leaf.eq_of_leads leaf' hleads

section Named

variable (hname : Name.isPackageName l.model.name = true)

include hname

theorem placed_of_mem_files (h : entry ∈ l.files) : Placed l (ofString entry.path).steps := by
  rcases mem_files_iff.mp h with ⟨steps, hspelled⟩ | ⟨platform, -, rfl⟩
  · have hfile := isSpelled_of_mem hname hspelled
    rw [hfile.spells.steps_eq]
    exact .spelled (isLeaf_of_mem_spelledFiles hspelled) hfile.head
  · rcases nativeFile_cases hname platform with hhead | ⟨hweb, -⟩
    · exact .native platform hhead rfl
    · rw [hweb.spells.steps_eq]
      exact .spelled (.of_steps ["lib"] (by decide) (not_mem_directoryNames _ (by decide)))
        hweb.head

/-- What the directories of a project are needed for has places like its files. -/
theorem placed_of_mem_needers {path : String} (h : path ∈ needers l.files l.furtherDirectories) :
    Placed l (ofString path).steps := by
  rw [needers_eq] at h
  rcases List.mem_append.mp h with h | h
  · obtain ⟨entry, hentry, rfl⟩ := List.mem_map.mp h
    exact placed_of_mem_files hname hentry
  · split at h
    · obtain rfl := List.mem_singleton.mp h
      have himages : Spells "assets/images/_" ["assets", "images", "_"] := by decide
      rw [himages.steps_eq]
      refine .spelled (.of_steps ["assets", "images"] (by decide) (by decide)) fun platform => ?_
      cases platform <;> decide
    · simp at h

/-- No file is on the way to something that a directory is needed for. -/
theorem not_prefix_of_mem_needers (h : entry ∈ l.files) {path : String}
    (hpath : path ∈ needers l.files l.furtherDirectories) :
    ¬ (ofString entry.path).steps <+: (ofString path).steps.dropLast := by
  intro hleads
  have hwhole := hleads.trans (List.dropLast_prefix _)
  have heq := (placed_of_mem_files hname h).eq_of_leads (placed_of_mem_needers hname hpath) hwhole
  have hlength := hleads.length_le
  rw [heq, List.length_dropLast] at hlength
  have hne := List.length_pos_of_ne_nil (isInner_of_mem_needers hname hpath).nonempty
  omega

/-- The directories of a plan are distinct, and they are written without slashes at their ends. -/
theorem nodup_directories :
    (((directoriesFor (l.files.map PlanEntry.path) l.furtherDirectories).map directoryEntry).map
      PlanEntry.path).Nodup := by
  rw [map_path_directoryEntry fun _ => isInner_of_mem_needers hname]
  exact nodup_directoriesFor _ _

/-- No file of a plan stands in the place of one of its directories or on the way to it. -/
theorem not_prefix_directory (h : entry ∈ l.files) {directory : String}
    (hdirectory : directory ∈ plannedDirectories l.plan) :
    ¬ (ofString entry.path).steps <+: (ofString directory).steps := by
  rw [plan_eq] at hdirectory
  obtain ⟨path, hpath, made, hspells, hmade⟩ := exists_of_mem_withDirectories
    (fun _ => isDirectory_of_mem_files hname) (fun _ => isInner_of_mem_needers hname) hdirectory
  rw [hspells.steps_eq]
  exact fun hleads => not_prefix_of_mem_needers hname h hpath (hleads.trans hmade)

end Named

end Layout

end PackageScaffold
