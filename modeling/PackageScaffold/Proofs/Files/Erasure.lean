import PackageScaffold.Proofs.Files.Root

/-!
# Removing what stands at a path

What stands at some paths is removed with everything below it, and everything else stays.

* `FileTree.item?_erase`: the view of a tree from which something has been removed;
* `Disk.without`: a disk without what stands at some paths, and `item?_without`, its view;
* `grows_without`: the disk holds what is left of it.
-/

namespace PackageScaffold

namespace FileTree

theorem lookup_filter_ne (step other : String) (entries : List (String × FileTree)) :
    (entries.filter (·.1 != step)).lookup other =
      if other = step then none else entries.lookup other := by
  induction entries with
  | nil => simp
  | cons entry rest ih =>
      obtain ⟨name, tree⟩ := entry
      by_cases hname : name = step
      · subst hname
        rw [List.filter_cons_of_neg (by simp), ih, lookup_cons_eq]
        by_cases hother : other = name <;> simp [hother]
      · rw [List.filter_cons_of_pos (by simpa using hname), lookup_cons_eq, lookup_cons_eq, ih]
        by_cases hother : other = name
        · subst hother
          simp [hname]
        · simp [hother]

theorem erase_cons_cons (entries : List (String × FileTree)) (step next : String)
    (place : List String) :
    (FileTree.directory entries).erase (step :: next :: place) =
      match entries.lookup step with
      | some tree => .directory (setEntry step (tree.erase (next :: place)) entries)
      | none => .directory entries := by
  cases hlookup : entries.lookup step <;> simp [erase, hlookup]

/-- Removing something changes what stands at its place and below it. -/
theorem item?_erase {place : List String} (hplace : place ≠ []) (tree : FileTree)
    (steps : List String) :
    (tree.erase place).item? steps = if place <+: steps then none else tree.item? steps := by
  induction place generalizing tree steps with
  | nil => exact absurd rfl hplace
  | cons step place ih =>
      cases tree with
      | file content =>
          have herase : (FileTree.file content).erase (step :: place) = .file content := by
            cases place <;> rfl
          rw [herase]
          cases steps <;> simp
      | directory entries =>
          cases steps with
          | nil =>
              -- the directory itself stays
              have hitem : ((FileTree.directory entries).erase (step :: place)).item =
                  Item.directory := by
                cases place with
                | nil => rfl
                | cons next place =>
                    rw [erase_cons_cons]
                    cases entries.lookup step <;> rfl
              rw [item?_nil, item?_nil, hitem, if_neg (by simp)]
              rfl
          | cons first steps =>
              cases place with
              | nil =>
                  have herase : (FileTree.directory entries).erase [step] =
                      .directory (entries.filter (·.1 != step)) := rfl
                  rw [herase, item?_directory_cons, item?_directory_cons, lookup_filter_ne]
                  by_cases hfirst : first = step
                  · simp [hfirst]
                  · simp [hfirst, Ne.symm hfirst]
              | cons next place =>
                  rw [erase_cons_cons]
                  cases hlookup : entries.lookup step with
                  | none =>
                      by_cases hfirst : first = step
                      · subst hfirst
                        simp [item?_directory_cons, hlookup]
                      · simp [Ne.symm hfirst]
                  | some below =>
                      simp only
                      rw [item?_setEntry, ih (by simp)]
                      by_cases hfirst : first = step
                      · subst hfirst
                        simp [item?_directory_cons, hlookup]
                      · simp [hfirst, Ne.symm hfirst]

/-- Removing several things changes what stands at their places and below them. -/
theorem item?_foldl_erase {places : List (List String)} (hplaces : ∀ place ∈ places, place ≠ [])
    (tree : FileTree) (steps : List String) :
    (places.foldl erase tree).item? steps =
      if ∃ place ∈ places, place <+: steps then none else tree.item? steps := by
  induction places generalizing tree with
  | nil => simp
  | cons place places ih =>
      obtain ⟨hplace, hrest⟩ := List.forall_mem_cons.mp hplaces
      rw [List.foldl_cons, ih hrest, item?_erase hplace]
      by_cases hstarts : place <+: steps
      · simp [hstarts]
      · simp [hstarts]

end FileTree

namespace Disk

/-- The places that paths lead to, as far as they can be followed. -/
def places (disk : Disk) (paths : List Path) : List (List String) :=
  paths.filterMap fun path => (disk.locate path).toOption

/-- The disk without what stands at some paths, and without what stands below it. -/
def without (disk : Disk) (paths : List Path) : Disk :=
  { disk with tree := (disk.places paths).foldl FileTree.erase disk.tree }

/-- The disk without some of what is inside a root. -/
def lacking (disk : Disk) (root : Path) (removed : List String) : Disk :=
  disk.without (removed.map root.extend)

variable {d : Disk} {paths : List Path}

theorem mem_places_iff {place : List String} :
    place ∈ d.places paths ↔ ∃ path ∈ paths, d.locate path = .ok place := by
  have hplace : ∀ path, (d.locate path).toOption = some place ↔ d.locate path = .ok place := by
    intro path
    cases d.locate path <;> simp [Except.toOption]
  simp only [places, List.mem_filterMap, hplace]

section

variable (hplaces : ∀ place ∈ d.places paths, place ≠ [])

include hplaces

theorem item?_without (steps : List String) :
    (d.without paths).tree.item? steps =
      if ∃ place ∈ d.places paths, place <+: steps then none else d.tree.item? steps :=
  FileTree.item?_foldl_erase hplaces d.tree steps

/-- What does not stand at or below a place that is removed is left. -/
theorem item?_without_of_kept {steps : List String}
    (hkept : ∀ place ∈ d.places paths, ¬ place <+: steps) :
    (d.without paths).tree.item? steps = d.tree.item? steps := by
  rw [item?_without hplaces, if_neg]
  rintro ⟨place, hplace, hstarts⟩
  exact hkept place hplace hstarts

/-- A disk holds what is left of it once something has been removed. -/
theorem grows_without : Grows (d.without paths) d where
  working := rfl
  keeps {steps item} h := by
    rw [item?_without hplaces] at h
    split at h
    · simp at h
    · exact h
  adds _ _ := trivial

end

end Disk

end PackageScaffold
