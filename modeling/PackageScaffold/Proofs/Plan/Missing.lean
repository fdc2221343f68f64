import PackageScaffold.Proofs.Project.Exactness

/-!
# Missing directories

The directories of a plan are made one after the other, and each is looked at when its turn comes.
It is then missing exactly if it was missing from the start, as long as none of them stands behind
one inside it and nothing below the root is made on the way to the root itself.

* `Disk.IsClear`: roots for which that is so, as it is without dots that lead back, where the root is
  there, and where nothing is inside it;
* `item?_of_ensured`: what one directory that is made leaves as it was;
* `makeMissing_append`: directories in two lists;
* `makeMissing_present_of`, `makeMissing_present`: what is there in the end;
* `makeMissing_below`: what all of them leave as it was, by induction along them;
* `makeMissing_eq_filter`: the directories that are made are those that were missing.
-/

namespace PackageScaffold

open Disk FileM

variable {d d₁ : Disk} {root : Path} {top : List String}

/-! ## Roots -/

/-- A path below a root that shows nothing leads to nothing, and no way to a place below the root
leads through another one there that is not above it. -/
structure Disk.IsClear (disk : Disk) (root : Path) : Prop where
  seen : ∀ path, Path.IsInner path → (root.extend path).hasNull = false →
    disk.exists? (root.extend path) = .ok false →
    disk.tree.item? (disk.place (root.extend path)) = none
  apart : IsDirect disk root ∨ ∃ top, Rooted disk root top

theorem Disk.isClear_of_forward (hforward : ".." ∉ root.steps) (d : Disk) : d.IsClear root where
  seen path hinner hnull hfree := by
    refine item?_place_of_not_exists ?_ hnull hfree
    rw [Path.extend_eq_below hinner]
    simpa [Path.below, hforward] using hinner.forward
  apart := .inl (isDirect_of_forward hforward)

theorem Disk.Rooted.isClear (h : Rooted d root top) : d.IsClear root where
  seen _ hinner hnull hfree := item?_of_followed (follow_of_locate h.located) hinner hnull hfree
  apart := .inr ⟨top, h⟩

theorem Disk.IsVacant.isClear (h : d.IsVacant root) : d.IsClear root where
  seen path hinner _ _ := by
    obtain ⟨step, more, hsteps⟩ := List.exists_cons_of_ne_nil hinner.nonempty
    rw [place_extend hinner, hsteps]
    exact h.empty step more
  apart := .inl h.direct

/-! ## Directories in turn -/

namespace Disk.IsClear

variable (h : d.IsClear root) {directory : String} (hinner : Path.IsInner directory)

include h hinner

/-- A directory that is made below a root makes only those above it, and leaves the root clear. -/
theorem item?_of_ensured (hfree : d.exists? (root.extend directory) = .ok false)
    (hensure : (ensureDirectory (root.extend directory)).outcome d = (.ok (), d₁)) :
    d₁.IsClear root ∧ ∀ steps, steps ≠ [] → ¬ steps <+: (Path.ofString directory).steps →
      d₁.tree.item? (d.place root ++ steps) = d.tree.item? (d.place root ++ steps) := by
  obtain ⟨hpasses, hmade⟩ := ensureDirectory_passes hensure
  have hbelow := Path.extend_eq_below hinner root
  have hsteps : (root.extend directory).steps = root.steps ++ (Path.ofString directory).steps := by
    rw [hbelow]
    rfl
  refine ⟨⟨fun path hpath hnull hshown => ?_, ?_⟩, fun steps hne hother => ?_⟩
  · -- the way to the new directory leads through the root
    obtain ⟨-, hitem⟩ := hmade rfl
    have hthere := hitem (by simp [hsteps, hinner.nonempty])
    obtain ⟨place, hlocate, -⟩ := exists_locate_of_itemAt hthere
    have hway := follow_of_locate hlocate
    rw [hsteps, follow_append] at hway
    cases hroot : follow d₁.tree (d₁.start (root.extend directory)) root.steps with
    | error refusal => simp [hroot, Except.bind] at hway
    | ok reached =>
        have hstart : d₁.start (root.extend directory) = d₁.start root := by rw [hbelow]; rfl
        exact item?_of_followed (hstart ▸ hroot) hpath hnull hshown
  · exact h.apart.imp (fun hdirect => hdirect.of_working hpasses.working)
      fun ⟨top, hrooted⟩ => ⟨top, hrooted.grows hpasses.grows⟩
  · -- what was made is on the way to the root, or below it on the way to the directory
    rcases h.apart with hdirect | ⟨top, hrooted⟩
    · refine hpasses.item?_eq fun item => ?_
      rintro ⟨-, made, hmade, hplace⟩
      rw [hsteps] at hmade
      have hroot := List.prefix_append root.steps (Path.ofString directory).steps
      have hanchor : (root.extend directory).anchor = root.anchor := by rw [hbelow]; rfl
      rw [hanchor] at hplace
      rcases List.prefix_or_prefix_of_prefix hmade hroot with habove | ⟨more, rfl⟩
      · obtain ⟨step, rest, rfl⟩ := List.exists_cons_of_ne_nil hne
        exact hdirect step rest ⟨made, habove, hplace⟩
      · have hmore := (List.prefix_append_right_inj root.steps).mp hmade
        have hforward : ".." ∉ more := fun hmem => hinner.forward (hmore.mem hmem)
        have hend : d.place ⟨root.anchor, root.steps ++ more⟩ = d.place root ++ more := by
          rw [place, List.foldl_append, foldl_advance_of_forward hforward]
          rfl
        rw [hend] at hplace
        exact hother (List.append_cancel_left hplace ▸ hmore)
    · rw [← hrooted.eq_place]
      rw [hbelow] at hfree hensure
      refine ((ensureDirectory_below hrooted hinner.forward hfree hensure
        (by simp [Deliberate])).1).item?_eq fun item => ?_
      rintro ⟨-, made, hmade, hplace⟩
      exact hother (List.append_cancel_left hplace ▸ hmade)

end Disk.IsClear

/-- What stands below a clear root stays as it is while directories are made, unless one of them is
there or further inside. -/
theorem makeMissing_below (h : d.IsClear root) {directories : List String}
    (hinner : ∀ directory ∈ directories, Path.IsInner directory) {made : List String}
    (hrun : (makeMissing root directories).outcome d = (.ok made, d₁)) :
    d₁.IsClear root ∧ ∀ steps, steps ≠ [] →
      (∀ directory ∈ directories, ¬ steps <+: (Path.ofString directory).steps) →
      d₁.tree.item? (d.place root ++ steps) = d.tree.item? (d.place root ++ steps) := by
  induction directories generalizing d made with
  | nil =>
      obtain ⟨-, rfl⟩ := Prod.mk.injEq .. ▸ hrun
      exact ⟨h, fun _ _ _ => rfl⟩
  | cons directory rest ih =>
      obtain ⟨hfirst, hrest⟩ := List.forall_mem_cons.mp hinner
      cases makeMissing_cons hrun with
      | unseen _ hresult => simp at hresult
      | there _ hmissing =>
          obtain ⟨hclear, hsame⟩ := ih h hrest hmissing
          exact ⟨hclear, fun steps hne hother =>
            hsame steps hne (List.forall_mem_cons.mp hother).2⟩
      | refused _ _ hresult => simp at hresult
      | @made middle more hexists hensure hmissing hresult =>
          obtain ⟨more, rfl, rfl⟩ := map_eq_ok hresult.symm
          obtain ⟨hclear, hensured⟩ := h.item?_of_ensured hfirst hexists hensure
          obtain ⟨hclear', hsame⟩ := ih hclear hrest hmissing
          refine ⟨hclear', fun steps hne hother => ?_⟩
          obtain ⟨hother, hothers⟩ := List.forall_mem_cons.mp hother
          have hplace := place_of_working (ensureDirectory_passes hensure).1.working root
          rw [← hensured steps hne hother, ← hplace, hsame steps hne hothers]

/-- Directories in two lists are made one list after the other. -/
theorem makeMissing_append {first second made : List String}
    (hrun : (makeMissing root (first ++ second)).outcome d = (.ok made, d₁)) :
    ∃ made₁ made₂ middle, (makeMissing root first).outcome d = (.ok made₁, middle) ∧
      (makeMissing root second).outcome middle = (.ok made₂, d₁) ∧ made = made₁ ++ made₂ := by
  induction first generalizing d made with
  | nil => exact ⟨[], made, d, rfl, hrun, rfl⟩
  | cons directory rest ih =>
      rw [List.cons_append] at hrun
      cases makeMissing_cons hrun with
      | unseen _ hresult => simp at hresult
      | there hexists hmissing =>
          obtain ⟨made₁, made₂, middle, hfirst, hsecond, hmade⟩ := ih hmissing
          exact ⟨made₁, made₂, middle, (makeMissing_of_there rest hexists).trans hfirst,
            hsecond, hmade⟩
      | refused _ _ hresult => simp at hresult
      | made hexists hensure hmissing hresult =>
          obtain ⟨more, rfl, rfl⟩ := map_eq_ok hresult.symm
          obtain ⟨made₁, made₂, middle, hfirst, hsecond, rfl⟩ := ih hmissing
          refine ⟨directory :: made₁, made₂, middle, ?_, hsecond, rfl⟩
          rw [makeMissing, outcome_bind, outcome_inspect, hexists]
          simp only [Bool.false_eq_true, if_false, outcome_bind, hensure, hfirst, outcome_pure]

/-- Paths without steps from the top of the tree always lead somewhere. -/
theorem Disk.exists?_of_top {path : Path} (hsteps : path.steps = [])
    (hanchor : path.anchor ≠ .working) :
    d.exists? path = .ok true := by
  obtain ⟨anchor, steps⟩ := path
  obtain rfl : steps = [] := hsteps
  refine exists?_true_iff.mpr ⟨rfl, d.tree.item, itemAt_of_locate ?_ (FileTree.item?_nil _)⟩
  cases anchor with
  | working => exact absurd rfl hanchor
  | root => rfl
  | doubledRoot => rfl

/-- Once the missing directories have been made, all of them are there.  The working directory is
not made where it is missing. -/
theorem makeMissing_present_of {directories : List String}
    (hhere : ∀ directory ∈ directories, root.extend directory = .here → d.exists? .here = .ok true)
    {made : List String} (hrun : (makeMissing root directories).outcome d = (.ok made, d₁)) :
    ∀ directory ∈ directories, d₁.exists? (root.extend directory) = .ok true := by
  induction directories generalizing d made with
  | nil => simp
  | cons directory rest ih =>
      obtain ⟨hfirst, hrest⟩ := List.forall_mem_cons.mp hhere
      cases makeMissing_cons hrun with
      | unseen _ hresult => simp at hresult
      | there hexists hmissing =>
          exact List.forall_mem_cons.mpr
            ⟨exists?_true_of_grows hexists (makeMissing_adds hmissing).grows, ih hrest hmissing⟩
      | refused _ _ hresult => simp at hresult
      | @made middle _ hexists hensure hmissing hresult =>
          obtain ⟨more, rfl, rfl⟩ := map_eq_ok hresult.symm
          obtain ⟨hpasses, hmade⟩ := ensureDirectory_passes hensure
          obtain ⟨hnull, hitem⟩ := hmade rfl
          have hthere : middle.exists? (root.extend directory) = .ok true := by
            -- a path without steps leads nowhere: only the working directory could be missing there
            by_cases hsteps : (root.extend directory).steps = []
            · refine exists?_of_top hsteps fun hanchor => ?_
              have hsame : root.extend directory = .here := by
                rw [Path.here, ← hanchor, ← hsteps]
              rw [hsame, hfirst hsame] at hexists
              simp at hexists
            · exact exists?_true_iff.mpr ⟨hnull, _, hitem hsteps⟩
          refine List.forall_mem_cons.mpr
            ⟨exists?_true_of_grows hthere (makeMissing_adds hmissing).grows, ih ?_ hmissing⟩
          exact fun other hother hsame => exists?_true_of_grows (hrest other hother hsame)
            hpasses.grows

/-- Directories below a root are all there once the missing ones have been made. -/
theorem makeMissing_present {directories : List String}
    (hinner : ∀ directory ∈ directories, Path.IsInner directory) {made : List String}
    (hrun : (makeMissing root directories).outcome d = (.ok made, d₁)) :
    ∀ directory ∈ directories, d₁.exists? (root.extend directory) = .ok true := by
  refine makeMissing_present_of (fun directory hmem hsame => ?_) hrun
  have hsteps := congrArg Path.steps hsame
  rw [Path.extend_eq_below (hinner directory hmem)] at hsteps
  exact absurd (List.append_eq_nil_iff.mp hsteps).2 (hinner directory hmem).nonempty

/-- Whether nothing stands at the place of a directory. -/
def isMissing (root : Path) (disk : Disk) (directory : String) : Bool :=
  (disk.tree.item? (disk.place (root.extend directory))).isNone

theorem isMissing_eq_false {directory : String}
    (hthere : d.exists? (root.extend directory) = .ok true) :
    isMissing root d directory = false := by
  obtain ⟨-, item, hitem⟩ := exists?_true_iff.mp hthere
  obtain ⟨place, hlocate, hfound⟩ := exists_locate_of_itemAt hitem
  rw [eq_place_of_locate hlocate] at hfound
  simp [isMissing, hfound]

/-- Below a clear root, directories none of which stands behind one inside it are made if they are
missing from the start. -/
theorem makeMissing_eq_filter (h : d.IsClear root) {directories : List String}
    (hinner : ∀ directory ∈ directories, Path.IsInner directory)
    (horder : directories.Pairwise fun earlier later =>
      ¬ (Path.ofString later).steps <+: (Path.ofString earlier).steps) {made : List String}
    (hrun : (makeMissing root directories).outcome d = (.ok made, d₁)) :
    made = directories.filter (isMissing root d) := by
  induction directories generalizing d made with
  | nil =>
      obtain ⟨hmade, -⟩ := Prod.mk.injEq .. ▸ hrun
      exact (Except.ok.inj hmade).symm
  | cons directory rest ih =>
      obtain ⟨hfirst, hrest⟩ := List.forall_mem_cons.mp hinner
      obtain ⟨hbehind, horder⟩ := List.pairwise_cons.mp horder
      cases makeMissing_cons hrun with
      | unseen _ hresult => simp at hresult
      | there hexists hmissing =>
          rw [List.filter_cons_of_neg (by simp [isMissing_eq_false hexists])]
          exact ih h hrest horder hmissing
      | refused _ _ hresult => simp at hresult
      | made hexists hensure hmissing hresult =>
          obtain ⟨more, rfl, rfl⟩ := map_eq_ok hresult.symm
          obtain ⟨hclear, hensured⟩ := h.item?_of_ensured hfirst hexists hensure
          have hnull := ((ensureDirectory_passes hensure).2 rfl).1
          rw [List.filter_cons_of_pos (by simp [isMissing, h.seen directory hfirst hnull hexists]),
            ih hclear hrest horder hmissing]
          -- those behind it are missing afterwards if they were before
          congr 1
          refine List.filter_congr fun other hother => ?_
          have hplace := hensured _ (hrest other hother).nonempty (hbehind other hother)
          rw [isMissing, isMissing, place_of_working (ensureDirectory_passes hensure).1.working,
            place_extend (hrest other hother), hplace]

/-- What is seen in the end below a clear root could be looked at from the start, and showed whether
anything stood there. -/
theorem Disk.IsClear.exists?_eq (h : d.IsClear root) {path : String} (hinner : Path.IsInner path)
    (hgrows : Grows d d₁) (hlater : d₁.exists? (root.extend path) = .ok true) :
    d.exists? (root.extend path) = .ok (!isMissing root d path) := by
  have hnull := (exists?_true_iff.mp hlater).1
  cases hexists : d.exists? (root.extend path) with
  | ok isThere =>
      cases isThere with
      | true => simp [isMissing_eq_false hexists]
      | false => simp [isMissing, h.seen path hinner hnull hexists]
  | error failure =>
      obtain ⟨-, hitem, -⟩ := exists?_error hexists
      have hlong := itemAt_of_grows hgrows hitem (by simp)
      obtain ⟨-, item, hfound⟩ := exists?_true_iff.mp hlater
      simp [hlong] at hfound

end PackageScaffold
