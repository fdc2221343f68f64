import PackageScaffold.Files.Disk
import PackageScaffold.Proofs.Files.View

/-!
# Disks that grow

The operations that mend a package only ever add to a disk.  What was found on a disk before is
found on the grown disk as well: every item, and every refusal except the one to find something
missing.

* `Disk.Adds`: one disk holds everything that another holds, and what is new about it is described;
* `locate_of_grows`, `itemAt_of_grows`: paths lead to where they led before, and are refused where
  they were refused before, unless something was missing;
* `place`: where a path leads if it can be followed, which can be read off the path;
* `Rooted`: a directory that a path leads to, and `locate_below`, how paths go on from there.
-/

namespace PackageScaffold.Disk

/-- The second disk holds whatever the first one holds, and what it holds in addition is as `new`
says. -/
structure Adds (new : List String → Item → Prop) (before after : Disk) : Prop where
  working : after.working = before.working
  keeps : ∀ {steps item}, before.tree.item? steps = some item → after.tree.item? steps = some item
  adds : ∀ {steps item}, before.tree.item? steps = none → after.tree.item? steps = some item →
    new steps item

/-- The second disk holds whatever the first one holds. -/
abbrev Grows (before after : Disk) : Prop := Adds (fun _ _ => True) before after

namespace Adds

variable {new other : List String → Item → Prop} {d d₁ d₂ : Disk}

theorem refl (new : List String → Item → Prop) (d : Disk) : Adds new d d where
  working := rfl
  keeps h := h
  adds hnone hsome := by rw [hnone] at hsome; simp at hsome

theorem trans (h₁ : Adds new d d₁) (h₂ : Adds new d₁ d₂) : Adds new d d₂ where
  working := h₂.working.trans h₁.working
  keeps h := h₂.keeps (h₁.keeps h)
  adds {steps item} hnone hsome := by
    cases hmiddle : d₁.tree.item? steps with
    | none => exact h₂.adds hmiddle hsome
    | some item' =>
        obtain rfl : item' = item := by simpa [hsome] using (h₂.keeps hmiddle).symm
        exact h₁.adds hnone hmiddle

theorem mono (h : Adds new d d₁) (himp : ∀ steps item, new steps item → other steps item) :
    Adds other d d₁ where
  working := h.working
  keeps := h.keeps
  adds hnone hsome := himp _ _ (h.adds hnone hsome)

theorem grows (h : Adds new d d₁) : Grows d d₁ :=
  h.mono fun _ _ _ => trivial

/-- What is there on the grown disk was there before or is new. -/
theorem item?_cases (h : Adds new d d₁) {steps : List String} {item : Item}
    (hitem : d₁.tree.item? steps = some item) :
    d.tree.item? steps = some item ∨ d.tree.item? steps = none ∧ new steps item := by
  cases hbefore : d.tree.item? steps with
  | none => exact .inr ⟨rfl, h.adds hbefore hitem⟩
  | some item' =>
      obtain rfl : item' = item := by simpa [hitem] using (h.keeps hbefore).symm
      exact .inl rfl

/-- A place where nothing new can be holds what it held. -/
theorem item?_eq (h : Adds new d d₁) {steps : List String} (hold : ∀ item, ¬ new steps item) :
    d₁.tree.item? steps = d.tree.item? steps := by
  cases hafter : d₁.tree.item? steps with
  | some item =>
      rcases h.item?_cases hafter with hbefore | ⟨-, hnew⟩
      · exact hbefore.symm
      · exact absurd hnew (hold item)
  | none =>
      cases hbefore : d.tree.item? steps with
      | none => rfl
      | some item => rw [h.keeps hbefore] at hafter; simp at hafter

end Adds

/-! ## Following steps -/

theorem follow_append (tree : FileTree) (done first second : List String) :
    follow tree done (first ++ second) =
      (follow tree done first).bind fun reached => follow tree reached second := by
  induction first generalizing done with
  | nil => rfl
  | cons step first ih =>
      simp only [List.cons_append, follow]
      split
      · split
        · exact ih _
        · split
          · rfl
          · exact ih _
      · rfl
      · rfl

/-- One step forward. -/
theorem follow_step (tree : FileTree) (done : List String) {step : String} (hstep : step ≠ "..") :
    follow tree done [step] =
      match tree.item? done with
      | some .directory =>
        if longestName < step.utf8ByteSize then .error .tooLong else .ok (done ++ [step])
      | some (.file _) => .error .notDirectory
      | none => .error .missing := by
  unfold FileTree.item?
  rcases hget : tree.get? done with _ | content | entries <;>
    simp [follow, hget, hstep, FileTree.item]

/-- Where one more step leads, if it can be followed. -/
def advance (done : List String) (step : String) : List String :=
  if step == ".." then done.dropLast else done ++ [step]

/-- Where steps lead does not depend on the tree, if they can be followed. -/
theorem eq_foldl_of_follow {tree : FileTree} {done steps reached : List String}
    (h : follow tree done steps = .ok reached) : reached = steps.foldl advance done := by
  induction steps generalizing done with
  | nil => simpa [follow] using h.symm
  | cons step steps ih =>
      rw [List.foldl_cons, advance]
      simp only [follow] at h
      split at h
      · split at h
        · rw [if_pos ‹_›]
          exact ih h
        · rw [if_neg ‹_›]
          split at h
          · simp at h
          · exact ih h
      · simp at h
      · simp at h

/-- Steps that never lead back are appended. -/
theorem foldl_advance_of_forward {steps : List String} (h : ".." ∉ steps) (done : List String) :
    steps.foldl advance done = done ++ steps := by
  induction steps generalizing done with
  | nil => simp
  | cons step steps ih =>
      simp only [List.mem_cons, not_or] at h
      have hstep : (step == "..") = false := beq_false_of_ne (Ne.symm h.1)
      rw [List.foldl_cons, ih h.2, advance, hstep]
      simp

theorem eq_append_of_follow {tree : FileTree} {done steps reached : List String}
    (hforward : ".." ∉ steps) (h : follow tree done steps = .ok reached) :
    reached = done ++ steps := by
  rw [eq_foldl_of_follow h, foldl_advance_of_forward hforward]

/-- Steps that lead to something are not missing. -/
theorem follow_ne_missing {tree : FileTree} {done steps : List String} (hforward : ".." ∉ steps)
    (h : tree.item? (done ++ steps) ≠ none) : follow tree done steps ≠ .error .missing := by
  induction steps generalizing done with
  | nil => simp [follow]
  | cons step steps ih =>
      simp only [List.mem_cons, not_or] at hforward
      have hdirectory := FileTree.item?_of_item?_append (by simp) h
      obtain ⟨entries, hget⟩ := FileTree.item?_eq_directory_iff.mp hdirectory
      have hstep : (step == "..") = false := beq_false_of_ne (Ne.symm hforward.1)
      simp only [follow, hget, hstep, Bool.false_eq_true, if_false]
      split
      · simp
      · exact ih hforward.2 (by simpa using h)

/-! ## Following steps on a disk that has grown -/

section Grows

variable {d d₁ : Disk}

theorem follow_of_grows (h : Grows d d₁) {done steps : List String}
    {result : Except Refusal (List String)} (hfollow : follow d.tree done steps = result)
    (hresult : result ≠ .error .missing) : follow d₁.tree done steps = result := by
  induction steps generalizing done with
  | nil => exact hfollow
  | cons step steps ih =>
      simp only [follow] at hfollow ⊢
      rcases hget : d.tree.get? done with _ | content | entries
      · -- what is missing may come, and is excluded
        rw [hget] at hfollow
        exact absurd hfollow.symm hresult
      · rw [hget] at hfollow
        rw [FileTree.item?_eq_file_iff.mp (h.keeps (FileTree.item?_eq_file_iff.mpr hget))]
        exact hfollow
      · rw [hget] at hfollow
        obtain ⟨entries', hafter⟩ := FileTree.item?_eq_directory_iff.mp
          (h.keeps (FileTree.item?_eq_directory_iff.mpr ⟨entries, hget⟩))
        rw [hafter]
        simp only at hfollow ⊢
        split
        · rw [if_pos ‹_›] at hfollow
          exact ih hfollow
        · rw [if_neg ‹_›] at hfollow
          split
          · rw [if_pos ‹_›] at hfollow
            exact hfollow
          · rw [if_neg ‹_›] at hfollow
            exact ih hfollow

theorem start_of_grows (h : Grows d d₁) (path : Path) : d₁.start path = d.start path := by
  simp only [start, h.working]

/-- A path that leads somewhere can be followed. -/
theorem follow_of_locate {path : Path} {place : List String} (h : d.locate path = .ok place) :
    follow d.tree (d.start path) path.steps = .ok place := by
  unfold locate at h
  split at h
  · simp at h
  · exact h

theorem locate_of_grows (h : Grows d d₁) {path : Path} {result : Except Refusal (List String)}
    (hlocate : d.locate path = result) (hresult : result ≠ .error .missing) :
    d₁.locate path = result := by
  unfold locate at hlocate ⊢
  split
  · rw [if_pos ‹_›] at hlocate
    exact hlocate
  · rw [if_neg ‹_›] at hlocate
    rw [start_of_grows h]
    exact follow_of_grows h hlocate hresult

/-- A disk that grows by files alone makes no name too long that was not before. -/
theorem follow_tooLong_of_adds {d d₁ : Disk} (h : Adds (fun _ item => item ≠ .directory) d d₁)
    {done steps : List String} (hfollow : follow d₁.tree done steps = .error .tooLong) :
    follow d.tree done steps = .error .tooLong := by
  induction steps generalizing done with
  | nil => simp [follow] at hfollow
  | cons step steps ih =>
      simp only [follow] at hfollow ⊢
      rcases hget : d₁.tree.get? done with _ | content | entries
      · simp [hget] at hfollow
      · simp [hget] at hfollow
      · rw [hget] at hfollow
        have hdirectory := FileTree.item?_eq_directory_iff.mpr ⟨entries, hget⟩
        rcases h.item?_cases hdirectory with hold | ⟨-, hnew⟩
        · obtain ⟨entries', hbefore⟩ := FileTree.item?_eq_directory_iff.mp hold
          rw [hbefore]
          simp only at hfollow ⊢
          split
          · rw [if_pos ‹_›] at hfollow
            exact ih hfollow
          · rw [if_neg ‹_›] at hfollow
            split
            · rfl
            · rw [if_neg ‹_›] at hfollow
              exact ih hfollow
        · exact absurd rfl hnew

/-! ## What is at a path -/

/-- What stands at a path, or why nothing does. -/
def itemAt (disk : Disk) (path : Path) : Except Refusal Item :=
  (disk.find path).map FileTree.item

theorem itemAt_eq (disk : Disk) (path : Path) :
    disk.itemAt path = (disk.locate path).bind fun steps =>
      match disk.tree.item? steps with
      | some item => .ok item
      | none => .error .missing := by
  unfold itemAt find
  cases disk.locate path with
  | error refusal => rfl
  | ok steps =>
      simp only [FileTree.item?, Except.bind, bind]
      cases disk.tree.get? steps <;> rfl

theorem itemAt_of_locate {disk : Disk} {path : Path} {steps : List String} {item : Item}
    (hlocate : disk.locate path = .ok steps) (hitem : disk.tree.item? steps = some item) :
    disk.itemAt path = .ok item := by
  rw [itemAt_eq, hlocate]
  simp only [Except.bind, hitem]

/-- What a path shows stands where it leads. -/
theorem exists_locate_of_itemAt {disk : Disk} {path : Path} {item : Item}
    (h : disk.itemAt path = .ok item) :
    ∃ steps, disk.locate path = .ok steps ∧ disk.tree.item? steps = some item := by
  rw [itemAt_eq] at h
  cases hlocate : disk.locate path with
  | error refusal => simp [hlocate, Except.bind] at h
  | ok steps =>
      cases hfound : disk.tree.item? steps with
      | none => simp [hlocate, Except.bind, hfound] at h
      | some found =>
          obtain rfl : found = item := by simpa [hlocate, Except.bind, hfound] using h
          exact ⟨steps, rfl, hfound⟩

theorem locate_of_itemAt_tooLong {disk : Disk} {path : Path}
    (h : disk.itemAt path = .error .tooLong) : disk.locate path = .error .tooLong := by
  rw [itemAt_eq] at h
  cases hlocate : disk.locate path with
  | error refusal => simpa [hlocate, Except.bind] using h
  | ok steps =>
      rw [hlocate] at h
      simp only [Except.bind] at h
      split at h <;> simp at h

theorem itemAt_of_grows (h : Grows d d₁) {path : Path} {result : Except Refusal Item}
    (hitem : d.itemAt path = result) (hresult : result ≠ .error .missing) :
    d₁.itemAt path = result := by
  rw [itemAt_eq] at hitem ⊢
  cases hlocate : d.locate path with
  | error refusal =>
      rw [hlocate] at hitem
      have hrefusal : (Except.error refusal : Except Refusal (List String)) ≠ .error .missing := by
        rintro heq
        simp only [Except.error.injEq] at heq
        subst heq
        exact hresult hitem.symm
      rw [locate_of_grows h hlocate hrefusal]
      exact hitem
  | ok steps =>
      rw [hlocate] at hitem
      rw [locate_of_grows h hlocate (by simp)]
      simp only [Except.bind] at hitem ⊢
      cases hbefore : d.tree.item? steps with
      | none =>
          rw [hbefore] at hitem
          exact absurd hitem.symm hresult
      | some item =>
          rw [hbefore] at hitem
          rw [h.keeps hbefore]
          exact hitem

end Grows

/-- What looking at a path tells, from what stands there. -/
theorem exists?_eq (disk : Disk) (path : Path) :
    disk.exists? path =
      if path.hasNull then .ok false
      else
        match disk.itemAt path with
        | .ok _ => .ok true
        | .error .tooLong => .error (.unreachable (described path .tooLong))
        | .error _ => .ok false := by
  unfold exists? look? itemAt
  by_cases hnull : path.hasNull
  · simp [hnull, bind, Except.bind, pure, Except.pure]
  · simp only [hnull]
    cases disk.find path with
    | ok tree => rfl
    | error refusal => cases refusal <;> rfl

theorem isDirectory_eq (disk : Disk) (path : Path) :
    disk.isDirectory path =
      if path.hasNull then .ok false
      else
        match disk.itemAt path with
        | .ok .directory => .ok true
        | .ok (.file _) => .ok false
        | .error .tooLong => .error (.unreachable (described path .tooLong))
        | .error _ => .ok false := by
  unfold isDirectory look? itemAt
  by_cases hnull : path.hasNull
  · simp [hnull, bind, Except.bind, pure, Except.pure]
  · simp only [hnull]
    cases disk.find path with
    | ok tree => cases tree <;> rfl
    | error refusal => cases refusal <;> rfl

theorem read_eq (disk : Disk) (path : Path) :
    disk.read path =
      if path.hasNull then .error .nullInPath
      else
        match disk.itemAt path with
        | .ok (.file content) => content.read.mapError fun fault => .refused path.text fault.message
        | .ok .directory => .error (.refused path.text (described path .isDirectory))
        | .error .missing => .error (.absent path.text)
        | .error refusal => .error (.refused path.text (described path refusal)) := by
  unfold read content itemAt
  by_cases hnull : path.hasNull
  · simp [hnull]
  · simp only [hnull]
    cases disk.find path with
    | ok tree => cases tree <;> rfl
    | error refusal => cases refusal <;> rfl

end PackageScaffold.Disk
