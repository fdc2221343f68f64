import PackageScaffold.Proofs.Files.Growth
import PackageScaffold.Proofs.Path

/-!
# Working below a directory

A plan is carried out below a directory that is there.  From it, paths go on with plain names, and
this file says what the operations on such paths do.

* `Rooted`: a path leads to a directory;
* `makeDirectory_below`: making a directory adds directories on the way to it and no other.  If it
  is refused, the place is blocked, and the refusal is not that something is missing;
* `exists_write_below`: a file can be written where a path leads to nothing;
* `draftSteps_below`: where the draft of a file stands.
-/

namespace PackageScaffold

/-! ## Paths that go on from a root -/

/-- The path that goes on with the given steps. -/
def Path.below (root : Path) (steps : List String) : Path :=
  { root with steps := root.steps ++ steps }

/-- The path of something that is inside a root. -/
theorem Path.extend_eq_below {s : String} (h : IsInner s) (root : Path) :
    root.extend s = root.below (ofString s).steps := by
  change Path.append root (ofString s) = _
  simp [Path.append, h.anchor, below]

theorem Path.below_nil (root : Path) : root.below [] = root := by
  simp [below]

/-- Below a path without null characters, the steps that follow decide. -/
theorem Path.hasNull_below {root : Path} (h : root.hasNull = false) (steps : List String) :
    (root.below steps).hasNull = steps.any Path.isNullStep := by
  change (root.steps ++ steps).any Path.isNullStep = _
  rw [List.any_append, show root.steps.any Path.isNullStep = false from h, Bool.false_or]

theorem Path.name_below (root : Path) (steps : List String) (name : String) :
    (root.below (steps ++ [name])).name = name := by
  simp [below, Path.name, ← List.append_assoc]

theorem Path.parent_below (root : Path) (steps : List String) (name : String) :
    (root.below (steps ++ [name])).parent = root.below steps := by
  simp [below, Path.parent, ← List.append_assoc]

theorem Path.isNamed_below (root : Path) (steps : List String) {name : String} (h : name ≠ "..") :
    (root.below (steps ++ [name])).isNamed = true := by
  simp [below, Path.isNamed, ← List.append_assoc, h]

namespace Disk

variable {d d₁ : Disk} {root : Path} {top : List String}

/-- A path leads to a directory. -/
structure Rooted (disk : Disk) (root : Path) (top : List String) : Prop where
  noNull : root.hasNull = false
  located : disk.locate root = .ok top
  isDirectory : disk.tree.item? top = some .directory

theorem exists_rooted (h : d.isDirectory root = .ok true) : ∃ top, Rooted d root top := by
  rw [isDirectory_eq] at h
  by_cases hnull : root.hasNull = true
  · simp [hnull] at h
  · rw [if_neg hnull, itemAt_eq] at h
    cases hlocate : d.locate root with
    | error refusal => cases refusal <;> simp [hlocate, Except.bind] at h
    | ok top =>
        refine ⟨top, by simpa using hnull, hlocate, ?_⟩
        rcases hitem : d.tree.item? top with _ | _ | content <;>
          simp [hlocate, Except.bind, hitem] at h ⊢

namespace Rooted

theorem grows (h : Rooted d root top) (hgrows : Grows d d₁) : Rooted d₁ root top where
  noNull := h.noNull
  located := locate_of_grows hgrows h.located (by simp)
  isDirectory := hgrows.keeps h.isDirectory

theorem itemAt (h : Rooted d root top) : d.itemAt root = .ok .directory :=
  itemAt_of_locate h.located h.isDirectory

/-- A path that goes on from the root is followed from there, unless it is too long as a whole. -/
theorem locate_below (h : Rooted d root top) (steps : List String) :
    d.locate (root.below steps) =
      if longestPath < (root.below steps).text.utf8ByteSize then .error .tooLong
      else follow d.tree top steps := by
  have hroot := follow_of_locate h.located
  have hstart : d.start (root.below steps) = d.start root := rfl
  rw [locate, hstart, show (root.below steps).steps = root.steps ++ steps from rfl, follow_append,
    hroot]
  rfl

theorem eq_append_of_locate (h : Rooted d root top) {steps reached : List String}
    (hforward : ".." ∉ steps) (hlocate : d.locate (root.below steps) = .ok reached) :
    reached = top ++ steps := by
  rw [h.locate_below] at hlocate
  split at hlocate
  · simp at hlocate
  · exact eq_append_of_follow hforward hlocate

theorem item?_of_itemAt (h : Rooted d root top) {steps : List String} (hforward : ".." ∉ steps)
    {item : Item} (hitem : d.itemAt (root.below steps) = .ok item) :
    d.tree.item? (top ++ steps) = some item := by
  obtain ⟨reached, hlocate, hfound⟩ := exists_locate_of_itemAt hitem
  rwa [h.eq_append_of_locate hforward hlocate] at hfound

/-- A path whose steps lead to something is not refused for what is missing. -/
theorem locate_ne_missing (h : Rooted d root top) {steps : List String} (hforward : ".." ∉ steps)
    (hitem : d.tree.item? (top ++ steps) ≠ none) :
    d.locate (root.below steps) ≠ .error .missing := by
  rw [h.locate_below]
  split
  · simp
  · exact follow_ne_missing hforward hitem

end Rooted

/-! ## The last step of a path -/

theorem size_text_below_concat (root : Path) {steps : List String} (hsteps : steps ≠ [])
    (name : String) :
    (root.below (steps ++ [name])).text.utf8ByteSize =
      (root.below steps).text.utf8ByteSize + 1 + name.utf8ByteSize := by
  have hne : root.steps ++ steps ≠ [] := by simp [hsteps]
  have htext : ∀ more, (root.below (steps ++ more)).text =
      root.anchor.text ++ Text.join "/" (root.steps ++ steps ++ more) := by
    intro more
    simp [Path.text, Path.below, hsteps]
  have hjoin : Text.join "/" (root.steps ++ steps ++ [name]) =
      Text.join "/" (root.steps ++ steps) ++ "/" ++ name := by
    rw [Text.join, String.intercalate_append_of_ne_nil hne (by simp), String.intercalate_singleton]
    rfl
  have hslash : "/".utf8ByteSize = 1 := by decide
  have hshort := htext []
  rw [List.append_nil, List.append_nil] at hshort
  rw [hshort, htext [name], hjoin]
  simp only [String.utf8ByteSize_append]
  omega

/-- A step from a place that is refused is refused as well, and not for what is missing. -/
theorem locate_concat_of_error (h : Rooted d root top) {steps : List String} {refusal : Refusal}
    (hlocate : d.locate (root.below steps) = .error refusal) (hmissing : refusal ≠ .missing)
    (name : String) :
    ∃ refusal', refusal' ≠ .missing ∧ d.locate (root.below (steps ++ [name])) =
      .error refusal' := by
  have hsteps : steps ≠ [] := by
    rintro rfl
    rw [Path.below_nil, h.located] at hlocate
    simp at hlocate
  have hsize := size_text_below_concat root hsteps name
  rw [h.locate_below] at hlocate ⊢
  by_cases hlong : longestPath < (root.below steps).text.utf8ByteSize
  · exact ⟨.tooLong, by simp, if_pos (by omega)⟩
  · rw [if_neg hlong] at hlocate
    by_cases hlong' : longestPath < (root.below (steps ++ [name])).text.utf8ByteSize
    · exact ⟨.tooLong, by simp, if_pos hlong'⟩
    · refine ⟨refusal, hmissing, ?_⟩
      rw [if_neg hlong', follow_append, hlocate]
      rfl

/-- A step from a place that can be followed leads on, if a directory is there. -/
theorem locate_concat_of_ok (h : Rooted d root top) {steps reached : List String}
    (hforward : ".." ∉ steps) (hlocate : d.locate (root.below steps) = .ok reached) {name : String}
    (hname : name ≠ "..") :
    d.locate (root.below (steps ++ [name])) =
      if longestPath < (root.below (steps ++ [name])).text.utf8ByteSize then .error .tooLong
      else
        match d.tree.item? (top ++ steps) with
        | some .directory =>
          if longestName < name.utf8ByteSize then .error .tooLong else .ok (top ++ steps ++ [name])
        | some (.file _) => .error .notDirectory
        | none => .error .missing := by
  have hreached := h.eq_append_of_locate hforward hlocate
  subst hreached
  rw [h.locate_below] at hlocate ⊢
  split at hlocate
  · simp at hlocate
  · rw [follow_append, hlocate]
    by_cases hlong : longestPath < (root.below (steps ++ [name])).text.utf8ByteSize
    · rw [if_pos hlong, if_pos hlong]
    · rw [if_neg hlong, if_neg hlong]
      exact follow_step _ _ hname

/-- A step from something that is there is not refused for what is missing. -/
theorem locate_concat_ne_missing (h : Rooted d root top) {steps : List String} {name : String}
    (hforward : ".." ∉ steps ++ [name]) (hitem : d.tree.item? (top ++ steps) ≠ none) :
    d.locate (root.below (steps ++ [name])) ≠ .error .missing := by
  simp only [List.mem_append, List.mem_singleton, not_or] at hforward
  rw [h.locate_below, follow_append]
  split
  · simp
  · cases hfollow : follow d.tree top steps with
    | error refusal =>
        have hne := follow_ne_missing hforward.1 hitem
        rw [hfollow] at hne
        simpa [Except.bind] using hne
    | ok reached =>
        rw [eq_append_of_follow hforward.1 hfollow]
        simp only [Except.bind, follow_step _ _ (Ne.symm hforward.2)]
        split
        · split <;> simp
        · simp
        · exact absurd ‹_› hitem

/-- Beside something that is there, a path leads to what stands at its place, as before. -/
theorem itemAt_congr (h : Rooted d root top) (hgrows : Grows d d₁) (steps : List String)
    {name : String} (hforward : ".." ∉ steps ++ [name])
    (habove : d.tree.item? (top ++ steps) ≠ none)
    (hitem : d₁.tree.item? (top ++ (steps ++ [name])) = d.tree.item? (top ++ (steps ++ [name]))) :
    d₁.itemAt (root.below (steps ++ [name])) = d.itemAt (root.below (steps ++ [name])) := by
  have hmissing := locate_concat_ne_missing h hforward habove
  rw [itemAt_eq, itemAt_eq, locate_of_grows hgrows rfl hmissing]
  cases hlocate : d.locate (root.below (steps ++ [name])) with
  | error refusal => rfl
  | ok place =>
      rw [h.eq_append_of_locate hforward hlocate]
      simp only [Except.bind, hitem]

/-- What was at the end of a path that can be followed later was at the end of the path. -/
theorem itemAt_of_item? (h : Rooted d root top) (hgrows : Grows d d₁) {steps : List String}
    (hforward : ".." ∉ steps) {item later : Item} (hitem : d.tree.item? (top ++ steps) = some item)
    (hlater : d₁.itemAt (root.below steps) = .ok later) :
    d.itemAt (root.below steps) = .ok item := by
  have hmissing := h.locate_ne_missing hforward (by simp [hitem])
  rw [itemAt_eq, locate_of_grows hgrows rfl hmissing] at hlater
  cases hlocate : d.locate (root.below steps) with
  | error refusal => simp [hlocate, Except.bind] at hlater
  | ok place =>
      rw [← h.eq_append_of_locate hforward hlocate] at hitem
      exact itemAt_of_locate hlocate hitem

/-- A path that can be followed leads through a directory. -/
theorem isDirectory_above (h : Rooted d root top) {steps reached : List String} {name : String}
    (hforward : ".." ∉ steps ++ [name])
    (hlocate : d.locate (root.below (steps ++ [name])) = .ok reached) :
    d.tree.item? (top ++ steps) = some .directory := by
  simp only [List.mem_append, List.mem_singleton, not_or] at hforward
  cases habove : d.locate (root.below steps) with
  | error refusal =>
      by_cases hmissing : refusal = .missing
      · subst hmissing
        rw [h.locate_below] at hlocate habove
        split at hlocate
        · simp at hlocate
        · split at habove
          · simp at habove
          · rw [follow_append, habove] at hlocate
            simp [Except.bind] at hlocate
      · obtain ⟨refusal', -, herror⟩ := locate_concat_of_error h habove hmissing name
        rw [herror] at hlocate
        simp at hlocate
  | ok reached =>
      rw [locate_concat_of_ok h hforward.1 habove (Ne.symm hforward.2)] at hlocate
      split at hlocate
      · simp at hlocate
      · split at hlocate
        · assumption
        · simp at hlocate
        · simp at hlocate

/-- A path that can be followed goes on from a path that leads to a directory. -/
theorem itemAt_above (h : Rooted d root top) {steps reached : List String} {name : String}
    (hforward : ".." ∉ steps ++ [name])
    (hlocate : d.locate (root.below (steps ++ [name])) = .ok reached) :
    d.itemAt (root.below steps) = .ok .directory := by
  have hdirectory := isDirectory_above h hforward hlocate
  have hsteps : ".." ∉ steps := fun hmem => hforward (List.mem_append_left _ hmem)
  have hmissing := h.locate_ne_missing hsteps (by simp [hdirectory])
  cases habove : d.locate (root.below steps) with
  | error refusal =>
      obtain ⟨refusal', -, herror⟩ :=
        locate_concat_of_error h habove (fun heq => hmissing (heq ▸ habove)) name
      simp [hlocate] at herror
  | ok place =>
      obtain rfl := h.eq_append_of_locate hsteps habove
      exact itemAt_of_locate habove hdirectory

/-- Every path on the way of one that can be followed leads to a directory. -/
theorem itemAt_of_append (h : Rooted d root top) {made more reached : List String}
    (hforward : ".." ∉ made ++ more) (hlocate : d.locate (root.below (made ++ more)) = .ok reached)
    (hmore : more ≠ []) : d.itemAt (root.below made) = .ok .directory := by
  induction more generalizing made reached with
  | nil => exact absurd rfl hmore
  | cons step rest ih =>
      by_cases hrest : rest = []
      · subst hrest
        exact itemAt_above h hforward hlocate
      · have hsplit : made ++ step :: rest = made ++ [step] ++ rest := by simp
        rw [hsplit] at hforward hlocate
        have hnext := ih hforward hlocate hrest
        rw [itemAt_eq] at hnext
        cases hplace : d.locate (root.below (made ++ [step])) with
        | error refusal => simp [hplace, Except.bind] at hnext
        | ok place =>
            exact itemAt_above h (fun hmem => hforward (List.mem_append_left _ hmem)) hplace

/-! ## Names that are not too long -/

/-- Whether a name can be the name of an entry of a directory, as far as its length goes. -/
def Fits (name : String) : Prop :=
  name ≠ ".." ∧ name.utf8ByteSize ≤ longestName

instance (name : String) : Decidable (Fits name) :=
  inferInstanceAs (Decidable (_ ∧ _))

/-- Steps that fit can be followed through directories. -/
theorem follow_eq_ok {tree : FileTree} {done steps : List String}
    (hfits : ∀ step ∈ steps, Fits step)
    (habove : steps ≠ [] → tree.item? (done ++ steps.dropLast) = some .directory) :
    follow tree done steps = .ok (done ++ steps) := by
  induction steps generalizing done with
  | nil => simp [follow]
  | cons step steps ih =>
      obtain ⟨⟨hback, hshort⟩, hfits⟩ := List.forall_mem_cons.mp hfits
      have habove := habove (by simp)
      have hdone : tree.item? done = some .directory := by
        by_cases hnil : (step :: steps).dropLast = []
        · rwa [hnil, List.append_nil] at habove
        · exact FileTree.item?_of_item?_append hnil (by rw [habove]; simp)
      have hstep := follow_step tree done hback
      rw [hdone] at hstep
      simp only [if_neg (Nat.not_lt.mpr hshort)] at hstep
      rw [show step :: steps = [step] ++ steps from rfl, follow_append, hstep]
      simp only [Except.bind]
      rw [ih hfits fun hne => ?_, List.append_assoc]
      rwa [List.dropLast_cons_of_ne_nil hne, ← List.singleton_append, ← List.append_assoc] at habove

/-- Where only the last name can be too long, it is too long because a directory is there. -/
theorem isDirectory_of_follow_tooLong {tree : FileTree} {done steps : List String} {name : String}
    (hfits : ∀ step ∈ steps, Fits step) (hname : name ≠ "..")
    (h : follow tree done (steps ++ [name]) = .error .tooLong) :
    tree.item? (done ++ steps) = some .directory := by
  induction steps generalizing done with
  | nil =>
      rw [List.nil_append, follow_step tree done hname] at h
      rw [List.append_nil]
      split at h
      · assumption
      · simp at h
      · simp at h
  | cons step steps ih =>
      obtain ⟨⟨hback, hshort⟩, hfits⟩ := List.forall_mem_cons.mp hfits
      rw [List.cons_append, ← List.singleton_append, follow_append, follow_step tree done hback]
        at h
      split at h
      · rw [if_neg (Nat.not_lt.mpr hshort)] at h
        rw [← List.singleton_append, ← List.append_assoc]
        exact ih hfits h
      · simp [Except.bind] at h
      · simp [Except.bind] at h

/-! ## Making one directory -/

theorem makeOne_of_error {path : Path} {refusal : Refusal} (h : d.locate path = .error refusal) :
    d.makeOne path = .error refusal := by
  rw [makeOne, h]
  rfl

theorem makeOne_of_item {path : Path} {item : Item} (h : d.itemAt path = .ok item) :
    d.makeOne path = .error .exists := by
  obtain ⟨steps, hlocate, hitem⟩ := exists_locate_of_itemAt h
  have hget : (d.tree.get? steps).isSome = true := by
    simpa [FileTree.item?] using congrArg Option.isSome hitem
  simp [makeOne, hlocate, hget, bind, Except.bind, throw, throwThe, MonadExceptOf.throw]

/-- Of the places that a directory is made with, only the last is new. -/
theorem adds_of_makeDirectory {tree : FileTree} {above : List String} {name : String}
    (hmake : d.tree.makeDirectory (above ++ [name]) = .ok tree)
    (habove : d.tree.item? above = some .directory)
    (hitem : d.tree.item? (above ++ [name]) = none) :
    Adds (fun new item => new = above ++ [name] ∧ item = .directory) d { d with tree } := by
  have hview := FileTree.item?_makeDirectory hmake
  -- every place above the last one was a directory before
  have hold : ∀ {place}, place <+: above ++ [name] → place ≠ above ++ [name] →
      d.tree.item? place = some .directory := by
    intro place hinit hne
    obtain ⟨more, hmore⟩ := (List.prefix_concat_iff.mp hinit).resolve_left hne
    by_cases hnil : more = []
    · rw [hnil, List.append_nil] at hmore
      rw [hmore, habove]
    · rw [← hmore] at habove
      exact FileTree.item?_of_item?_append hnil (by rw [habove]; simp)
  refine ⟨rfl, fun {place item} hplace => ?_, fun {place item} hnone hsome => ?_⟩
  · rw [hview]
    by_cases hinit : place <+: above ++ [name]
    · have hne : place ≠ above ++ [name] := by
        rintro rfl
        simp [hitem] at hplace
      rw [if_pos hinit, ← hold hinit hne, hplace]
    · rw [if_neg hinit, hplace]
  · rw [hview] at hsome
    by_cases hinit : place <+: above ++ [name]
    · rw [if_pos hinit] at hsome
      refine ⟨?_, by simpa using hsome.symm⟩
      by_cases hne : place = above ++ [name]
      · exact hne
      · rw [hold hinit hne] at hnone
        simp at hnone
    · rw [if_neg hinit, hnone] at hsome
      simp at hsome

/-- A directory can be made where a path leads to nothing. -/
theorem exists_makeOne (h : Rooted d root top) {steps : List String} {name : String}
    (hforward : ".." ∉ steps ++ [name]) {place : List String}
    (hlocate : d.locate (root.below (steps ++ [name])) = .ok place)
    (hitem : d.tree.item? place = none) :
    ∃ after, d.makeOne (root.below (steps ++ [name])) = .ok after ∧
      Adds (fun new item => new = top ++ (steps ++ [name]) ∧ item = .directory) d after ∧
      after.itemAt (root.below (steps ++ [name])) = .ok .directory := by
  have hplace := h.eq_append_of_locate hforward hlocate
  have habove := isDirectory_above h hforward hlocate
  rw [← List.append_assoc] at hplace ⊢
  subst hplace
  obtain ⟨tree, htree⟩ := FileTree.exists_makeDirectory habove hitem
  have hadds := adds_of_makeDirectory htree habove hitem
  refine ⟨{ d with tree }, ?_, hadds, ?_⟩
  · rw [FileTree.item?_eq_none_iff] at hitem
    rw [List.append_assoc] at hlocate hitem htree
    simp [makeOne, hlocate, hitem, htree, bind, Except.bind, pure, Except.pure]
  · refine itemAt_of_locate (locate_of_grows hadds.grows hlocate (by simp)) ?_
    rw [FileTree.item?_makeDirectory htree, if_pos (List.prefix_refl _)]

theorem allowDirectory_eq (disk : Disk) (path : Path) (refusal : Refusal) :
    disk.allowDirectory path refusal =
      match disk.itemAt path with
      | .ok .directory => (disk, none)
      | _ => (disk, some refusal) := by
  unfold allowDirectory itemAt
  rcases disk.find path with refusal' | content | entries <;> rfl

/-! ## Making directories -/

/-- The way to a path is refused for good: no growth of the disk opens it. -/
def Blocked (disk : Disk) (path : Path) : Prop :=
  ∃ refusal, refusal ≠ .missing ∧ disk.locate path = .error refusal

theorem Blocked.grows {path : Path} (h : Blocked d path) (hgrows : Grows d d₁) :
    Blocked d₁ path := by
  obtain ⟨refusal, hmissing, hlocate⟩ := h
  exact ⟨refusal, hmissing, locate_of_grows hgrows hlocate (by simpa using hmissing)⟩

/-- What making a directory below a root comes to. -/
structure MakesDirectory (root : Path) (top steps : List String) (before after : Disk)
    (refusal? : Option Refusal) : Prop where
  adds : Adds (fun place item => item = .directory ∧ ∃ made, made <+: steps ∧ place = top ++ made)
    before after
  made : refusal? = none → after.itemAt (root.below steps) = .ok .directory
  blocked : refusal? ≠ none → Blocked after (root.below steps) ∨
    ∃ content, before.itemAt (root.below steps) = .ok (.file content)

/-- What is made on the way to a path is made on the way to the paths below it. -/
theorem MakesDirectory.adds_concat {steps : List String} {refusal? : Option Refusal}
    (h : MakesDirectory root top steps d d₁ refusal?) (name : String) :
    Adds (fun place item => item = .directory ∧
      ∃ made, made <+: steps ++ [name] ∧ place = top ++ made) d d₁ := by
  refine h.adds.mono ?_
  rintro place item ⟨hitem, made, hmade, hplace⟩
  exact ⟨hitem, made, hmade.trans (List.prefix_append _ _), hplace⟩

/-- A directory that cannot be made blocks the paths below it that led to nothing. -/
theorem MakesDirectory.refused_above (h : Rooted d root top) {steps : List String} {name : String}
    (hforward : ".." ∉ steps ++ [name])
    (hlocate : d.locate (root.below (steps ++ [name])) = .error .missing) {refusal : Refusal}
    (hmakes : MakesDirectory root top steps d d₁ (some refusal)) :
    MakesDirectory root top (steps ++ [name]) d d₁ (some refusal) := by
  refine ⟨hmakes.adds_concat name, by simp, fun _ => .inl ?_⟩
  have hroot := h.grows hmakes.adds.grows
  rcases hmakes.blocked (by simp) with ⟨refusal', hmissing, hblocked⟩ | ⟨content, hfile⟩
  · exact locate_concat_of_error hroot hblocked hmissing name
  · have hsteps : ".." ∉ steps := fun hmem => hforward (by simp [hmem])
    have hitem := h.item?_of_itemAt hsteps hfile
    exact absurd hlocate (locate_concat_ne_missing h hforward (by simp [hitem]))

/-- Once the directories above it are there, a directory is made as on any other disk. -/
theorem MakesDirectory.trans_above (h : Rooted d root top) {steps : List String} {name : String}
    (hforward : ".." ∉ steps ++ [name])
    (hlocate : d.locate (root.below (steps ++ [name])) = .error .missing)
    (habove : MakesDirectory root top steps d d₁ none) {after : Disk} {refusal? : Option Refusal}
    (hmakes : MakesDirectory root top (steps ++ [name]) d₁ after refusal?) :
    MakesDirectory root top (steps ++ [name]) d after refusal? := by
  have hadds := habove.adds_concat name
  refine ⟨hadds.trans hmakes.adds, hmakes.made, fun hrefused => ?_⟩
  rcases hmakes.blocked hrefused with hblocked | ⟨content, hfile⟩
  · exact .inl hblocked
  · -- only directories are new, so the file was there and its path led to it
    exfalso
    rcases hadds.item?_cases ((h.grows hadds.grows).item?_of_itemAt hforward hfile) with
      hold | ⟨-, hnew, -⟩
    · exact h.locate_ne_missing hforward (by simp [hold]) hlocate
    · simp at hnew

/-- A path that leads to nothing is either blocked already or ends in a directory that can be
made. -/
theorem makeOne_below (h : Rooted d root top) {steps : List String} {name : String}
    (hforward : ".." ∉ steps ++ [name])
    (hmissing : d.locate (root.below (steps ++ [name])) ≠ .error .missing) :
    (∃ after, d.makeOne (root.below (steps ++ [name])) = .ok after ∧
      MakesDirectory root top (steps ++ [name]) d after none) ∨
    ∃ refusal, refusal ≠ .missing ∧
      d.makeOne (root.below (steps ++ [name])) = .error refusal ∧
      ∃ refusal?, d.allowDirectory (root.below (steps ++ [name])) refusal = (d, refusal?) ∧
        MakesDirectory root top (steps ++ [name]) d d refusal? := by
  cases hlocate : d.locate (root.below (steps ++ [name])) with
  | error refusal =>
      refine .inr ⟨refusal, fun heq => hmissing (heq ▸ hlocate), makeOne_of_error hlocate,
        some refusal, ?_, .refl _ d, by simp, fun _ => .inl ⟨refusal, ?_, hlocate⟩⟩
      · rw [allowDirectory_eq, itemAt_eq, hlocate]
        rfl
      · exact fun heq => hmissing (heq ▸ hlocate)
  | ok place =>
      cases hitem : d.tree.item? place with
      | none =>
          obtain ⟨after, hmake, hadds, hafter⟩ := exists_makeOne h hforward hlocate hitem
          refine .inl ⟨after, hmake, hadds.mono ?_, fun _ => hafter, by simp⟩
          rintro place item ⟨hplace, hdirectory⟩
          exact ⟨hdirectory, _, List.prefix_refl _, hplace⟩
      | some item =>
          have hfound := itemAt_of_locate hlocate hitem
          refine .inr ⟨.exists, by simp, makeOne_of_item hfound, ?_⟩
          rw [allowDirectory_eq, hfound]
          cases item with
          | directory => exact ⟨none, rfl, .refl _ d, fun _ => hfound, by simp⟩
          | file content =>
              exact ⟨some .exists, rfl, .refl _ d, by simp, fun _ => .inr ⟨content, hfound⟩⟩

/-- Making a directory makes those above it first, from the root on. -/
theorem makeFrom_below (h : Rooted d root top) (reversed : List String)
    (hforward : ".." ∉ reversed) :
    ∃ after refusal?, makeFrom root.anchor d (reversed ++ root.steps.reverse) = (after, refusal?) ∧
      MakesDirectory root top reversed.reverse d after refusal? := by
  induction reversed with
  | nil =>
      refine ⟨d, none, ?_, .refl _ d, fun _ => ?_, by simp⟩
      · rw [List.nil_append]
        cases hsteps : root.steps.reverse with
        | nil => rfl
        | cons step above =>
            have hroot : (⟨root.anchor, (step :: above).reverse⟩ : Path) = root := by
              rw [← hsteps, List.reverse_reverse]
            simp only [makeFrom, hroot, makeOne_of_item h.itemAt, allowDirectory_eq, h.itemAt]
      · rw [List.reverse_nil, Path.below_nil]
        exact h.itemAt
  | cons name rest ih =>
      simp only [List.mem_cons, not_or] at hforward
      have hforward' : ".." ∉ rest.reverse ++ [name] := by
        simpa [and_comm] using hforward
      have hpath : (⟨root.anchor, (name :: (rest ++ root.steps.reverse)).reverse⟩ : Path) =
          root.below (rest.reverse ++ [name]) := by
        simp [Path.below]
      rw [List.reverse_cons, List.cons_append, makeFrom, hpath]
      by_cases hlocate : d.locate (root.below (rest.reverse ++ [name])) = .error .missing
      · -- something above is missing, and is made first
        rw [makeOne_of_error hlocate]
        obtain ⟨d₁, refusal?, hmake, hmakes⟩ := ih hforward.2
        simp only [hmake]
        cases refusal? with
        | some refusal => exact ⟨d₁, some refusal, rfl, hmakes.refused_above h hforward' hlocate⟩
        | none =>
            have hroot := h.grows hmakes.adds.grows
            have habove := hroot.item?_of_itemAt (by simpa using hforward.2) (hmakes.made rfl)
            have hmissing := locate_concat_ne_missing hroot hforward' (by simp [habove])
            obtain ⟨after, hmake', hmakes'⟩ | ⟨refusal, -, hmake', refusal?, hallow, hmakes'⟩ :=
              makeOne_below hroot hforward' hmissing
            · simp only [hmake']
              exact ⟨after, none, rfl, hmakes.trans_above h hforward' hlocate hmakes'⟩
            · simp only [hmake']
              exact ⟨d₁, refusal?, hallow, hmakes.trans_above h hforward' hlocate hmakes'⟩
      · obtain ⟨after, hmake, hmakes⟩ | ⟨refusal, hmissing, hmake, refusal?, hallow, hmakes⟩ :=
          makeOne_below h hforward' hlocate
        · rw [hmake]
          exact ⟨after, none, rfl, hmakes⟩
        · rw [hmake]
          cases refusal with
          | missing => exact absurd rfl hmissing
          | _ => exact ⟨d, refusal?, hallow, hmakes⟩

theorem makeDirectory_below (h : Rooted d root top) {steps : List String}
    (hforward : ".." ∉ steps) :
    ∃ after refusal?, d.makeDirectory (root.below steps) = (after, refusal?) ∧
      MakesDirectory root top steps d after refusal? := by
  have hmake := makeFrom_below h steps.reverse (by simpa using hforward)
  rwa [List.reverse_reverse, ← List.reverse_append] at hmake

/-- Making a directory on a blocked way changes nothing. -/
theorem makeDirectory_of_blocked (h : Rooted d root top) {steps : List String}
    (hblocked : Blocked d (root.below steps)) :
    ∃ refusal, d.makeDirectory (root.below steps) = (d, some refusal) := by
  obtain ⟨refusal, hmissing, hlocate⟩ := hblocked
  have hallow : d.allowDirectory (root.below steps) refusal = (d, some refusal) := by
    rw [allowDirectory_eq, itemAt_eq, hlocate]
    rfl
  unfold makeDirectory
  cases hreverse : (root.below steps).steps.reverse with
  | nil =>
      obtain ⟨rfl, -⟩ : steps = [] ∧ root.steps = [] := by simpa [Path.below] using hreverse
      rw [Path.below_nil, h.located] at hlocate
      simp at hlocate
  | cons step above =>
      have hpath : (⟨(root.below steps).anchor, (step :: above).reverse⟩ : Path) =
          root.below steps := by
        rw [← hreverse, List.reverse_reverse]
      simp only [makeFrom, hpath, makeOne_of_error hlocate]
      cases refusal with
      | missing => exact absurd rfl hmissing
      | _ => exact ⟨_, hallow⟩

/-! ## Writing files -/

theorem adds_of_write {tree : FileTree} {content : Content} {place : List String}
    (hwrite : d.tree.write content place = .ok tree) (hitem : d.tree.item? place = none) :
    Adds (fun new item => new = place ∧ item = .file content) d { d with tree } := by
  have hview := FileTree.item?_write hwrite
  refine ⟨rfl, fun {other item} hother => ?_, fun {other item} hnone hsome => ?_⟩
  · have hne : other ≠ place := by
      rintro rfl
      simp [hitem] at hother
    rw [hview, if_neg hne, hother]
  · rw [hview] at hsome
    split at hsome
    · exact ⟨‹_›, by simpa using hsome.symm⟩
    · rw [hnone] at hsome
      simp at hsome

/-- A file can be written where a path leads to nothing. -/
theorem exists_write_below (h : Rooted d root top) {steps : List String} {name : String}
    (hforward : ".." ∉ steps ++ [name]) (content : Content) {place : List String}
    (hlocate : d.locate (root.below (steps ++ [name])) = .ok place)
    (hitem : d.tree.item? place = none) :
    ∃ after, d.write (root.below (steps ++ [name])) content = .ok after ∧
      Adds (fun new item => new = top ++ (steps ++ [name]) ∧ item = .file content) d after ∧
      after.itemAt (root.below (steps ++ [name])) = .ok (.file content) := by
  have hplace := h.eq_append_of_locate hforward hlocate
  have habove := isDirectory_above h hforward hlocate
  subst hplace
  rw [← List.append_assoc] at hitem
  obtain ⟨tree, htree⟩ := FileTree.exists_write content habove (by rw [hitem]; simp)
  rw [List.append_assoc] at htree hitem
  have hadds := adds_of_write htree hitem
  refine ⟨{ d with tree }, ?_, hadds, ?_⟩
  · simp [write, hlocate, htree, bind, Except.bind, pure, Except.pure]
  · refine itemAt_of_locate (locate_of_grows hadds.grows hlocate (by simp)) ?_
    rw [FileTree.item?_write htree, if_pos rfl]

/-! ## Drafts -/

theorem not_mem_foldl_advance {done : List String} (steps : List String) (h : ".." ∉ done) :
    ".." ∉ steps.foldl advance done := by
  induction steps generalizing done with
  | nil => exact h
  | cons step steps ih =>
      refine ih ?_
      unfold advance
      split
      · exact fun hmem => h ((List.dropLast_sublist done).mem hmem)
      · rename_i hstep
        simpa [h] using fun heq => hstep (by simp [← heq])

theorem start_forward (disk : Disk) (path : Path) : ".." ∉ disk.start path := by
  unfold start
  split
  · exact disk.working_forward
  · simp

theorem Rooted.eq_foldl (h : Rooted d root top) : top = root.steps.foldl advance (d.start root) :=
  eq_foldl_of_follow (follow_of_locate h.located)

theorem Rooted.forward (h : Rooted d root top) : ".." ∉ top := by
  rw [h.eq_foldl]
  exact not_mem_foldl_advance _ (start_forward d root)

/-- The draft of a file stands beside it. -/
theorem draftSteps_below (h : Rooted d root top) {steps : List String} (hforward : ".." ∉ steps)
    (name : String) :
    d.draftSteps (root.below (steps ++ [name])) =
      top ++ steps ++ ["." ++ name ++ ".????????.tmp"] := by
  have hstart : d.start (root.below (steps ++ [name])) = d.start root := rfl
  have hstraighten : straighten (d.start root ++ (root.steps ++ steps)) = top ++ steps := by
    change (d.start root ++ (root.steps ++ steps)).foldl advance [] = _
    rw [List.foldl_append, List.foldl_append, foldl_advance_of_forward (start_forward d root),
      List.nil_append, ← h.eq_foldl, foldl_advance_of_forward hforward]
  rw [draftSteps, hstart, Path.parent_below, Path.name_below,
    show (root.below steps).steps = root.steps ++ steps from rfl, hstraighten]

/-- Beside something that is there, nothing is missing for a draft. -/
theorem follow_draft_ne_missing (h : Rooted d root top) {steps : List String}
    (hforward : ".." ∉ steps) (hitem : d.tree.item? (top ++ steps) ≠ none) (name : String) :
    follow d.tree [] (d.draftSteps (root.below (steps ++ [name]))) ≠ .error .missing := by
  have hforward' : ".." ∉ top ++ steps := by simp [h.forward, hforward]
  have hdraft : "." ++ name ++ ".????????.tmp" ≠ ".." := by
    intro heq
    have hlength := congrArg String.length heq
    simp only [String.length_append] at hlength
    have htail : ".????????.tmp".length = 13 := by decide
    have hdots : "..".length = 2 := by decide
    omega
  rw [draftSteps_below h hforward, follow_append]
  cases hfollow : follow d.tree [] (top ++ steps) with
  | error refusal =>
      have hne : follow d.tree [] (top ++ steps) ≠ .error .missing :=
        follow_ne_missing hforward' (by simpa using hitem)
      rw [hfollow] at hne
      simpa [Except.bind] using hne
  | ok reached =>
      obtain rfl : reached = top ++ steps := by simpa using eq_append_of_follow hforward' hfollow
      simp only [Except.bind, follow_step _ _ hdraft]
      split
      · split <;> simp
      · simp
      · exact absurd ‹_› hitem

end Disk

end PackageScaffold
