import PackageScaffold.Proofs.Files.Writing
import PackageScaffold.Proofs.Plan.CarryOut

/-!
# A plan of a single file

What is to be written need not be refused: where no file stands in the way, and the names and the
path are short enough for a file system, the directories above a file can be made and the file is
written.

* `Disk.IsOpen`, `Disk.Permits`: nothing stands in the way to a place, and nothing on it is too long;
* `follow_of_isOpen`: an open way can be followed as far as its directories are there;
* `makeMissing_of_isOpen`: the directories on it can be made, by induction along their list;
* `carryOut_file`: a plan of a single file is carried out, and lists that file.
-/

namespace PackageScaffold

open Disk FileM

variable {d : Disk} {root : Path} {top : List String}

/-! ## Open ways -/

namespace Disk

/-- No file stands at a place, or on the way to it. -/
def IsOpen (disk : Disk) (place : List String) : Prop :=
  ∀ made content, made <+: place → disk.tree.item? made ≠ some (.file content)

/-- A file system can take a file at a path: the path and the names on the way are short enough, as
is the longer name that the file is first written under, and none of them has a null character. -/
structure Permits (disk : Disk) (path : Path) : Prop where
  size : path.text.utf8ByteSize ≤ longestPath
  above : ∀ step ∈ (disk.place path).dropLast, step.utf8ByteSize ≤ longestName
  draft : ("." ++ path.name ++ ".????????.tmp").utf8ByteSize ≤ longestName
  noNull : (disk.place path).any Path.isNullStep = false

theorem Permits.of_working {after : Disk} {path : Path} (h : d.Permits path)
    (hworking : after.working = d.working) : after.Permits path := by
  have hplace := place_of_working hworking path
  exact ⟨h.size, hplace ▸ h.above, h.draft, hplace ▸ h.noNull⟩

/-- The way to a place in a root is open if no file stands on it below the root. -/
theorem Rooted.isOpen (h : Rooted d root top) {steps : List String}
    (hbelow : ∀ made content, made ≠ [] → made <+: steps →
      d.tree.item? (top ++ made) ≠ some (.file content)) : d.IsOpen (top ++ steps) := by
  intro made content hmade hfile
  rcases List.prefix_or_prefix_of_prefix hmade (List.prefix_append top steps) with habove |
    ⟨more, rfl⟩
  · rw [FileTree.item?_of_front habove h.isDirectory] at hfile
    simp at hfile
  · by_cases hmore : more = []
    · subst hmore
      rw [List.append_nil, h.isDirectory] at hfile
      simp at hfile
    · exact hbelow more content hmore ((List.prefix_append_right_inj top).mp hmade) hfile

/-- New directories leave a way open. -/
theorem IsOpen.of_adds {after : Disk} {place : List String} (h : d.IsOpen place)
    (hadds : Adds (fun _ item => item = .directory) d after) : after.IsOpen place := by
  intro made content hmade hfile
  rcases hadds.item?_cases hfile with hbefore | ⟨-, hdirectory⟩
  · exact h made content hmade hbefore
  · simp at hdirectory

/-- An open way can be followed, as far as its directories are there. -/
theorem follow_of_isOpen {done steps : List String} (hfits : ∀ step ∈ steps, Fits step)
    (hopen : d.IsOpen (done ++ steps)) :
    follow d.tree done steps = .ok (done ++ steps) ∨
      follow d.tree done steps = .error .missing := by
  induction steps generalizing done with
  | nil => simp [follow]
  | cons step steps ih =>
      obtain ⟨⟨hback, hshort⟩, hfits⟩ := List.forall_mem_cons.mp hfits
      rw [← List.singleton_append, follow_append, follow_step d.tree done hback,
        ← List.append_assoc]
      rw [← List.singleton_append, ← List.append_assoc] at hopen
      rcases hdone : d.tree.item? done with _ | _ | content
      · exact .inr rfl
      · simp only [if_neg (Nat.not_lt.mpr hshort)]
        exact ih hfits hopen
      · exact absurd hdone (hopen done content (by simp))

/-- An open way that is not too long is not blocked. -/
theorem not_blocked_of_isOpen (h : Rooted d root top) {steps : List String}
    (hfits : ∀ step ∈ steps, Fits step) (hopen : d.IsOpen (top ++ steps))
    (hsize : (root.below steps).text.utf8ByteSize ≤ longestPath) :
    ¬ Blocked d (root.below steps) := by
  rintro ⟨refusal, hmissing, hlocate⟩
  rw [h.locate_below, if_neg (by omega)] at hlocate
  rcases follow_of_isOpen hfits hopen with hfollow | hfollow
  · simp [hfollow] at hlocate
  · exact hmissing (Except.error.inj (hlocate.symm.trans hfollow))

/-- What is on an open way can be looked at. -/
theorem exists_exists?_of_isOpen (h : Rooted d root top) {steps : List String}
    (hfits : ∀ step ∈ steps, Fits step) (hopen : d.IsOpen (top ++ steps))
    (hsize : (root.below steps).text.utf8ByteSize ≤ longestPath) :
    ∃ isThere, d.exists? (root.below steps) = .ok isThere := by
  cases hexists : d.exists? (root.below steps) with
  | ok isThere => exact ⟨isThere, rfl⟩
  | error failure =>
      obtain ⟨-, hitem, -⟩ := exists?_error hexists
      exact absurd ⟨.tooLong, by simp, locate_of_itemAt_tooLong hitem⟩
        (not_blocked_of_isOpen h hfits hopen hsize)

end Disk

/-! ## Making the directories -/

/-- A directory on an open way can be made. -/
theorem ensureDirectory_of_isOpen (h : Rooted d root top) {steps : List String}
    (hfits : ∀ step ∈ steps, Fits step) (hopen : d.IsOpen (top ++ steps))
    (hsize : (root.below steps).text.utf8ByteSize ≤ longestPath)
    (hnull : (root.below steps).hasNull = false) :
    ∃ after, (ensureDirectory (root.below steps)).outcome d = (.ok (), after) ∧
      Adds (fun _ item => item = .directory) d after := by
  have hforward : ".." ∉ steps := fun hmem => (hfits _ hmem).1 rfl
  obtain ⟨after, refusal?, hmake, hmakes⟩ := makeDirectory_below h hforward
  have hadds : Adds (fun _ item => item = .directory) d after :=
    hmakes.adds.mono fun _ _ => And.left
  refine ⟨after, ?_, hadds⟩
  rw [outcome_ensureDirectory hnull, hmake]
  cases refusal? with
  | none => rfl
  | some refusal =>
      exfalso
      rcases hmakes.blocked (by simp) with hblocked | ⟨content, hfile⟩
      · exact not_blocked_of_isOpen (h.grows hadds.grows) hfits (hopen.of_adds hadds) hsize hblocked
      · exact hopen _ content (List.prefix_refl _) (h.item?_of_itemAt hforward hfile)

/-- The directories on an open way can all be made. -/
theorem makeMissing_of_isOpen (h : Rooted d root top) {steps : List String}
    (hfits : ∀ step ∈ steps, Fits step) (hopen : d.IsOpen (top ++ steps))
    (hsize : (root.below steps).text.utf8ByteSize ≤ longestPath)
    (hnull : (root.below steps).hasNull = false) {directories : List String}
    (hdirectories : ∀ directory ∈ directories, root.extend directory = root.below steps) :
    ∃ made after, (makeMissing root directories).outcome d = (.ok made, after) ∧
      Adds (fun _ item => item = .directory) d after := by
  induction directories generalizing d with
  | nil => exact ⟨[], d, rfl, .refl _ d⟩
  | cons directory rest ih =>
      obtain ⟨hfirst, hrest⟩ := List.forall_mem_cons.mp hdirectories
      obtain ⟨isThere, hexists⟩ := exists_exists?_of_isOpen h hfits hopen hsize
      rw [← hfirst] at hexists
      cases isThere with
      | true =>
          rw [makeMissing_of_there rest hexists]
          exact ih h hopen hrest
      | false =>
          obtain ⟨middle, hensure, hmiddle⟩ := ensureDirectory_of_isOpen h hfits hopen hsize hnull
          obtain ⟨made, after, hrun, hafter⟩ :=
            ih (h.grows hmiddle.grows) (hopen.of_adds hmiddle) hrest
          refine ⟨directory :: made, after, ?_, hmiddle.trans hafter⟩
          rw [makeMissing, outcome_bind, outcome_inspect, hexists]
          simp only [Bool.false_eq_true, if_false, outcome_bind, hfirst, hensure, hrun,
            outcome_pure]

/-! ## Writing the file -/

section Permitted

variable (h : Rooted d root top) {steps : List String} {name : String}
  (hforward : ".." ∉ steps ++ [name]) (hpermits : d.Permits (root.below (steps ++ [name])))

include h hforward

theorem Disk.Rooted.place_below :
    d.place (root.below (steps ++ [name])) = top ++ (steps ++ [name]) := by
  rw [Disk.place_below hforward, ← h.eq_place]

include hpermits

/-- What a file system can take goes by names that fit. -/
theorem Disk.Permits.fits : ∀ step ∈ top ++ (steps ++ [name]), Fits step := by
  intro step hmem
  refine ⟨?_, ?_⟩
  · rintro rfl
    exact (List.mem_append.mp hmem).elim h.forward hforward
  rw [← List.append_assoc] at hmem
  rcases List.mem_append.mp hmem with hmem | hmem
  · refine hpermits.above step ?_
    rwa [h.place_below hforward, ← List.append_assoc, List.dropLast_concat]
  · -- the name of the draft is longer
    have hdraft := hpermits.draft
    rw [Path.name_below, String.utf8ByteSize_append, String.utf8ByteSize_append,
      ← List.mem_singleton.mp hmem] at hdraft
    omega

theorem Disk.Permits.hasNull : (root.below (steps ++ [name])).hasNull = false := by
  have hnull := hpermits.noNull
  rw [h.place_below hforward, List.any_append, Bool.or_eq_false_iff] at hnull
  rw [Path.hasNull_below h.noNull, hnull.2]

theorem Disk.Permits.hasNull_above : (root.below steps).hasNull = false := by
  have hnull := hpermits.hasNull h hforward
  rw [Path.hasNull_below h.noNull, List.any_append, Bool.or_eq_false_iff] at hnull
  rw [Path.hasNull_below h.noNull, hnull.1]

/-- The path to the directory that the file stands in is shorter. -/
theorem Disk.Permits.size_above : (root.below steps).text.utf8ByteSize ≤ longestPath := by
  by_cases hnil : steps = []
  · subst hnil
    rw [Path.below_nil]
    exact size_le_of_exists? h.noNull (exists?_true_iff.mpr ⟨h.noNull, _, h.itemAt⟩)
  · have hlonger := size_text_below_concat root hnil name
    have hsize := hpermits.size
    omega

variable (habove : d.tree.item? (top ++ steps) = some .directory)

include habove

/-- The draft of a file that a file system can take may be written beside it. -/
theorem checkDraft_of_permits :
    ((checkDraft (root.below (steps ++ [name]))).outcome d).1 = .ok () := by
  have hsteps : ".." ∉ steps := fun hmem => hforward (List.mem_append_left _ hmem)
  have hsize := hpermits.draft
  have hnull := hpermits.noNull
  rw [Path.name_below] at hsize
  rw [h.place_below hforward, ← List.append_assoc, List.any_append, Bool.or_eq_false_iff] at hnull
  have hdraft : Fits ("." ++ name ++ ".????????.tmp") := by
    refine ⟨fun heq => ?_, hsize⟩
    have hlength := congrArg String.utf8ByteSize heq
    have htail : ".????????.tmp".utf8ByteSize = 13 := by decide
    have hdots : "..".utf8ByteSize = 2 := by decide
    rw [String.utf8ByteSize_append, htail, hdots] at hlength
    omega
  have hfollow : follow d.tree [] (top ++ steps ++ ["." ++ name ++ ".????????.tmp"]) =
      .ok ([] ++ (top ++ steps ++ ["." ++ name ++ ".????????.tmp"])) := by
    refine follow_eq_ok (fun step hmem => ?_) fun _ =>
      by rwa [List.dropLast_concat, List.nil_append]
    rcases List.mem_append.mp hmem with hmem | hmem
    · refine hpermits.fits h hforward step ?_
      rw [← List.append_assoc]
      exact List.mem_append_left _ hmem
    · rwa [List.mem_singleton.mp hmem]
  have hdraftNull : Path.isNullStep ("." ++ name ++ ".????????.tmp") = false := by
    have hname : '\x00' ∉ name.toList := by simpa [Path.isNullStep] using hnull.2
    simp [Path.isNullStep, hname]
  rw [outcome_checkDraft, draftSteps_below h hsteps, hfollow, List.any_append, hnull.1]
  simp [hdraftNull]

/-- Beside a directory, a file that a file system can take is written where nothing stands. -/
theorem writeFile_of_permits (hfree : d.tree.item? (top ++ (steps ++ [name])) = none)
    (content : Content) :
    d.exists? (root.below (steps ++ [name])) = .ok false ∧
      ∃ after, (writeFile (root.below (steps ++ [name])) content false).outcome d =
        (.ok (), after) ∧
        Grows d after ∧ after.itemAt (root.below (steps ++ [name])) = .ok (.file content) := by
  have hname : name ≠ ".." := fun heq => hforward (by simp [heq])
  have hnull := hpermits.hasNull h hforward
  have hlocate : d.locate (root.below (steps ++ [name])) = .ok (top ++ (steps ++ [name])) := by
    have hsize := hpermits.size
    rw [h.locate_below, if_neg (by omega)]
    exact follow_eq_ok (fun step hmem => hpermits.fits h hforward step
      (List.mem_append_right _ hmem))
      fun _ => by rwa [List.dropLast_concat]
  have hexists : d.exists? (root.below (steps ++ [name])) = .ok false := by
    rw [exists?_eq, hnull, itemAt_eq, hlocate]
    simp [Except.bind, hfree]
  obtain ⟨after, hwrite, hadds, hafter⟩ := exists_write_below h hforward content hlocate hfree
  refine ⟨hexists, after, ?_, hadds.grows, hafter⟩
  refine outcome_writeFile_ok (fun _ => hexists) (checkDraft_of_permits h hforward hpermits habove)
    hnull ?_
  rwa [moveTo, if_pos (Path.isNamed_below root _ hname)]

end Permitted

/-! ## Carrying out the plan -/

/-- A plan of a single file makes sure of the directory that the file stands in, and of no other. -/
theorem extend_of_mem_wantedDirectories {entries : List PlanEntry} (hplan : IsInnerPlan entries)
    {file : String} (hfiles : plannedFiles entries = [file])
    (hdirectories : plannedDirectories entries = [])
    {steps : List String} {name : String} (hsteps : (Path.ofString file).steps = steps ++ [name])
    (root : Path) : ∀ directory ∈ wantedDirectories entries,
      (Path.ofString directory).steps = steps ∧ root.extend directory = root.below steps := by
  intro directory hmem
  have hsame : (Path.ofString directory).steps = steps := by
    rcases hplan.cases_of_mem_wantedDirectories hmem with hplanned | ⟨other, hother, hsame⟩
    · simp [hdirectories] at hplanned
    · obtain rfl : other = file := by simpa [hfiles] using hother
      rw [hsame, hsteps, List.dropLast_concat]
  exact ⟨hsame, by rw [Path.extend_eq_below (hplan.wanted directory hmem), hsame]⟩

/-- A plan of a single file is carried out where nothing stands in the way. -/
theorem carryOut_file (h : Rooted d root top) {entries : List PlanEntry} {contents : Contents}
    {file text : String} (hfiles : plannedFiles entries = [file])
    (hdirectories : plannedDirectories entries = []) (hinner : Path.IsInner file)
    {steps : List String}
    {name : String} (hsteps : (Path.ofString file).steps = steps ++ [name])
    (hpermits : d.Permits (root.extend file)) (hopen : d.IsOpen (top ++ steps))
    (hfree : d.tree.item? (top ++ (steps ++ [name])) = none)
    (hlookup : contents.lookup file = some text) :
    ∃ done after, (carryOut entries root contents .skip none).outcome d = (.ok done, after) ∧
      done.1.written = [file] ∧ Grows d after ∧
      after.itemAt (root.extend file) = .ok (.file (.text text)) := by
  have hplan : IsInnerPlan entries := ⟨by simp [hdirectories], by simpa [hfiles] using hinner⟩
  have hwanted := fun directory hmem =>
    extend_of_mem_wantedDirectories hplan hfiles hdirectories hsteps root directory hmem
  have hforward := hinner.forward
  have hbelow := Path.extend_eq_below hinner root
  rw [hsteps] at hforward hbelow
  rw [hbelow] at hpermits ⊢
  obtain ⟨made, middle, hmake, -⟩ := makeMissing_of_isOpen h
    (fun step hmem => hpermits.fits h hforward step (by simp [hmem])) hopen
    (hpermits.size_above h hforward) (hpermits.hasNull_above h hforward) fun directory hmem =>
      (hwanted directory hmem).2
  have hmade := makeMissing_spec h hplan.wanted hmake (by simp [Deliberate])
  have hroot := h.grows hmade.adds.grows
  -- the directory is there now, and nothing else is new
  have habove : middle.tree.item? (top ++ steps) = some .directory := by
    have hthere := hplan.hasParent hroot (hmade.present rfl) file (by simp [hfiles])
    rw [HasParent, hsteps, List.dropLast_concat] at hthere
    obtain ⟨item, hitem⟩ := Option.ne_none_iff_exists'.mp hthere
    cases item with
    | directory => exact hitem
    | file content =>
        have hstill := hopen.of_adds (hmade.adds.mono fun _ _ => And.left)
        exact absurd hitem (hstill _ content (List.prefix_refl _))
  have hfree' : middle.tree.item? (top ++ (steps ++ [name])) = none := by
    cases hitem : middle.tree.item? (top ++ (steps ++ [name])) with
    | none => rfl
    | some item =>
        rcases hmade.adds.item?_cases hitem with hbefore |
          ⟨-, -, directory, hmem, made, hfront, hplace⟩
        · simp [hfree] at hbefore
        · rw [(hwanted directory hmem).1, ← List.append_cancel_left hplace] at hfront
          have hlength := hfront.length_le
          rw [List.length_append, List.length_singleton] at hlength
          omega
  obtain ⟨hexists, after, hwrite, hgrows, hafter⟩ := writeFile_of_permits hroot hforward
    (hpermits.of_working hmade.adds.working) habove hfree' (.text text)
  refine ⟨ledgerOf entries made (markFirst (file, .written) ([], none)), after, ?_, ?_,
    hmade.adds.grows.trans hgrows, hafter⟩
  · rw [← hbelow] at hexists hwrite
    rw [outcome_carryOut, hmake, hfiles]
    simp only [writeFiles_of_free [] hexists hlookup, hwrite]
    rfl
  · simp [ledgerOf, Ledger.written, hfiles, hdirectories, markFirst, markOf?]

end PackageScaffold
