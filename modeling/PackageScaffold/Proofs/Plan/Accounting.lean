import PackageScaffold.Proofs.Files.Place
import PackageScaffold.Proofs.Plan.CarryOut

/-!
# What a ledger accounts for

A run makes directories and writes files, and its ledger lists them.  Whatever is on the list was
not there before, and stands at a place of its own.  A run that comes to its end lists every new
file; one that is stopped at a file lists nothing, and the files that it wrote before that one stay.

* `Accounts`: which of the new files a list accounts for, and `Accounts.trans`, by which the lists
  of two runs are put together;
* `makeMissing_accounts`, `writeFiles_accounts`: the two halves of a run;
* `carryOut_accounts`: a plan, whether it was carried out or stopped.
-/

namespace PackageScaffold

open Disk FileM

variable {d d₁ d₂ : Disk} {root : Path} {top : List String}

/-- What can be seen below a root stands at its place. -/
theorem Disk.Rooted.item?_of_exists (h : Rooted d root top) {path : String}
    (hinner : Path.IsInner path) (hthere : d.exists? (root.extend path) = .ok true) :
    d.tree.item? (top ++ (Path.ofString path).steps) ≠ none := by
  rw [Path.extend_eq_below hinner] at hthere
  obtain ⟨-, item, hitem⟩ := exists?_true_iff.mp hthere
  simp [h.item?_of_itemAt hinner.forward hitem]

/-! ## Lists of what is new -/

/-- The places of paths, from the root on. -/
def placesOf (paths : List String) : List (List String) :=
  paths.map fun path => (Path.ofString path).steps

theorem mem_placesOf {paths : List String} {steps : List String} :
    steps ∈ placesOf paths ↔ ∃ path ∈ paths, (Path.ofString path).steps = steps :=
  List.mem_map

/-- A regular file stands at a place where nothing stood. -/
def NewFileAt (before after : Disk) (place : List String) : Prop :=
  before.tree.item? place = none ∧ ∃ content, after.tree.item? place = some (.file content)

theorem NewFileAt.cases {place : List String} (h : NewFileAt d d₂ place) (hgrows : Grows d₁ d₂) :
    NewFileAt d d₁ place ∧ d₁.tree.item? place ≠ none ∨
      NewFileAt d₁ d₂ place ∧ d₁.tree.item? place = none := by
  obtain ⟨hnone, content, hfile⟩ := h
  rcases hgrows.item?_cases hfile with hmiddle | ⟨hmiddle, -⟩
  · exact .inl ⟨⟨hnone, content, hmiddle⟩, by simp [hmiddle]⟩
  · exact .inr ⟨⟨hmiddle, content, hfile⟩, hmiddle⟩

/-- A list accounts for what has been added below a root: whatever is listed is new and is listed
once, and of the new files exactly those that are lost are not listed. -/
structure Accounts (top : List String) (lost : List String → Prop) (before after : Disk)
    (listed : List String) : Prop where
  grows : Grows before after
  fresh : ∀ steps ∈ placesOf listed, before.tree.item? (top ++ steps) = none
  there : ∀ steps ∈ placesOf listed, after.tree.item? (top ++ steps) ≠ none
  once : (placesOf listed).Nodup
  files : ∀ steps, NewFileAt before after (top ++ steps) → (steps ∈ placesOf listed ↔ ¬ lost steps)

namespace Accounts

variable {lost lost' : List String → Prop} {listed more : List String}

/-- Where no file is new, an empty list accounts for everything. -/
theorem nil (hgrows : Grows d d₁) (hfiles : ∀ steps, NewFileAt d d₁ (top ++ steps) → lost steps) :
    Accounts top lost d d₁ [] where
  grows := hgrows
  fresh := by simp [placesOf]
  there := by simp [placesOf]
  once := List.nodup_nil
  files steps hnew := by simp [placesOf, hfiles steps hnew]

theorem refl (lost : List String → Prop) (d : Disk) : Accounts top lost d d [] :=
  nil (.refl _ d) fun steps hnew => by
    obtain ⟨hnone, content, hfile⟩ := hnew
    simp [hnone] at hfile

/-- What a second run adds is listed behind what a first one added.  What the first one lost has to
be lost in the end. -/
theorem trans (h₁ : Accounts top lost d d₁ listed) (h₂ : Accounts top lost' d₁ d₂ more)
    (hlost : ∀ steps, NewFileAt d d₁ (top ++ steps) → (lost steps ↔ lost' steps)) :
    Accounts top lost' d d₂ (listed ++ more) where
  grows := h₁.grows.trans h₂.grows
  fresh := by
    rw [placesOf, List.map_append]
    refine List.forall_mem_append.mpr ⟨h₁.fresh, fun steps hmem => ?_⟩
    cases hbefore : d.tree.item? (top ++ steps) with
    | none => rfl
    | some item => simpa [h₁.grows.keeps hbefore] using h₂.fresh steps hmem
  there := by
    rw [placesOf, List.map_append]
    refine List.forall_mem_append.mpr ⟨fun steps hmem => ?_, h₂.there⟩
    obtain ⟨item, hitem⟩ := Option.ne_none_iff_exists'.mp (h₁.there steps hmem)
    simp [h₂.grows.keeps hitem]
  once := by
    rw [placesOf, List.map_append]
    refine List.nodup_append.mpr ⟨h₁.once, h₂.once, ?_⟩
    rintro steps hfirst _ hsecond rfl
    exact h₁.there steps hfirst (h₂.fresh steps hsecond)
  files steps hnew := by
    rw [placesOf, List.map_append, List.mem_append]
    change steps ∈ placesOf listed ∨ steps ∈ placesOf more ↔ _
    -- a file is new to one of the two runs, and only that one lists it
    rcases hnew.cases h₂.grows with ⟨hnew, hthere⟩ | ⟨hnew, hnone⟩
    · have hnot : steps ∉ placesOf more := fun hmem => hthere (h₂.fresh steps hmem)
      rw [← hlost steps hnew, ← h₁.files steps hnew]
      simp [hnot]
    · have hnot : steps ∉ placesOf listed := fun hmem => h₁.there steps hmem hnone
      rw [← h₂.files steps hnew]
      simp [hnot]

/-- Directories need not be listed. -/
theorem sublist (h : Accounts top lost d d₁ listed) (hsublist : more.Sublist listed)
    (hfiles : ∀ steps, ¬ NewFileAt d d₁ (top ++ steps)) : Accounts top lost d d₁ more where
  grows := h.grows
  fresh steps hmem := h.fresh steps ((hsublist.map _).subset hmem)
  there steps hmem := h.there steps ((hsublist.map _).subset hmem)
  once := h.once.sublist (hsublist.map _)
  files steps hnew := absurd hnew (hfiles steps)

/-- A single thing that was made at the place of its path. -/
theorem singleton {path : String} (hgrows : Grows d d₁)
    (hfresh : d.tree.item? (top ++ (Path.ofString path).steps) = none)
    (hthere : d₁.tree.item? (top ++ (Path.ofString path).steps) ≠ none)
    (hfiles : ∀ steps, NewFileAt d d₁ (top ++ steps) →
      (steps = (Path.ofString path).steps ↔ ¬ lost steps)) : Accounts top lost d d₁ [path] where
  grows := hgrows
  fresh := by simpa [placesOf] using hfresh
  there := by simpa [placesOf] using hthere
  once := by simp [placesOf]
  files steps hnew := by simpa [placesOf] using hfiles steps hnew

end Accounts

/-! ## Directories -/

/-- Where directories alone are new, no file is. -/
theorem not_newFileAt_of_adds {new : List String → Item → Prop} (h : Adds new d d₁)
    (hnew : ∀ place item, new place item → item = .directory) (place : List String) :
    ¬ NewFileAt d d₁ place := by
  rintro ⟨hnone, content, hfile⟩
  simpa using hnew _ _ (h.adds hnone hfile)

/-- Where all directories are there, none is made. -/
theorem makeMissing_of_all {directories : List String}
    (h : ∀ directory ∈ directories, d.exists? (root.extend directory) = .ok true) :
    (makeMissing root directories).outcome d = (.ok [], d) := by
  induction directories with
  | nil => rfl
  | cons directory rest ih =>
      obtain ⟨hfirst, hrest⟩ := List.forall_mem_cons.mp h
      rw [makeMissing_of_there rest hfirst, ih hrest]

/-- A directory that was made is accounted for. -/
theorem accounts_of_ensured (h : Rooted d root top) {directory : String}
    (hinner : Path.IsInner directory)
    (hfree : d.exists? (root.extend directory) = .ok false)
    (hensure : (ensureDirectory (root.extend directory)).outcome d = (.ok (), d₁))
    (lost : List String → Prop) : Accounts top lost d d₁ [directory] := by
  have hbelow := Path.extend_eq_below hinner root
  have hnull : (root.extend directory).hasNull = false := by
    cases hnull : (root.extend directory).hasNull with
    | false => rfl
    | true =>
        rw [outcome_ensureDirectory_of_hasNull hnull] at hensure
        simp at hensure
  obtain ⟨hadds, hended⟩ := ensureDirectory_below h hinner.forward (hbelow ▸ hfree)
    (hbelow ▸ hensure)
    (by simp [Deliberate])
  obtain ⟨-, hthere⟩ := hended.resolve_right fun hfailed => by simpa using hfailed.1
  exact .singleton hadds.grows (h.item?_of_not_exists hinner hnull hfree)
    ((h.grows hadds.grows).item?_of_exists hinner (hbelow ▸ hthere))
    fun steps hnew => absurd hnew (not_newFileAt_of_adds hadds (fun _ _ => And.left) _)

/-- The directories that were made are listed. -/
theorem makeMissing_accounts (h : Rooted d root top) {directories : List String}
    (hinner : ∀ directory ∈ directories, Path.IsInner directory) {made : List String} {after : Disk}
    (hrun : (makeMissing root directories).outcome d = (.ok made, after))
    (lost : List String → Prop) : Accounts top lost d after made := by
  induction directories generalizing d made with
  | nil =>
      obtain ⟨hmade, rfl⟩ := Prod.mk.injEq .. ▸ hrun
      obtain rfl := Except.ok.inj hmade
      exact .refl lost d
  | cons directory rest ih =>
      obtain ⟨hfirst, hrest⟩ := List.forall_mem_cons.mp hinner
      cases makeMissing_cons hrun with
      | unseen _ hresult => simp at hresult
      | there _ hmissing => exact ih h hrest hmissing
      | refused _ _ hresult => simp at hresult
      | made hexists hensure hmissing hresult =>
          obtain ⟨more, rfl, rfl⟩ := map_eq_ok hresult.symm
          have hsingle := accounts_of_ensured h hfirst hexists hensure lost
          exact hsingle.trans (ih (h.grows hsingle.grows) hrest hmissing) fun _ _ => Iff.rfl

/-! ## Files -/

/-- The files that were written, by their marks. -/
def markedWritten (marks : List (String × Mark)) : List String :=
  (marks.filter (·.2 == .written)).map Prod.fst

/-- A file that was written is accounted for. -/
theorem accounts_of_written (h : Rooted d root top) {file : String} (hinner : Path.IsInner file)
    (hnull : (root.extend file).hasNull = false) {content : Content}
    (hfree : d.exists? (root.extend file) = .ok false)
    (hadds : Adds (fun place item => place = top ++ (Path.ofString file).steps ∧
      item = .file content) d d₁) (hthere : d₁.exists? (root.extend file) = .ok true) :
    Accounts top (fun _ => False) d d₁ [file] := by
  refine .singleton hadds.grows (h.item?_of_not_exists hinner hnull hfree)
    ((h.grows hadds.grows).item?_of_exists hinner hthere) ?_
  rintro steps ⟨hnone, content', hfile⟩
  have hplace := (hadds.adds hnone hfile).1
  simpa using hplace

/-- What writing files comes to: all of them are accounted for, or the run was stopped at one that
is still missing, and only files in front of it are new. -/
inductive FilesAccounted (top : List String) (contents : Contents) (before after : Disk)
    (files : List String) : Except Failure (List (String × Mark) × Allowance) → Prop
  | all {marks : List (String × Mark)} {allowance : Allowance} (hfiles : marks.map Prod.fst = files)
      (haccounts : Accounts top (fun _ => False) before after (markedWritten marks)) :
      FilesAccounted top contents before after files (.ok (marks, allowance))
  | stopped {done rest : List String} {file : String} {failure : Failure}
      (hfiles : files = done ++ file :: rest) (hadds : Adds (NewFile top contents done) before after)
      (hmissing : after.tree.item? (top ++ (Path.ofString file).steps) = none) :
      FilesAccounted top contents before after files (.error failure)

/-- Once the first file is there, what becomes of the rest decides. -/
theorem FilesAccounted.cons {contents : Contents} {file : String} {rest : List String} {mark : Mark}
    {result : Except Failure (List (String × Mark) × Allowance)}
    (hadds : Adds (NewFile top contents [file]) d d₁)
    (haccounts : Accounts top (fun _ => False) d d₁ (markedWritten [(file, mark)]))
    (hrest : FilesAccounted top contents d₁ d₂ rest result) :
    FilesAccounted top contents d d₂ (file :: rest) (result.map (markFirst (file, mark))) := by
  cases hrest with
  | all hfiles hlisted =>
      rename_i marks allowance
      have hsplit : markedWritten ((file, mark) :: marks) =
          markedWritten [(file, mark)] ++ markedWritten marks := by
        cases mark <;> rfl
      refine .all (by simp [hfiles]) ?_
      rw [hsplit]
      exact haccounts.trans hlisted fun _ _ => Iff.rfl
  | stopped hfiles hadds' hmissing =>
      rename_i done rest' other failure
      refine @FilesAccounted.stopped _ _ _ _ _ (file :: done) rest' other failure (by simp [hfiles])
        ?_ hmissing
      exact (hadds.mono fun _ _ => .mono (by simp)).trans
        (hadds'.mono fun _ _ => .mono (List.subset_cons_self _ _))

theorem writeFiles_accounts (h : Rooted d root top) {contents : Contents} {files : List String}
    (hinner : ∀ file ∈ files, Path.IsInner file) (hparents : ∀ file ∈ files, HasParent top d file)
    (hnull : ∀ file ∈ files, (root.extend file).hasNull = false)
    {result : Except Failure (List (String × Mark) × Allowance)} {after : Disk}
    (hrun : (writeFiles root .skip contents none files).outcome d = (result, after))
    (hdeliberate : Deliberate result) : FilesAccounted top contents d after files result := by
  induction files generalizing d result with
  | nil =>
      obtain ⟨rfl, rfl⟩ := Prod.mk.injEq .. ▸ hrun
      exact .all rfl (.refl _ d)
  | cons file rest ih =>
      obtain ⟨hfirst, hrest⟩ := List.forall_mem_cons.mp hinner
      obtain ⟨hparent, hparents'⟩ := List.forall_mem_cons.mp hparents
      obtain ⟨hnullFirst, hnull'⟩ := List.forall_mem_cons.mp hnull
      cases writeFiles_cons h hfirst hparent hrun hdeliberate with
      | passed _ hmore hresult =>
          subst hresult
          exact .cons (.refl _ d) (.refl _ d)
            (ih h hrest hparents' hnull' hmore (Deliberate.of_map hdeliberate))
      | written hexists hlookup hadds hthere hmore hresult =>
          subst hresult
          have hgrown : ∀ other ∈ rest, HasParent top _ other :=
            fun other hother => (hparents' other hother).grows hadds.grows
          exact .cons (hadds.mono fun _ _ => newFile_singleton hlookup)
            (accounts_of_written h hfirst hnullFirst hexists hadds hthere)
            (ih (h.grows hadds.grows) hrest hgrown hnull' hmore (Deliberate.of_map hdeliberate))
      | refused hexists _ _ hresult hsame =>
          subst hresult hsame
          exact .stopped (List.nil_append _).symm (.refl _ _)
            (h.item?_of_not_exists hfirst hnullFirst hexists)

/-! ## Ledgers -/

/-- Of files that were each reached once, the ledger lists those that were marked as written. -/
theorem filter_markOf? {marks : List (String × Mark)} (hnodup : (marks.map Prod.fst).Nodup) :
    (marks.map Prod.fst).filter (fun file => markOf? marks file == some .written) =
      markedWritten marks := by
  rw [List.filter_map, markedWritten]
  refine congrArg _ (List.filter_congr fun mark hmem => ?_)
  -- the last mark of a file counts, and there is only one
  have hreverse : (marks.reverse.map Prod.fst).Nodup := by
    rw [List.map_reverse]
    exact List.pairwise_reverse.mpr (hnodup.imp Ne.symm)
  have hlookup : markOf? marks mark.1 = some mark.2 := by
    obtain ⟨before, behind, hsplit⟩ := List.append_of_mem (List.mem_reverse.mpr hmem)
    refine List.lookup_eq_some_iff.mpr ⟨before, behind, hsplit, fun other hother => ?_⟩
    rw [hsplit, List.map_append, List.nodup_append] at hreverse
    have hne := hreverse.2.2 other.1 (List.mem_map_of_mem hother) mark.1 (by simp)
    simpa using hne.symm
  simp [Function.comp, hlookup]

/-- A run was stopped at a file that is still missing, and the file at a place stood in front of it
in the plan. -/
def StoppedBehind (top : List String) (entries : List PlanEntry) (disk : Disk)
    (steps : List String) : Prop :=
  ∃ done file rest, plannedFiles entries = done ++ file :: rest ∧ steps ∈ placesOf done ∧
    disk.tree.item? (top ++ (Path.ofString file).steps) = none

/-- What is listed of a plan: everything that is new, or nothing if the run was stopped; then every
new file stands in front of one that is missing. -/
inductive PlanAccounted (top : List String) (entries : List PlanEntry) (before after : Disk) :
    Except Failure (List String) → Prop
  | all {listed : List String} (haccounts : Accounts top (fun _ => False) before after listed) :
      PlanAccounted top entries before after (.ok listed)
  | stopped {failure : Failure} (hgrows : Grows before after)
      (hfiles : ∀ steps, NewFileAt before after (top ++ steps) →
        StoppedBehind top entries after steps) :
      PlanAccounted top entries before after (.error failure)

theorem carryOut_accounts (h : Rooted d root top) {entries : List PlanEntry} {contents : Contents}
    (hinner : IsInnerPlan entries)
    (hnull : ∀ file ∈ plannedFiles entries, (root.extend file).hasNull = false)
    (hnodup : (plannedFiles entries).Nodup) {result : Except Failure (Ledger × Allowance)}
    {after : Disk} (hrun : (carryOut entries root contents .skip none).outcome d = (result, after))
    (hdeliberate : Deliberate result) :
    PlanAccounted top entries d after (result.map fun done => done.1.written) := by
  rcases carryOut_cases hrun with
    ⟨failure, hmake, rfl⟩ | ⟨made, middle, marked?, hmake, hwrite, rfl⟩
  · have hspec := makeMissing_spec h hinner.wanted hmake fun f hf =>
      hdeliberate f (by simpa using hf)
    exact .stopped hspec.adds.grows fun steps hnew =>
      absurd hnew (not_newFileAt_of_adds hspec.adds (fun _ _ => And.left) _)
  · have hspec := makeMissing_spec h hinner.wanted hmake (by simp [Deliberate])
    -- making directories brings no new file, so the files alone decide what is lost
    have hdirectories : ∀ place, ¬ NewFileAt d middle place :=
      not_newFileAt_of_adds hspec.adds fun _ _ => And.left
    have hroot := h.grows hspec.adds.grows
    have hfiles := writeFiles_accounts hroot hinner.files
      (hinner.hasParent hroot (hspec.present rfl)) hnull hwrite (Deliberate.of_map hdeliberate)
    cases hfiles with
    | all hfiles hlisted =>
        rename_i marks allowance
        have hwritten : (ledgerOf entries made (marks, allowance)).1.files =
            markedWritten marks := by
          rw [← filter_markOf? (by rwa [hfiles])]
          simp only [ledgerOf, hfiles]
        refine .all ?_
        change Accounts top _ d after (_ ++ (ledgerOf entries made (marks, allowance)).1.files)
        rw [hwritten]
        exact ((makeMissing_accounts h hinner.wanted hmake _).sublist List.filter_sublist
          fun _ => hdirectories _).trans hlisted fun _ _ => Iff.rfl
    | stopped hsplit hadds hmissing =>
        refine .stopped (hspec.adds.grows.trans hadds.grows) fun steps hnew =>
          ⟨_, _, _, hsplit, ?_, hmissing⟩
        rcases hnew.cases hadds.grows with ⟨hnew, -⟩ | ⟨⟨hnone, content, hfile⟩, -⟩
        · exact absurd hnew (hdirectories _)
        · obtain ⟨other, hmem, -, -, hplace, -⟩ := hadds.adds hnone hfile
          exact mem_placesOf.mpr ⟨other, hmem, (List.append_cancel_left hplace).symm⟩

end PackageScaffold
