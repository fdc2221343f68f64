import PackageScaffold.Proofs.Plan.Directories
import PackageScaffold.Proofs.Plan.Order
import PackageScaffold.Proofs.Project.Written

/-!
# What a creation changes, exactly

A creation is refused before anything is written, or it carries out its plan.  Without leave to
overwrite, all that is new afterwards is the root with what is above it and what the plan says; with
leave to overwrite, the files of the plan are as they should be and no other file is touched.

The directories of the plan are all made, and listed, only if none of them is there before.  Where
two dots in the path of the root lead back out of something inside it, that is made on the way, and
what is inside already may not have been seen.

* `create_of_obstacle`: a creation that is refused;
* `Phases`, `exists_phases`: the phases of a creation that came to its end;
* `Builds`, `IsVacant`: a project with what is new about it, and roots in which nothing is, not even
  on the way to them;
* `create_exact`: what a creation changes.
-/

namespace PackageScaffold

open Disk FileM

variable {d : Disk} {root : Path} {top : List String} {settings : Settings} {today : Date}
    {m : Model}
  {creation : Creation} {after : Disk}

/-! ## Refusals -/

/-- What stands in the way of a project keeps anything from being written. -/
theorem create_of_obstacle {obstacle : Obstacle} (h : m.obstacle? d = .ok (some obstacle))
    (settings : Settings) (today : Date) (allowance : Allowance) :
    (create settings today m allowance).outcome d = (.error (.occupied obstacle), d) := by
  unfold create
  rw [outcome_bind, outcome_inspect, h]
  rfl

theorem exists_look?_of_exists? {path : Path} (h : d.exists? path = .ok true) :
    ∃ tree, d.look? path = .ok (some tree) := by
  unfold exists? at h
  obtain ⟨found, hlook, hfound⟩ := bind_eq_ok h
  obtain ⟨tree, rfl⟩ := Option.isSome_iff_exists.mp (Except.ok.inj hfound)
  exact ⟨tree, hlook⟩

theorem obstacle?_of_file (hexists : d.exists? m.outputRoot = .ok true)
    (hfile : d.isDirectory m.outputRoot = .ok false) :
    m.obstacle? d = .ok (some (.rootNotDirectory m.outputRoot.text)) := by
  obtain ⟨tree, hlook⟩ := exists_look?_of_exists? hexists
  cases tree with
  | directory entries => simp [isDirectory, hlook, bind, Except.bind, pure, Except.pure,
      FileTree.isDirectory] at hfile
  | file content => simp [Model.obstacle?, hlook, bind, Except.bind, pure, Except.pure]

theorem obstacle?_of_entries (hforce : m.force = false) {names : List String}
    (hlist : d.list m.outputRoot = .ok names) (hnames : names ≠ []) :
    m.obstacle? d = .ok (some (.rootNotEmpty m.outputRoot.text)) := by
  unfold Disk.list at hlist
  split at hlist
  · simp at hlist
  · rename_i hnull
    cases hfind : d.find m.outputRoot with
    | error refusal => cases refusal <;> simp [hfind] at hlist
    | ok tree =>
        cases tree with
        | file content => simp [hfind] at hlist
        | directory entries =>
            have hentries : entries.isEmpty = false := by
              rw [hfind] at hlist
              cases entries with
              | nil =>
                  have hnil : names = [] := (Except.ok.inj hlist).symm.trans (by simp [Text.sort])
                  exact absurd hnil hnames
              | cons entry rest => rfl
            have hlook : d.look? m.outputRoot = .ok (some (.directory entries)) := by
              rw [look?, if_neg hnull, hfind]
            simp [Model.obstacle?, hlook, hforce, hentries, bind, Except.bind, pure, Except.pure]

/-! ## The phases of a creation -/

/-- The phases of a creation that came to its end: the root, the directories that were missing, and
the files. -/
structure Phases (settings : Settings) (today : Date) (m : Model) (before after : Disk)
    (creation : Creation) (contents : Contents) (made : List String) (middle last : Disk) : Prop where
  rendered : renderPlan settings.strictTemplates (m.layout today).plan = .ok contents
  passed : Adds (fun place item => item = .directory ∧ Passes before m.outputRoot place) before middle
  rooted : Rooted middle m.outputRoot (before.place m.outputRoot)
  making : (makeMissing m.outputRoot (wantedDirectories (m.layout today).plan)).outcome middle =
    (.ok made, last)
  makes : MakesMissing m.outputRoot (before.place m.outputRoot)
    (wantedDirectories (m.layout today).plan) middle last (.ok made)
  receives : Receives m.outputRoot contents last after (plannedFiles (m.layout today).plan)
  writable : ∀ file ∈ plannedFiles (m.layout today).plan, Writable m.outputRoot
    (if m.force then .overwrite else .fail) contents last file
  listed : creation = ⟨m.outputRoot, made.filter (plannedDirectories (m.layout today).plan).contains,
    plannedFiles (m.layout today).plan, false⟩

/-- A ledger lists all files if all of them were written. -/
theorem ledgerOf_written (entries : List PlanEntry) (made : List String) :
    (ledgerOf entries made (marksOf (fun _ => .write) (plannedFiles entries), none)).1 =
      { directories := made.filter (plannedDirectories entries).contains
        files := plannedFiles entries } := by
  have hmark : ∀ file ∈ plannedFiles entries, markOf? (marksOf (fun _ => .write)
      (plannedFiles entries)) file = some .written := fun file hfile => markOf?_marksOf hfile
  have hfiles : (plannedFiles entries).filter (fun file => markOf? (marksOf (fun _ => .write)
      (plannedFiles entries)) file == some .written) = plannedFiles entries :=
    List.filter_eq_self.mpr fun file hfile => by rw [hmark file hfile]; rfl
  have hskipped : (plannedFiles entries).filter (fun file => markOf? (marksOf (fun _ => .write)
      (plannedFiles entries)) file == some .skipped) = [] :=
    List.filter_eq_nil_iff.mpr fun file hfile => by rw [hmark file hfile]; decide
  simp only [ledgerOf, hfiles, hskipped, Allowance.isSpent]
  rfl

theorem exists_phases (hname : Name.isPackageName m.name = true)
    (honce : m.force = true ∨ (plannedFiles (m.layout today).plan).Nodup)
    (h : (create settings today m none).outcome d = (.ok creation, after)) :
    ∃ contents made middle last,
      Phases settings today m d after creation contents made middle last := by
  obtain ⟨contents, middle, done, hrendered, hpassed, hrooted, hcarry, hcreation⟩ :=
    rooted_of_create hname h
  have hinner := Layout.isInnerPlan_plan (l := m.layout today) hname
  obtain ⟨made, last, marked, hmake, hwrite, hdone⟩ := carryOut_eq_ok hcarry
  have hseparate : Separate m.outputRoot (if m.force then .overwrite else .fail) last
      (plannedFiles (m.layout today).plan) := by
    refine .of_inner hinner.files (eq_of_mem_plannedFiles_plan (l := m.layout today) hname) ?_
    exact honce.imp_left fun hforce => if_pos hforce
  obtain ⟨hreceives, hwritable, rfl⟩ := writeFiles_receives (by split <;> simp) hseparate hwrite
  refine ⟨contents, made, middle, last, hrendered, hpassed, hrooted, hmake,
    makeMissing_spec hrooted hinner.wanted hmake (by simp [Deliberate]), hreceives, hwritable, ?_⟩
  rw [hcreation, hdone, ledgerOf_written]

namespace Phases

variable {contents : Contents} {made : List String} {middle last : Disk}
  (h : Phases settings today m d after creation contents made middle last)

include h

theorem grows : Grows d last :=
  h.passed.grows.trans h.makes.adds.grows

theorem rooted_last : Rooted last m.outputRoot (d.place m.outputRoot) :=
  h.rooted.grows h.makes.adds.grows

/-- The places of the files. -/
theorem place_file (hname : Name.isPackageName m.name = true) {file : String}
    (hfile : file ∈ plannedFiles (m.layout today).plan) :
    last.place (m.outputRoot.extend file) =
      d.place m.outputRoot ++ (Path.ofString file).steps := by
  rw [place_extend ((Layout.isInnerPlan_plan (l := m.layout today) hname).files file hfile),
    h.rooted_last.eq_place]

/-- A file of the plan holds what it should. -/
theorem itemAt_file {file : String} (hfile : file ∈ plannedFiles (m.layout today).plan) :
    ∃ text, contents.lookup file = some text ∧
      after.itemAt (m.outputRoot.extend file) = .ok (.file (.text text)) :=
  h.receives.itemAt hfile (h.writable file hfile)

/-- A file that is not of the plan is as it was. -/
theorem item?_other_file (hname : Name.isPackageName m.name = true) {steps : List String}
    {content : Content} (hbefore : d.tree.item? steps = some (.file content))
    (hother : ∀ file ∈ plannedFiles (m.layout today).plan,
      steps ≠ d.place m.outputRoot ++ (Path.ofString file).steps) :
    after.tree.item? steps = some (.file content) := by
  rw [h.receives.others steps fun file hfile => ?_, h.grows.keeps hbefore]
  rw [h.place_file hname hfile]
  exact hother file hfile

/-- Without leave to overwrite, nothing stood in the place of a file. -/
theorem item?_free (hname : Name.isPackageName m.name = true) (hforce : m.force = false)
    {file : String} (hfile : file ∈ plannedFiles (m.layout today).plan) :
    last.tree.item? (d.place m.outputRoot ++ (Path.ofString file).steps) = none := by
  obtain ⟨written, hwrite⟩ := h.writable file hfile
  rw [hforce, writeOne] at hwrite
  cases hlookup : contents.lookup file with
  | none => simp [hlookup] at hwrite
  | some text =>
      rw [hlookup] at hwrite
      exact item?_of_writeFile h.rooted_last
        ((Layout.isInnerPlan_plan (l := m.layout today) hname).files file hfile) hwrite

/-- Without leave to overwrite, the files are new. -/
theorem adds_files (hname : Name.isPackageName m.name = true) (hforce : m.force = false) :
    Adds (NewFile (d.place m.outputRoot) contents (plannedFiles (m.layout today).plan)) last
      after := by
  refine (h.receives.adds fun file hfile => ?_).mono ?_
  · rw [h.place_file hname hfile]
    exact h.item?_free hname hforce hfile
  · rintro place item ⟨file, hfile, text, hlookup, hplace, hitem⟩
    exact ⟨file, hfile, text, hlookup, hplace.trans (h.place_file hname hfile), hitem⟩

end Phases

/-! ## What is new -/

/-- A project has been written below a root: everything that was there is as it was, the way to the
root leads through directories, each file of the plan is new and holds its content, and whatever
else is new is a directory that the path of the root passes or that is one of the plan. -/
structure Builds (root : Path) (entries : List PlanEntry) (contents : Contents) (before after : Disk) :
    Prop where
  grows : Grows before after
  passed : ∀ place, Passes before root place → after.tree.item? place = some .directory
  files : ∀ file ∈ plannedFiles entries,
    before.tree.item? (before.place root ++ (Path.ofString file).steps) = none ∧
      ∃ text, contents.lookup file = some text ∧
        after.itemAt (root.extend file) = .ok (.file (.text text))
  new : ∀ place item, before.tree.item? place = none → after.tree.item? place = some item →
    item = .directory ∧ (Passes before root place ∨ ∃ directory ∈ plannedDirectories entries,
      place = before.place root ++ (Path.ofString directory).steps) ∨
    NewFile (before.place root) contents (plannedFiles entries) place item

/-- The way to a directory leads through directories. -/
theorem Disk.Rooted.item?_of_passes (h : Rooted d root top) {place : List String}
    (hpasses : Passes d root place) : d.tree.item? place = some .directory := by
  obtain ⟨made, ⟨more, hmore⟩, rfl⟩ := hpasses
  cases more with
  | nil =>
      obtain rfl : made = root.steps := by rw [← hmore, List.append_nil]
      change d.tree.item? (d.place root) = _
      rw [← h.eq_place, h.isDirectory]
  | cons step more =>
      have hfront : made ++ [step] <+: root.steps := ⟨more, by rw [← hmore]; simp⟩
      have hway := follow_of_locate h.located
      exact isDirectory_of_follow hway hfront

theorem Phases.builds {contents : Contents} {made : List String} {middle last : Disk}
    (h : Phases settings today m d after creation contents made middle last)
    (hname : Name.isPackageName m.name = true) (hforce : m.force = false) :
    Builds m.outputRoot (m.layout today).plan contents d after where
  grows := h.grows.trans (h.adds_files hname hforce).grows
  passed place hpasses := by
    have hmiddle : Passes middle m.outputRoot place := hpasses.of_working h.passed.working.symm
    exact (h.makes.adds.grows.trans (h.adds_files hname hforce).grows).keeps
      (h.rooted.item?_of_passes hmiddle)
  files file hfile := by
    refine ⟨?_, h.itemAt_file hfile⟩
    have hfree := h.item?_free hname hforce hfile
    cases hbefore : d.tree.item? (d.place m.outputRoot ++ (Path.ofString file).steps) with
    | none => rfl
    | some item => simp [h.grows.keeps hbefore] at hfree
  new place item hnone hsome := by
    rcases (h.adds_files hname hforce).item?_cases hsome with hlast | ⟨-, hfile⟩
    swap
    · exact .inr hfile
    rcases h.makes.adds.item?_cases hlast with hmiddle |
      ⟨-, hitem, directory, hmem, steps, hsteps, hplace⟩
    · obtain ⟨hitem, hpasses⟩ := h.passed.adds hnone hmiddle
      exact .inl ⟨hitem, .inl hpasses⟩
    · -- what was made on the way to a directory of the plan is the root or a directory of the plan
      refine .inl ⟨hitem, ?_⟩
      by_cases hnil : steps = []
      · rw [hnil, List.append_nil] at hplace
        exact .inl (hplace ▸ Passes.self d m.outputRoot)
      · rw [Layout.wantedDirectories_plan (l := m.layout today) hname] at hmem
        obtain ⟨above, habove, hspells⟩ :=
          Layout.exists_plannedDirectory_plan (l := m.layout today) hname hmem hsteps hnil
        exact .inr ⟨above, habove, by rw [hspells.steps_eq, hplace]⟩

/-! ## Roots in which nothing is -/

/-- Nothing is inside the place that a path leads to, and the path does not pass through anything
inside. -/
structure Disk.IsVacant (disk : Disk) (root : Path) : Prop where
  empty : ∀ step more, disk.tree.item? (disk.place root ++ step :: more) = none
  direct : IsDirect disk root

/-- Without dots that lead back in its path, a root in which a creation sees nothing is vacant. -/
theorem isVacant_of_create (hforward : ".." ∉ m.outputRoot.steps) (hforce : m.force = false)
    (hnull : m.outputRoot.hasNull = false)
    (h : (create settings today m none).outcome d = (.ok creation, after)) :
    d.IsVacant m.outputRoot := by
  refine ⟨fun step more => ?_, isDirect_of_forward hforward⟩
  have hobstacle := obstacle?_of_create h
  unfold Model.obstacle? at hobstacle
  obtain ⟨found, hlook, hfound⟩ := bind_eq_ok hobstacle
  by_contra hsome
  -- nothing was at the root, or a directory without entries; a file would be an obstacle
  rcases found with _ | content | entries
  · have hexists : d.exists? m.outputRoot = .ok false := by
      simp [exists?, hlook, bind, Except.bind, pure, Except.pure]
    have hnone := item?_place_of_not_exists hforward hnull hexists
    rw [FileTree.item?_of_item?_append (List.cons_ne_nil step more) hsome] at hnone
    simp at hnone
  · simp [pure, Except.pure] at hfound
  · have hempty : entries = [] := by
      simpa [hforce, pure, Except.pure] using hfound
    have hfind : d.find m.outputRoot = .ok (.directory entries) := by
      rw [look?, hnull] at hlook
      simp only [Bool.false_eq_true, if_false] at hlook
      cases hfind : d.find m.outputRoot with
      | error refusal => cases refusal <;> simp [hfind] at hlook
      | ok tree => simpa [hfind] using hlook
    unfold find at hfind
    obtain ⟨place, hlocate, hget⟩ := bind_eq_ok hfind
    obtain rfl := eq_place_of_locate hlocate
    have hdirectory : d.tree.get? (d.place m.outputRoot) = some (.directory entries) := by
      cases hitem : d.tree.get? (d.place m.outputRoot) with
      | none => simp [hitem] at hget
      | some tree => simpa [hitem, pure, Except.pure] using hget
    exact FileTree.item?_next_ne_none more hsome
      ((FileTree.entries_eq_nil_iff hdirectory).mp hempty step)

/-- In a vacant root every directory of the plan is made, and all of them are listed in their
order. -/
theorem Phases.directories {contents : Contents} {made : List String} {middle last : Disk}
    (h : Phases settings today m d after creation contents made middle last)
    (hname : Name.isPackageName m.name = true) (hvacant : d.IsVacant m.outputRoot) :
    creation.directories = plannedDirectories (m.layout today).plan ∧
      ∀ directory ∈ plannedDirectories (m.layout today).plan,
        after.isDirectory (m.outputRoot.extend directory) = .ok true := by
  have hwanted := Layout.wantedDirectories_plan (l := m.layout today) hname
  have hinner := Layout.isInnerPlan_plan (l := m.layout today) hname
  have hempty : ∀ steps, steps ≠ [] → middle.tree.item? (d.place m.outputRoot ++ steps) = none := by
    intro steps hsteps
    obtain ⟨step, more, rfl⟩ := List.exists_cons_of_ne_nil hsteps
    rw [h.passed.item?_eq fun item hnew => hvacant.direct step more hnew.2, hvacant.empty]
  have hmade : made = wantedDirectories (m.layout today).plan :=
    makeMissing_fresh h.rooted hinner.wanted
      (fun directory hmem => hempty _ (hinner.wanted directory hmem).nonempty)
      (hwanted ▸ Layout.pairwise_plan (l := m.layout today) hname) h.making
  refine ⟨?_, fun directory hmem => ?_⟩
  · rw [h.listed, hmade, filter_wantedDirectories]
  · rw [← hwanted] at hmem
    have hsteps := (hinner.wanted directory hmem).nonempty
    obtain ⟨hnull, item, hitem⟩ := exists?_true_iff.mp (h.makes.present rfl directory hmem)
    have hplace := hitem
    rw [Path.extend_eq_below (hinner.wanted directory hmem)] at hplace
    have hfound := h.rooted_last.item?_of_itemAt (hinner.wanted directory hmem).forward hplace
    obtain rfl := (h.makes.adds.adds (hempty _ hsteps) hfound).1
    refine isDirectory_true_iff.mpr ⟨hnull, ?_⟩
    -- the files that are written later leave the directories where they are
    obtain ⟨place, hlocate, -⟩ := exists_locate_of_itemAt hitem
    rw [Path.extend_eq_below (hinner.wanted directory hmem)] at hlocate ⊢
    refine itemAt_of_locate (h.receives.locate hlocate (by simp) (by simp)) ?_
    rw [h.receives.item?_iff,
      h.rooted_last.eq_append_of_locate (hinner.wanted directory hmem).forward hlocate, hfound]

/-! ## A package -/

/-- A package, to be written below a root. -/
def smallPackage (root : String) (force : Bool) : Model where
  variety := .package
  name := "b"
  description := "d"
  author := "Your Name"
  organization := "a.b"
  outputRoot := Path.ofString root
  force := force

/-- The directories of the package. -/
def smallDirectories : List String :=
  [".github", "example", "lib", "test", ".github/workflows", "lib/src"]

/-- A day on which the package is created. -/
def smallDay : Date := ⟨2024, 3, 5⟩

/-- The plan of the package, with its directories written out. -/
theorem plan_smallPackage (root : String) (force : Bool) :
    ((smallPackage root force).layout smallDay).plan =
      smallDirectories.map directoryEntry ++ ((smallPackage root force).layout smallDay).files := by
  have hdirectories : List.insertionSort (fun a b => shallowFirst a b = true)
      ((((smallPackage "" false).layout smallDay).files.map PlanEntry.path ++
        ((smallPackage "" false).layout smallDay).furtherDirectories.map fun d =>
          withoutFinalSlashes d ++ "/_").flatMap parentsOf).eraseDups = smallDirectories := by
    decide
  have hfiles : ((smallPackage root force).layout smallDay).files.map PlanEntry.path =
      ((smallPackage "" false).layout smallDay).files.map PlanEntry.path := rfl
  have hfurther : ((smallPackage root force).layout smallDay).furtherDirectories =
      ((smallPackage "" false).layout smallDay).furtherDirectories := rfl
  rw [Layout.plan_eq, withDirectories, directoriesFor_eq_insertionSort, hfiles, hfurther,
    hdirectories]

theorem directories_smallPackage (root : String) (force : Bool) :
    plannedDirectories ((smallPackage root force).layout smallDay).plan = smallDirectories := by
  rw [plan_smallPackage]
  rfl

/-- A disk with entries in the directory that the package is to be written to. -/
def smallDisk (entries : List (String × FileTree)) : Disk where
  tree := .directory [("b", .directory entries)]

/-- Where nothing is, the package is created. -/
theorem isOk_create_smallPackage :
    ((create .standard smallDay (smallPackage "b" false) none).outcome {}).1.isOk = true := by
  unfold create
  rw [plan_smallPackage]
  decide +kernel

/-- With leave to overwrite, the package is created beside other files. -/
theorem isOk_create_smallPackage_beside :
    ((create .standard smallDay (smallPackage "b" true) none).outcome
      (smallDisk [("LICENSE", .file (.text "x")), ("z", .file (.text "y"))])).1.isOk = true := by
  unfold create
  rw [plan_smallPackage]
  decide +kernel

/-! ## Creations -/

/-- What a creation changes.  It is refused, and nothing is changed, where something other than a
directory stands or, without leave to overwrite, a directory that is not empty.  Without leave to
overwrite, a creation that comes to its end has built the project and lists its files, and in a
vacant root, as every root is whose path never leads back, it has made and lists its directories.
With leave to overwrite, it has written every file of the plan and no other. -/
theorem create_exact (hname : Name.isPackageName m.name = true) (settings : Settings) (today : Date)
    (d : Disk) :
    (d.exists? m.outputRoot = .ok true → d.isDirectory m.outputRoot = .ok false →
      (create settings today m none).outcome d =
        (.error (.occupied (.rootNotDirectory m.outputRoot.text)), d)) ∧
    (m.force = false → ∀ names, d.list m.outputRoot = .ok names → names ≠ [] →
      (create settings today m none).outcome d =
        (.error (.occupied (.rootNotEmpty m.outputRoot.text)), d)) ∧
    ∀ creation after, (create settings today m none).outcome d = (.ok creation, after) →
      ∃ contents, renderPlan settings.strictTemplates (m.layout today).plan = .ok contents ∧
        (m.force = false →
          Builds m.outputRoot (m.layout today).plan contents d after ∧
          creation.files = plannedFiles (m.layout today).plan ∧
          (".." ∉ m.outputRoot.steps ∨ d.IsVacant m.outputRoot →
            creation.directories = plannedDirectories (m.layout today).plan ∧
            ∀ directory ∈ plannedDirectories (m.layout today).plan,
              after.isDirectory (m.outputRoot.extend directory) = .ok true)) ∧
        (m.force = true →
          (∀ file ∈ plannedFiles (m.layout today).plan, ∃ text, contents.lookup file = some text ∧
            after.itemAt (m.outputRoot.extend file) = .ok (.file (.text text))) ∧
          ∀ steps content, d.tree.item? steps = some (.file content) →
            (∀ file ∈ plannedFiles (m.layout today).plan,
              steps ≠ d.place m.outputRoot ++ (Path.ofString file).steps) →
            after.tree.item? steps = some (.file content)) := by
  refine ⟨fun hexists hfile => ?_, fun hforce names hlist hnames => ?_, fun creation after h => ?_⟩
  · exact create_of_obstacle (obstacle?_of_file hexists hfile) settings today none
  · exact create_of_obstacle (obstacle?_of_entries hforce hlist hnames) settings today none
  · have honce : m.force = true ∨ (plannedFiles (m.layout today).plan).Nodup := by
      cases hforce : m.force with
      | true => exact .inl rfl
      | false => exact .inr (create_written hname hforce h).1
    obtain ⟨contents, made, middle, last, hphases⟩ := exists_phases hname honce h
    refine ⟨contents, hphases.rendered, fun hforce => ⟨hphases.builds hname hforce, ?_, ?_⟩,
      fun _ => ⟨fun file hfile => hphases.itemAt_file hfile, fun steps content hbefore hother =>
        hphases.item?_other_file hname hbefore hother⟩⟩
    · rw [hphases.listed]
    · intro hroot
      refine hphases.directories hname (hroot.elim (fun hforward => ?_) id)
      exact isVacant_of_create hforward hforce hphases.rooted.noNull h

theorem create_exact_smallPackage :
    Name.isPackageName (smallPackage "b" false).name = true ∧
    (create .standard smallDay (smallPackage "b" false) none).outcome
        { tree := .directory [("b", .file (.text "x"))] } =
      (.error (.occupied (.rootNotDirectory "b")), { tree := .directory [("b", .file (.text "x"))] }) ∧
    (create .standard smallDay (smallPackage "b" false) none).outcome
        (smallDisk [("z", .file (.text "y"))]) =
      (.error (.occupied (.rootNotEmpty "b")), smallDisk [("z", .file (.text "y"))]) ∧
    (∃ creation after contents,
      (create .standard smallDay (smallPackage "b" false) none).outcome {} = (.ok creation, after) ∧
      Builds (Path.ofString "b") ((smallPackage "b" false).layout smallDay).plan contents {} after ∧
      creation.directories = plannedDirectories ((smallPackage "b" false).layout smallDay).plan) ∧
    ∃ creation after, (create .standard smallDay (smallPackage "b" true) none).outcome
        (smallDisk [("LICENSE", .file (.text "x")), ("z", .file (.text "y"))]) = (.ok creation, after) ∧
      after.tree.item? ["b", "z"] = some (.file (.text "y")) := by
  have hname : Name.isPackageName "b" = true := by decide
  have hexact := fun force => create_exact (m := smallPackage "b" force) hname .standard smallDay
  have hlist : (smallDisk [("z", .file (.text "y"))]).list (Path.ofString "b") = .ok ["z"] :=
    congrArg Except.ok (List.mergeSort_singleton "z")
  refine ⟨hname, (hexact false _).1 (by decide) (by decide),
    (hexact false _).2.1 rfl ["z"] hlist (by decide), ?_, ?_⟩
  · obtain ⟨creation, after, hcreate⟩ := exists_outcome_ok isOk_create_smallPackage
    obtain ⟨contents, -, hfresh, -⟩ := (hexact false {}).2.2 creation after hcreate
    obtain ⟨hbuilds, -, hdirectories⟩ := hfresh rfl
    exact ⟨creation, after, contents, hcreate, hbuilds, (hdirectories (.inl (by decide))).1⟩
  · have hother : ∀ file ∈ plannedFiles ((smallPackage "b" true).layout smallDay).plan,
        ["b", "z"] ≠ ["b"] ++ (Path.ofString file).steps := by
      rw [plan_smallPackage]
      decide
    obtain ⟨creation, after, hcreate⟩ := exists_outcome_ok isOk_create_smallPackage_beside
    obtain ⟨contents, -, -, hforced⟩ := (hexact true _).2.2 creation after hcreate
    exact ⟨creation, after, hcreate,
      (hforced rfl).2 ["b", "z"] (.text "y") (by decide) hother⟩

/-- Where the path of the root leads back out of a directory of the plan, that is made with the
root, and the creation does not list it. -/
theorem create_unlisted_through_itself : ∃ creation after,
    Name.isPackageName (smallPackage "b/lib/.." false).name = true ∧
    (smallPackage "b/lib/.." false).force = false ∧
    (create .standard smallDay (smallPackage "b/lib/.." false) none).outcome {} =
      (.ok creation, after) ∧
    "lib" ∈ plannedDirectories ((smallPackage "b/lib/.." false).layout smallDay).plan ∧
    "lib" ∉ creation.directories := by
  have hrun : ((create .standard smallDay (smallPackage "b/lib/.." false) none).outcome {}).1.map
      Creation.directories = .ok [".github", "example", "test", ".github/workflows",
        "lib/src"] := by
    unfold create
    rw [plan_smallPackage]
    decide +kernel
  obtain ⟨creation, hcreation, hlisted⟩ := map_eq_ok hrun
  refine ⟨creation, _, by decide, rfl, Prod.ext hcreation rfl, ?_, ?_⟩
  · rw [directories_smallPackage]
    decide
  · rw [hlisted]
    decide

end PackageScaffold
