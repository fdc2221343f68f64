import PackageScaffold.Proofs.Plan.Accounting
import PackageScaffold.Proofs.Review.NullFree
import PackageScaffold.Proofs.Review.Run

/-!
# What a report accounts for

A review that mends reports what it has written.  Everything on that list is new, and every new file
is on it, but for one: a repair that was stopped reports nothing, and that of the public library
writes two files.  If the first of them was written and the second was refused, the first one is not
on the list, and the reason stands among the errors.

* `Fix.stopped`: no other repair leaves a file behind when it is stopped;
* `missing_of_stuck`: what was refused to it stays missing, whatever the repairs behind it do;
* `repairAll_accounts`: the repairs in turn;
* `review_accounts`: a review.
-/

namespace PackageScaffold

open Disk FileM

variable {settings : Settings} {now : Moment} {strict : Bool} {root : Path} {d d₁ : Disk}
  {s : Subject} {top : List String} {path : String} {entries : List PlanEntry}

/-! ## The files of a repair -/

namespace Subject

/-- Where the public library of a package stands. -/
def libraryPlace (s : Subject) : List String :=
  ["lib", s.layout.model.name ++ ".dart"]

/-- Where the library stands that the public one exports. -/
def basePlace (s : Subject) : List String :=
  ["lib", "src", s.layout.model.name ++ "_base.dart"]

end Subject

theorem plannedFiles_library (l : Layout) : plannedFiles l.library =
    [Layout.libraryPath l.model, "lib/src/" ++ l.model.name ++ "_base.dart"] := by
  simp [Layout.library]

theorem plannedDirectories_library (l : Layout) : plannedDirectories l.library = [] := by
  simp [Layout.library]

/-- The repair of the library writes two files, and every other one writes at most one. -/
theorem Fix.library_or_single (h : Fix s d path entries) :
    (path = Layout.libraryPath s.layout.model ∧ entries = s.layout.library) ∨
      (plannedFiles entries).length ≤ 1 := by
  cases h with
  | library hmissing => exact .inl ⟨rfl, rfl⟩
  | document hdocument hmissing => exact .inr (by simp)
  | sources hmissing => exact .inr (by simp [directoryEntry_lib])
  | tests hnamed hmissing => exact .inr (by simp [directoryEntry_test, Layout.test])
  | part hentry hmissing =>
      rcases hentry with rfl | rfl
      · exact .inr (by simp [Layout.platformInterface])
      · exact .inr (by simp [Layout.methodChannel])
  | native platform hmissing => exact .inr (by simp [Layout.pluginStub])

section Sound

variable (hs : s.Sound)

include hs

theorem steps_libraryPlace :
    (Path.ofString (Layout.libraryPath s.layout.model)).steps = s.libraryPlace :=
  Layout.steps_libraryPath hs.named

theorem steps_basePlace :
    (Path.ofString ("lib/src/" ++ s.layout.model.name ++ "_base.dart")).steps = s.basePlace :=
  Layout.steps_source hs.named "_base.dart" (by decide) (by decide)

/-- Only one repair plans the libraries. -/
theorem Fix.library_of_planned (h : Fix s d path entries) {planned : String}
    (hmem : planned ∈ plannedDirectories entries ++ plannedFiles entries)
    (hsteps : (Path.ofString planned).steps = s.libraryPlace ∨
      (Path.ofString planned).steps = s.basePlace) :
    path = Layout.libraryPath s.layout.model ∧ entries = s.layout.library := by
  -- the places of the libraries are told from the others by their directory and their endings
  have hending : ∀ ending : String, ".dart" ≠ ending → "_base.dart" ≠ ending →
      ∀ first more, (Path.ofString planned).steps = first :: more →
        more ≠ [s.layout.model.name ++ ending] ∧ more ≠ ["src", s.layout.model.name ++ ending] := by
    rintro ending hlibrary hbase first more heq
    rw [heq, Subject.libraryPlace, Subject.basePlace] at hsteps
    rcases hsteps with hsteps | hsteps <;> obtain ⟨-, rfl⟩ := List.cons.inj hsteps <;>
      simp [hlibrary, hbase]
  have hfirst : ∀ first more, (Path.ofString planned).steps = first :: more →
      first = "lib" ∧ more ≠ [] := by
    rintro first more heq
    rw [heq, Subject.libraryPlace, Subject.basePlace] at hsteps
    rcases hsteps with hsteps | hsteps <;> obtain ⟨rfl, rfl⟩ := List.cons.inj hsteps <;> simp
  cases h with
  | library hmissing => exact ⟨rfl, rfl⟩
  | document hdocument hmissing =>
      obtain rfl : planned = path := by simpa using hmem
      exact absurd rfl (hfirst _ _ (steps_document hdocument).1).2
  | sources hmissing =>
      obtain rfl : planned = "lib" := by simpa [directoryEntry_lib] using hmem
      exact absurd rfl (hfirst _ _ (Path.steps_of_isStep (by decide))).2
  | tests hnamed hmissing =>
      obtain rfl | rfl : planned = "test" ∨ planned = "test/" ++ s.layout.model.name ++
          "_test.dart" := by
        simpa [directoryEntry_test, Layout.test] using hmem
      · exact absurd rfl (hfirst _ _ (Path.steps_of_isStep (by decide))).2
      · exact absurd (hfirst _ _ (Layout.steps_testPath hs.named)).1 (by decide)
  | part hentry hmissing =>
      rcases hentry with rfl | rfl
      · obtain rfl : planned = "lib/src/" ++ s.layout.model.name ++ "_platform_interface.dart" := by
          simpa [Layout.platformInterface] using hmem
        exact absurd rfl (hending _ (by decide) (by decide) _ _
          (Layout.steps_source hs.named _ (by decide) (by decide))).2
      · obtain rfl : planned = "lib/src/" ++ s.layout.model.name ++ "_method_channel.dart" := by
          simpa [Layout.methodChannel] using hmem
        exact absurd rfl (hending _ (by decide) (by decide) _ _
          (Layout.steps_source hs.named _ (by decide) (by decide))).2
  | native platform hmissing =>
      obtain rfl : planned = Layout.pluginStubPath s.layout.model platform := by
        simpa [Layout.pluginStub] using hmem
      by_cases hweb : platform = .web
      · subst hweb
        exact absurd rfl (hending _ (by decide) (by decide) _ _ (Layout.steps_webPath hs.named)).1
      · obtain ⟨more, -, hsteps⟩ := Layout.steps_pluginStubPath (m := s.layout.model) hweb
        exact absurd (hfirst _ _ hsteps).1 (Added.platform_ne_lib platform)

/-- Of all repairs, only that of the library can be stopped behind a file that it wrote. -/
theorem Fix.stopped (h : Fix s d path entries) {disk : Disk} {steps : List String}
    (hstopped : StoppedBehind top entries disk steps) :
    path = Layout.libraryPath s.layout.model ∧ entries = s.layout.library ∧
      steps = s.libraryPlace ∧ disk.tree.item? (top ++ s.basePlace) = none := by
  obtain ⟨done, file, rest, hfiles, hmem, hmissing⟩ := hstopped
  obtain ⟨first, more, rfl⟩ := List.exists_cons_of_ne_nil (show done ≠ [] by
    rintro rfl
    simp [placesOf] at hmem)
  rcases h.library_or_single with ⟨rfl, rfl⟩ | hsingle
  · rw [plannedFiles_library] at hfiles
    obtain ⟨rfl, hmore⟩ := List.cons.inj hfiles
    cases more with
    | cons second more => simp at hmore
    | nil =>
        obtain ⟨rfl, rfl⟩ := List.cons.inj hmore
        rw [steps_basePlace hs] at hmissing
        exact ⟨rfl, rfl, by simpa [placesOf, steps_libraryPlace hs] using hmem, hmissing⟩
  · rw [hfiles] at hsingle
    simp at hsingle

theorem Fix.nodup_plannedFiles (h : Fix s d path entries) : (plannedFiles entries).Nodup := by
  rcases h.library_or_single with ⟨-, rfl⟩ | hsingle
  · rw [plannedFiles_library]
    have hne : Layout.libraryPath s.layout.model ≠ "lib/src/" ++ s.layout.model.name ++
        "_base.dart" := by
      intro heq
      have hsteps := congrArg (fun path => (Path.ofString path).steps) heq
      simp only [steps_libraryPlace hs, steps_basePlace hs] at hsteps
      simp [Subject.libraryPlace, Subject.basePlace] at hsteps
    simpa using hne
  · match hfiles : plannedFiles entries with
    | [] => simp
    | [file] => simp
    | first :: second :: more => simp [hfiles] at hsingle

/-- A new file at one of the two places comes from that repair. -/
theorem Fix.library_of_newFileAt (h : Fix s d path entries) {before after : Disk}
    (hadds : Adds (NewMended settings top entries) before after) {steps : List String}
    (hnew : NewFileAt before after (top ++ steps))
    (hsteps : steps = s.libraryPlace ∨ steps = s.basePlace) :
    path = Layout.libraryPath s.layout.model ∧ entries = s.layout.library := by
  obtain ⟨hnone, content, hfile⟩ := hnew
  obtain ⟨contents, -, hplanned⟩ := hadds.adds hnone hfile
  rcases hplanned.cases (h.isInnerPlan hs) with ⟨hitem, -⟩ | ⟨file, hmem, -, -, hplace, -⟩
  · simp at hitem
  · rw [List.append_cancel_left hplace] at hsteps
    exact h.library_of_planned hs (List.mem_append_right _ hmem) hsteps

/-! ## Repairs in turn -/

/-- What was refused to the repair of the library stays missing if the repair is stuck. -/
theorem missing_of_stuck (h : Rooted d root top) {seen : Disk}
    {repairs : List (String × List PlanEntry)}
    (hfixes : ∀ repair ∈ repairs, Fix s seen repair.1 repair.2)
    (hstuck : ∀ later, Grows d later → ∃ result,
      (repair settings root s.layout.library).outcome later = (result, later))
    (hmissing : d.tree.item? (top ++ s.basePlace) = none) {log log' : RepairLog} {after : Disk}
    (hrun : (repairAll settings root log repairs).outcome d = (.ok log', after)) :
    after.tree.item? (top ++ s.basePlace) = none := by
  induction repairs generalizing d log with
  | nil =>
      obtain ⟨-, rfl⟩ := Prod.mk.injEq .. ▸ hrun
      exact hmissing
  | cons first rest ih =>
      obtain ⟨subject, entries⟩ := first
      obtain ⟨hfix, hrest⟩ := List.forall_mem_cons.mp hfixes
      obtain ⟨result, middle, hrepair, hdeliberate, hmore⟩ := repairAll_cons hrun
      have hspec := repair_spec h (hfix.isInnerPlan hs) hrepair hdeliberate
      have hgrows := hspec.adds.grows
      refine ih (h.grows hgrows) hrest (fun later hlater => hstuck later (hgrows.trans hlater))
        ?_ hmore
      cases hmiddle : middle.tree.item? (top ++ s.basePlace) with
      | none => rfl
      | some item =>
          exfalso
          obtain ⟨contents, hcontents, hplanned⟩ := hspec.adds.adds hmissing hmiddle
          obtain ⟨steps, hplace, hadded⟩ := hfix.added hs hcontents hplanned
          obtain rfl := List.append_cancel_left hplace
          obtain ⟨-, content, rfl⟩ :=
            (hadded.resolve_left (by simp [Subject.basePlace])).file_of_source
          obtain ⟨-, rfl⟩ := hfix.library_of_newFileAt hs hspec.adds ⟨hmissing, content, hmiddle⟩
            (.inr rfl)
          obtain ⟨result', hsame⟩ := hstuck d (.refl _ d)
          obtain ⟨-, rfl⟩ := Prod.mk.injEq .. ▸ hsame.symm.trans hrepair
          simp [hmissing] at hmiddle

variable (hvalid : s.layout.model.IsValid)

include hvalid

/-- What a repair writes is accounted for. -/
theorem repair_accounts (h : Rooted d root top) {seen : Disk} (hfix : Fix s seen path entries)
    {result : Except Failure (List String)} {after : Disk}
    (hrun : (repair settings root entries).outcome d = (result, after))
    (hdeliberate : Deliberate result) : PlanAccounted top entries d after result := by
  rcases repair_cases hrun with ⟨fault, -, rfl, rfl⟩ | ⟨contents, done?, -, hcarry, rfl⟩
  · refine .stopped (.refl _ _) ?_
    rintro steps ⟨hnone, content, hfile⟩
    simp [hnone] at hfile
  · refine carryOut_accounts h (hfix.isInnerPlan hs) (fun file hmem => ?_)
      (hfix.nodup_plannedFiles hs) hcarry (Deliberate.of_map hdeliberate)
    exact Path.hasNull_extend h.noNull
      (hfix.null_not_mem hvalid _ (List.mem_append_right _ hmem))

omit hvalid

/-- The public library was written, the one that it exports is missing, and the report says why. -/
structure LibraryCutShort (s : Subject) (top : List String) (disk : Disk) (errors steps : List String) :
    Prop where
  place : steps = s.libraryPlace
  missing : disk.tree.item? (top ++ s.basePlace) = none
  noted : ∃ failure : Failure, Layout.libraryPath s.layout.model ++ ": " ++ failure.message ∈ errors

/-- A repair that listed what it wrote has not been cut short. -/
theorem not_libraryCutShort (h : Rooted d root top) {seen : Disk} (hfix : Fix s seen path entries)
    {listed : List String} {middle after : Disk} (hgrows : Grows middle after)
    (hrepaired : Repaired settings root top entries d middle (.ok listed)) {steps : List String}
    (hnew : NewFileAt d middle (top ++ steps)) (errors : List String) :
    ¬ LibraryCutShort s top after errors steps := by
  rintro ⟨rfl, hmissing, -⟩
  obtain ⟨-, rfl⟩ := hfix.library_of_newFileAt hs hrepaired.adds hnew (.inl rfl)
  have hbase := hrepaired.present rfl ("lib/src/" ++ s.layout.model.name ++ "_base.dart")
    (by simp [plannedFiles_library])
  have hinner := (hfix.isInnerPlan hs).files ("lib/src/" ++ s.layout.model.name ++ "_base.dart")
    (by simp [plannedFiles_library])
  have hthere := ((h.grows hrepaired.adds.grows).grows hgrows).item?_of_exists hinner
    (exists?_true_of_grows hbase hgrows)
  rw [steps_basePlace hs] at hthere
  exact hthere hmissing

/-- A repair that was stopped behind a file is cut short for good, whatever the repairs behind it
do. -/
theorem libraryCutShort_of_stopped (h : Rooted d root top) {seen : Disk}
    {repairs : List (String × List PlanEntry)} (hfix : Fix s seen path entries)
    (hfixes : ∀ repair ∈ repairs, Fix s seen repair.1 repair.2) {failure : Failure} {middle : Disk}
    (hrepaired : Repaired settings root top entries d middle (.error failure)) {steps : List String}
    (hnew : NewFileAt d middle (top ++ steps)) (hstopped : StoppedBehind top entries middle steps)
    {log log' : RepairLog} {after : Disk}
    (hrun : (repairAll settings root (log.note path (.error failure)) repairs).outcome middle =
      (.ok log', after)) : LibraryCutShort s top after log'.errors steps := by
  obtain ⟨rfl, rfl, rfl, hmissing⟩ := hfix.stopped hs hstopped
  obtain ⟨-, content, hfile⟩ := hnew
  have hmiddle := h.grows hrepaired.adds.grows
  -- the public library is there for good, so that later runs come to the same obstacle
  have hstuck : ∀ later, Grows middle later → ∃ result,
      (repair settings root s.layout.library).outcome later = (result, later) := by
    intro later hgrows
    obtain ⟨result, hagain, -⟩ := hrepaired.again later hgrows fun file hmem hthere => by
      obtain rfl : file = Layout.libraryPath s.layout.model := by
        simpa [plannedFiles_library] using hmem
      have hinner := (hfix.isInnerPlan hs).files (Layout.libraryPath s.layout.model)
        (by simp [plannedFiles_library])
      rw [Path.extend_eq_below hinner] at hthere ⊢
      obtain ⟨hnull, item, hitem⟩ := exists?_true_iff.mp hthere
      rw [← steps_libraryPlace hs] at hfile
      exact exists?_true_iff.mpr ⟨hnull, _, itemAt_of_item? hmiddle hgrows hinner.forward
        hfile hitem⟩
    exact ⟨result, hagain⟩
  refine ⟨rfl, missing_of_stuck hs hmiddle hfixes hstuck hmissing hrun, failure, ?_⟩
  rw [errors_of_repairAll hrun]
  simp [RepairLog.note]

end Sound

/-- Paths that are not on the list of what was written are appended to it. -/
theorem RepairLog.written_addWritten {paths : List String} (hnodup : paths.Nodup) {log : RepairLog}
    (hnew : ∀ path ∈ paths, path ∉ log.written) :
    (log.addWritten paths).written = log.written ++ paths := by
  induction paths generalizing log with
  | nil => simp [addWritten]
  | cons path rest ih =>
      obtain ⟨hfirst, hrest⟩ := List.forall_mem_cons.mp hnew
      obtain ⟨hnot, hnodup⟩ := List.nodup_cons.mp hnodup
      have hstep : log.addWritten (path :: rest) =
          ({ log with written := log.written ++ [path] } : RepairLog).addWritten rest := by
        simp [addWritten, hfirst]
      rw [hstep, ih hnodup fun other hother => ?_]
      · simp
      · rintro hmem
        rcases List.mem_append.mp hmem with hmem | hmem
        · exact hrest other hother hmem
        · obtain rfl := List.mem_singleton.mp hmem
          exact hnot hother

/-- What repairs write is listed behind what was listed before. -/
theorem repairAll_accounts (hs : s.Sound) (hvalid : s.layout.model.IsValid) (h : Rooted d root top)
    {seen : Disk} {repairs : List (String × List PlanEntry)}
    (hfixes : ∀ repair ∈ repairs, Fix s seen repair.1 repair.2) {log log' : RepairLog}
    {after : Disk}
    (hlisted : ∀ steps ∈ placesOf log.written, d.tree.item? (top ++ steps) ≠ none)
    (hrun : (repairAll settings root log repairs).outcome d = (.ok log', after)) :
    ∃ listed, log'.written = log.written ++ listed ∧
      Accounts top (LibraryCutShort s top after log'.errors) d after listed := by
  induction repairs generalizing d log with
  | nil =>
      obtain ⟨hlog, rfl⟩ := Prod.mk.injEq .. ▸ hrun
      obtain rfl := Except.ok.inj hlog
      exact ⟨[], (List.append_nil _).symm, .refl _ d⟩
  | cons first rest ih =>
      obtain ⟨subject, entries⟩ := first
      obtain ⟨hfix, hrest⟩ := List.forall_mem_cons.mp hfixes
      obtain ⟨result, middle, hrepair, hdeliberate, hmore⟩ := repairAll_cons hrun
      have hspec := repair_spec h (hfix.isInnerPlan hs) hrepair hdeliberate
      have hmiddle := h.grows hspec.adds.grows
      -- what is on the list is there, so that nothing that is new is on it yet
      have hkept : ∀ steps ∈ placesOf log.written, middle.tree.item? (top ++ steps) ≠ none := by
        intro steps hmem
        obtain ⟨item, hitem⟩ := Option.ne_none_iff_exists'.mp (hlisted steps hmem)
        simp [hspec.adds.keeps hitem]
      have hafter : Grows middle after :=
        (repairAll_spec hmiddle (fun repair hmem => (hrest repair hmem).isInnerPlan hs)
          hmore).1.grows
      cases repair_accounts hs hvalid h hfix hrepair hdeliberate with
      | all haccounts =>
          rename_i written
          have hnodup : written.Nodup :=
            (List.pairwise_map.mp haccounts.once).imp fun hne heq => hne (by rw [heq])
          have hnote : (log.note subject (.ok written)).written = log.written ++ written := by
            refine RepairLog.written_addWritten hnodup fun path hmem hold => ?_
            exact hlisted _ (List.mem_map_of_mem hold)
              (haccounts.fresh _ (List.mem_map_of_mem hmem))
          obtain ⟨listed, hwritten, hmoreAccounts⟩ := ih hmiddle hrest (by
            rw [hnote, placesOf, List.map_append]
            exact List.forall_mem_append.mpr ⟨hkept, haccounts.there⟩) hmore
          refine ⟨written ++ listed, by rw [hwritten, hnote, List.append_assoc],
            haccounts.trans hmoreAccounts fun steps hnew => ?_⟩
          simp [not_libraryCutShort hs h hfix hafter hspec hnew]
      | stopped hgrows hfiles =>
          rename_i failure
          have hkept' : ∀ steps ∈ placesOf (log.note subject (.error failure)).written,
              middle.tree.item? (top ++ steps) ≠ none := hkept
          obtain ⟨listed, hwritten, hmoreAccounts⟩ := ih hmiddle hrest hkept' hmore
          have haccounts : Accounts top (fun _ => True) d middle [] :=
            .nil hgrows fun _ _ => trivial
          refine ⟨listed, hwritten, haccounts.trans hmoreAccounts fun steps hnew => ?_⟩
          simp [libraryCutShort_of_stopped hs h hfix hrest hspec hnew (hfiles steps hnew) hmore]

/-! ## Reviews -/

/-- What a review lists as written is new, each once, and every new file is on the list, but for the
public library if the one that it exports was refused: then the report has the reason instead. -/
theorem review_accounts {report : Report}
    (h : (review settings now strict true root).outcome d = (.ok report, d₁)) :
    ∃ top s, Rooted d root top ∧ Subject.ofDisk settings now.date strict root d = .ok s ∧
      Accounts top (LibraryCutShort s top d₁ report.fixErrors) d d₁ report.filesWritten := by
  obtain ⟨top, s, log, hrooted, hsubject, rfl, hrun⟩ := subject_of_review h
  have hs : s.Sound := Subject.sound_of_ofDisk hsubject
  obtain ⟨listed, hwritten, haccounts⟩ := repairAll_accounts hs (Subject.isValid_of_ofDisk hsubject)
    hrooted (fun repair hmem => fix_of_mem_repairs hs hmem) (by simp [placesOf]) hrun
  rw [List.nil_append] at hwritten
  refine ⟨top, s, hrooted, hsubject, ?_⟩
  change Accounts top (LibraryCutShort s top d₁ log.errors) d d₁ log.written
  rwa [hwritten]

/-- A package whose public library is missing, with a file in the place of the directory of the one
that it exports. -/
def cutShortDisk : Disk :=
  { tree := .directory [("x", .directory [
      ("pubspec.yaml", .file (.text "name: x\n")), ("README.md", .file (.text "# X")),
      ("CHANGELOG.md", .file (.text "")), ("LICENSE", .file (.text "")),
      ("analysis_options.yaml", .file (.text "")), ("test", .directory []),
      ("lib", .directory [("src", .file (.text ""))])])] }

/-- Its only repair is that of the library, which is refused the second of its two files. -/
theorem exists_writeFiles_cutShort :
    ∃ s contents after,
      Subject.ofDisk .standard ⟨2024, 3, 5⟩ false (Path.ofString "x") cutShortDisk = .ok s ∧
      repairsOf s cutShortDisk = [("lib/x.dart", s.layout.library)] ∧
      plannedFiles s.layout.library = ["lib/x.dart", "lib/src/x_base.dart"] ∧
      renderPlan Settings.standard.strictTemplates s.layout.library = .ok contents ∧
      (writeFiles (Path.ofString "x") .skip contents none
          ["lib/x.dart", "lib/src/x_base.dart"]).outcome cutShortDisk =
        (.error (.refused "x/lib/src/x_base.dart" "Not a directory"), after) ∧
      NewFileAt cutShortDisk after ["x", "lib", "x.dart"] := by
  have heval : (Subject.ofDisk .standard ⟨2024, 3, 5⟩ false (Path.ofString "x") cutShortDisk).map
      (fun s => ((repairsOf s cutShortDisk).map fun named => (named.1, plannedFiles named.2),
        (renderPlan Settings.standard.strictTemplates s.layout.library).toOption.map fun contents =>
          let run := (writeFiles (Path.ofString "x") .skip contents none
            ["lib/x.dart", "lib/src/x_base.dart"]).outcome cutShortDisk
          (run.1.map (fun _ => ()),
            (run.2.tree.item? ["x", "lib", "x.dart"]).map (· != .directory)))) =
      .ok ([("lib/x.dart", ["lib/x.dart", "lib/src/x_base.dart"])],
        some (.error (.refused "x/lib/src/x_base.dart" "Not a directory"), some true)) := by
    decide +kernel
  have hfree : cutShortDisk.tree.item? ["x", "lib", "x.dart"] = none := by decide +kernel
  obtain ⟨s, hsubject⟩ : ∃ s,
      Subject.ofDisk .standard ⟨2024, 3, 5⟩ false (Path.ofString "x") cutShortDisk = .ok s := by
    cases hsubject : Subject.ofDisk .standard ⟨2024, 3, 5⟩ false (Path.ofString "x") cutShortDisk
      with
    | error failure => simp [hsubject, Except.map] at heval
    | ok s => exact ⟨s, rfl⟩
  rw [hsubject] at heval
  obtain ⟨hrepairs, hrun⟩ := Prod.mk.injEq .. ▸ Except.ok.inj heval
  -- a repair of two files can only be that of the library
  obtain ⟨⟨subject, entries⟩, honly, hnamed⟩ := List.map_eq_singleton_iff.mp hrepairs
  obtain ⟨rfl, hfiles⟩ := Prod.mk.injEq .. ▸ hnamed
  have hfix := fix_of_mem_repairs (Subject.sound_of_ofDisk hsubject)
    (show ("lib/x.dart", entries) ∈ repairsOf s cutShortDisk by simp [honly])
  obtain rfl := (hfix.library_or_single.resolve_right (by simp [hfiles])).2
  obtain ⟨contents, hcontents, hrun⟩ := Option.map_eq_some_iff.mp hrun
  have hrendered : renderPlan Settings.standard.strictTemplates s.layout.library =
      .ok contents := by
    cases hplan : renderPlan Settings.standard.strictTemplates s.layout.library with
    | error fault => simp [hplan, Except.toOption] at hcontents
    | ok plan => simpa [hplan, Except.toOption] using hcontents
  rcases hwrite : (writeFiles (Path.ofString "x") .skip contents none
    ["lib/x.dart", "lib/src/x_base.dart"]).outcome cutShortDisk with ⟨failure | marked, after⟩
  · simp only [hwrite, Except.map, Prod.mk.injEq, Except.error.injEq] at hrun
    obtain ⟨rfl, hthere⟩ := hrun
    obtain ⟨item, hitem, hfile⟩ := Option.map_eq_some_iff.mp hthere
    refine ⟨s, contents, after, hsubject, honly, hfiles, hrendered, hwrite, hfree, ?_⟩
    cases item with
    | directory => simp at hfile
    | file content => exact ⟨content, hitem⟩
  · simp [hwrite, Except.map] at hrun

/-- The directories of the library are taken to be there, though one of them is a file. -/
theorem makeMissing_cutShort {l : Layout}
    (hfiles : plannedFiles l.library = ["lib/x.dart", "lib/src/x_base.dart"]) :
    (makeMissing (Path.ofString "x") (wantedDirectories l.library)).outcome cutShortDisk =
      (.ok [], cutShortDisk) := by
  have hthere : ∀ directory ∈ ["lib", "lib/src"],
      cutShortDisk.exists? ((Path.ofString "x").extend directory) = .ok true := by decide +kernel
  have hparents : ∀ file ∈ ["lib/x.dart", "lib/src/x_base.dart"],
      (Path.ofString file).parent.text ∈ ["lib", "lib/src"] := by decide +kernel
  refine makeMissing_of_all fun directory hmem => hthere directory ?_
  simp only [wantedDirectories, plannedDirectories_library, List.nil_append, impliedDirectories,
    hfiles, List.mem_mergeSort, List.mem_filter, List.mem_eraseDups, List.mem_map] at hmem
  obtain ⟨⟨⟨file, hfile, rfl⟩, -⟩, -⟩ := hmem
  exact hparents file hfile

/-- There the public library is written and nothing is listed. -/
theorem exists_review_cutShort :
    let root := Path.ofString "x"
    let now : Moment := { date := ⟨2024, 3, 5⟩, hour := 1, minute := 1, second := 1 }
    ∃ report after, (review .standard now false true root).outcome cutShortDisk =
      (.ok report, after) ∧
      NewFileAt cutShortDisk after ["x", "lib", "x.dart"] ∧ report.filesWritten = [] ∧
      report.fixErrors = ["lib/x.dart: x/lib/src/x_base.dart: Not a directory"] := by
  intro root now
  obtain ⟨s, contents, after, hsubject, honly, hfiles, hcontents, hwrite, hnew⟩ :=
    exists_writeFiles_cutShort
  have hcarry : (carryOut s.layout.library root contents .skip none).outcome cutShortDisk =
      (.error (.refused "x/lib/src/x_base.dart" "Not a directory"), after) := by
    rw [outcome_carryOut, makeMissing_cutShort hfiles, hfiles]
    simp only [hwrite, root]
    rfl
  have hdirectory : cutShortDisk.isDirectory root = .ok true := by decide +kernel
  rw [outcome_review, hdirectory, hsubject]
  simp only [if_true, honly, repairAll, outcome_bind, outcome_repairOne, outcome_repair, hcontents,
    hcarry]
  exact ⟨_, _, rfl, hnew, rfl, rfl⟩

theorem review_accounts_cut_short :
    let root := Path.ofString "x"
    let now : Moment := { date := ⟨2024, 3, 5⟩, hour := 1, minute := 1, second := 1 }
    ∃ report after, (review .standard now false true root).outcome cutShortDisk = (.ok report, after) ∧
      NewFileAt cutShortDisk after ["x", "lib", "x.dart"] ∧ report.filesWritten = [] ∧
      ∃ top s, Rooted cutShortDisk root top ∧
        Subject.ofDisk .standard now.date false root cutShortDisk = .ok s ∧
        Accounts top (LibraryCutShort s top after report.fixErrors) cutShortDisk after
          report.filesWritten := by
  obtain ⟨report, after, hreview, hnew, hwritten, -⟩ := exists_review_cutShort
  exact ⟨report, after, hreview, hnew, hwritten, review_accounts hreview⟩

end PackageScaffold
