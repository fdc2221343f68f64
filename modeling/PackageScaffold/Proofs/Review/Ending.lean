import PackageScaffold.Proofs.Failing
import PackageScaffold.Proofs.Plan.Parts
import PackageScaffold.Proofs.Review.Findings
import PackageScaffold.Proofs.Review.NullFree

/-!
# How reviews end

A review of a directory ends in a report, whatever stands in the directory: metadata that cannot be
read become a finding, a rule that fails becomes one as well, and a repair that fails is noted down.
What no one expects ends it instead: metadata whose values cannot be built, and paths that are too
long to be looked at.

* `readMetadata_cases`: how the reading of metadata ends;
* `exists_ofDisk`: from whatever was read, a package to review is made;
* `filter_findingsOf`: unreadable metadata are one finding among those on metadata;
* `failsOnly_repair`: what may become of a repair;
* `review_ends`: how a review ends.
-/

namespace PackageScaffold

open Disk FileM

variable {settings : Settings} {now : Moment} {strict autoFix : Bool} {root : Path} {d : Disk}
  {s : Subject} {path : String} {entries : List PlanEntry}

/-! ## Paths that are too long -/

/-- A path is too long for a file system, or one of its steps is. -/
def Path.ExceedsLimits (path : Path) : Prop :=
  longestPath < path.text.utf8ByteSize ∨ ∃ step ∈ path.steps, longestName < step.utf8ByteSize

namespace Disk

theorem exists_long_of_follow {tree : FileTree} {done steps : List String}
    (h : follow tree done steps = .error .tooLong) :
    ∃ step ∈ steps, longestName < step.utf8ByteSize := by
  induction steps generalizing done with
  | nil => simp [follow] at h
  | cons step steps ih =>
      have hrest : ∀ done, follow tree done steps = .error .tooLong →
          ∃ long ∈ step :: steps, longestName < long.utf8ByteSize := by
        intro done hfollow
        obtain ⟨long, hmem, hlong⟩ := ih hfollow
        exact ⟨long, List.mem_cons_of_mem _ hmem, hlong⟩
      simp only [follow] at h
      split at h
      · split at h
        · exact hrest _ h
        · split at h
          · exact ⟨step, List.mem_cons_self, ‹_›⟩
          · exact hrest _ h
      · simp at h
      · simp at h

/-- The only paths that cannot be looked at are those that are too long. -/
theorem exceedsLimits_of_exists? {place : Path} {failure : Failure}
    (h : d.exists? place = .error failure) :
    place.ExceedsLimits ∧ failure = .unreachable (described place .tooLong) := by
  obtain ⟨-, hitem, hfailure⟩ := exists?_error h
  refine ⟨?_, hfailure⟩
  have hlocate := locate_of_itemAt_tooLong hitem
  unfold locate at hlocate
  split at hlocate
  · exact .inl ‹_›
  · exact .inr (exists_long_of_follow hlocate)

end Disk

/-! ## Reading a package -/

/-- Metadata are read, found to be unreadable, or have a value that cannot be built. -/
theorem parse_cases (text : String) :
    (∃ metadata, Metadata.parse text = .ok metadata) ∨
    (∃ reason, Metadata.parse text = .error (.unreadableMetadata reason)) ∨
    ∃ cause, Metadata.parse text = .error (.unbuildable cause) := by
  unfold Metadata.parse
  split
  · exact .inl ⟨_, rfl⟩
  · exact .inr (.inl ⟨_, rfl⟩)
  · exact .inr (.inl ⟨_, rfl⟩)
  · exact .inr (.inr ⟨_, rfl⟩)

/-- A file that is there is read, or this is refused. -/
theorem read_error_isExpected {place : Path} (hnull : place.hasNull = false) {failure : Failure}
    (h : d.read place = .error failure) : failure.isExpected = true := by
  rw [read_eq, hnull] at h
  simp only [Bool.false_eq_true, if_false] at h
  split at h
  · rename_i content hcontent
    cases hread : content.read with
    | ok text => simp [hread, Except.mapError] at h
    | error fault =>
        rw [hread] at h
        obtain rfl := Except.error.inj h
        rfl
  all_goals
    obtain rfl := Except.error.inj h
    rfl

theorem readMetadata_cases (d : Disk) (root : Path) :
    (∃ found, Subject.readMetadata d root = .ok found) ∨
    (∃ cause, d.read (root.extend metadataFile) >>= Metadata.parse = .error (.unbuildable cause) ∧
      Subject.readMetadata d root = .error (.unbuildable cause)) ∨
    ((root.extend metadataFile).ExceedsLimits ∧ Subject.readMetadata d root =
      .error (.unreachable (described (root.extend metadataFile) .tooLong))) := by
  cases hexists : d.exists? (root.extend metadataFile) with
  | error failure =>
      obtain ⟨hlong, rfl⟩ := exceedsLimits_of_exists? hexists
      refine .inr (.inr ⟨hlong, ?_⟩)
      simp only [Subject.readMetadata, hexists]
      rfl
  | ok isThere =>
      cases isThere with
      | false =>
          refine .inl ⟨none, ?_⟩
          simp only [Subject.readMetadata, hexists]
          rfl
      | true =>
          rw [Subject.readMetadata_of_there hexists]
          cases hread : d.read (root.extend metadataFile) with
          | error failure =>
              have hexpected := read_error_isExpected (exists?_true_iff.mp hexists).1 hread
              simp [bind, Except.bind, hexpected]
          | ok text =>
              rcases parse_cases text with ⟨metadata, hparse⟩ | ⟨reason, hparse⟩ |
                ⟨cause, hparse⟩ <;>
                simp [bind, Except.bind, hparse, Failure.isExpected]

theorem exists_ofDisk {today : Date} {found : Option (Except String Entries)}
    (h : Subject.readMetadata d root = .ok found) :
    ∃ s, Subject.ofDisk settings today strict root d = .ok s ∧
      ∀ reason, found = some (.error reason) → s.defect = some reason := by
  obtain ⟨model, hmodel⟩ := exists_modelFor settings root ((found.bind Except.toOption).getD [])
  refine ⟨_, by
    simp only [Subject.ofDisk, h, bind, Except.bind, hmodel]
    rfl, ?_⟩
  rintro reason rfl
  rfl

theorem ofDisk_of_error {today : Date} {failure : Failure}
    (h : Subject.readMetadata d root = .error failure) :
    Subject.ofDisk settings today strict root d = .error failure := by
  rw [Subject.ofDisk, h]
  rfl

/-! ## Findings on metadata -/

/-- What a rule finds is filed under its category. -/
theorem category_of_mem_findings {category : Category} {finding : Finding}
    (h : finding ∈ (RuleOutcome.ofRule s d category).findings) : finding.category = category := by
  unfold RuleOutcome.ofRule at h
  split at h
  · obtain ⟨check, -, hfinding⟩ := List.mem_filterMap.mp h
    cases check with
    | passed message => simp [Check.finding?] at hfinding
    | failed severity message subject repair =>
        obtain rfl := Option.some.inj hfinding
        rfl
  · obtain rfl := List.mem_singleton.mp h
    rfl

/-- The findings of one category are those of its rule. -/
theorem filter_findingsOf (s : Subject) (d : Disk) (category : Category) :
    (findingsOf s d).filter (·.category == category) =
      (RuleOutcome.ofRule s d category).findings := by
  have hone : ∀ other, ((RuleOutcome.ofRule s d other).findings.filter (·.category == category)) =
      if other = category then (RuleOutcome.ofRule s d category).findings else [] := by
    intro other
    split
    · subst other
      exact List.filter_eq_self.mpr fun finding hmem => by simp [category_of_mem_findings hmem]
    · exact List.filter_eq_nil_iff.mpr fun finding hmem => by simpa [category_of_mem_findings hmem]
  rw [findingsOf_eq, List.filter_flatMap]
  simp only [hone]
  cases category <;> simp [Category.all]

/-- The finding that metadata cannot be read. -/
def defectFinding (reason : String) : Finding where
  category := .metadata
  severity := .error
  message := reason
  subject := metadataFile

/-- If the metadata cannot be read, this is all that is found about them. -/
theorem filter_findingsOf_of_defect {reason : String} (h : s.defect = some reason) (d : Disk) :
    (findingsOf s d).filter (·.category == .metadata) = [defectFinding reason] := by
  rw [filter_findingsOf]
  simp only [RuleOutcome.ofRule, Category.checks, checkMetadata, h]
  rfl

/-! ## What may become of a repair -/

/-- Whatever is rendered has a content. -/
theorem lookup_renderPlan_ne_none {contents : Contents} {strict : Bool} {entry : PlanEntry}
    (h : renderPlan strict entries = .ok contents) (hmem : entry ∈ entries)
    (hsource : entry.source? ≠ none) : contents.lookup entry.path ≠ none := by
  induction entries generalizing contents with
  | nil => simp at hmem
  | cons first rest ih =>
      obtain ⟨more, hmore, hcontents⟩ := renderPlan_cons_eq_ok h
      rcases List.mem_cons.mp hmem with rfl | hmem
      · rcases hcontents with ⟨hnone, -⟩ | ⟨source, text, -, -, rfl⟩
        · exact absurd hnone hsource
        · split
          · exact Option.isSome_iff_ne_none.mp ‹_›
          · simp
      · have hrest := ih hmore hmem
        rcases hcontents with ⟨-, rfl⟩ | ⟨source, text, -, -, rfl⟩
        · exact hrest
        · split
          · exact hrest
          · rw [List.lookup_cons]
            split <;> simp_all

theorem Fix.rendered (h : Fix s d path entries) :
    ∀ entry ∈ entries, entry.isDirectory = false → entry.source? ≠ none := by
  have hfile : ∀ (l : Layout) (file template : String), (l.file file template).source? ≠ none := by
    simp [Layout.file, PlanEntry.rendered, PlanEntry.source?]
  cases h with
  | document hdocument hmissing => simp [hfile]
  | sources hmissing => simp [directoryEntry_lib, PlanEntry.isDirectory]
  | library hmissing => simp [Layout.library, hfile]
  | tests hnamed hmissing => simp [directoryEntry_test, PlanEntry.isDirectory, Layout.test, hfile]
  | part hentry hmissing =>
      rcases hentry with rfl | rfl
      · simp [Layout.platformInterface, hfile]
      · simp [Layout.methodChannel, hfile]
  | native platform hmissing => simp [Layout.pluginStub, hfile]

theorem Fix.lookup_ne_none (h : Fix s d path entries) {strict : Bool} {contents : Contents}
    (hcontents : renderPlan strict entries = .ok contents) :
    ∀ file ∈ plannedFiles entries, contents.lookup file ≠ none := by
  intro file hmem
  obtain ⟨entry, hentry, rfl⟩ := List.mem_map.mp hmem
  obtain ⟨hmem, hdirectory⟩ := List.mem_filter.mp hentry
  exact lookup_renderPlan_ne_none hcontents hmem (h.rendered entry hmem (by simpa using hdirectory))

/-- No path that a repair works on has a null character. -/
theorem Fix.hasNull_workedOn (hs : s.Sound) (hvalid : s.layout.model.IsValid)
    (hroot : root.hasNull = false)
    (h : Fix s d path entries) :
    ∀ planned ∈ workedOn entries, (root.extend planned).hasNull = false := by
  have hinner := h.isInnerPlan hs
  have hplanned : ∀ planned ∈ plannedDirectories entries ++ plannedFiles entries,
      (Path.ofString planned).steps.any Path.isNullStep = false :=
    fun planned hmem => Path.hasNull_ofString (h.null_not_mem hvalid planned hmem)
  intro planned hmem
  rcases List.mem_append.mp hmem with hmem | hmem
  · rw [Path.extend_eq_below (hinner.wanted planned hmem), Path.hasNull_below hroot]
    rcases hinner.cases_of_mem_wantedDirectories hmem with hdirectory | ⟨file, hfile, hsteps⟩
    · exact hplanned planned (List.mem_append_left _ hdirectory)
    · rw [hsteps, List.any_eq_false]
      exact fun step hstep => List.any_eq_false.mp (hplanned file (List.mem_append_right _ hfile))
        step
        ((List.dropLast_sublist _).mem hstep)
  · rw [Path.extend_eq_below (hinner.files planned hmem), Path.hasNull_below hroot]
    exact hplanned planned (List.mem_append_right _ hmem)

/-- Steps that were gone lead to nowhere else than their names say. -/
theorem mem_of_mem_foldl_advance {step : String} {steps done : List String}
    (h : step ∈ steps.foldl advance done) : step ∈ done ∨ step ∈ steps := by
  induction steps generalizing done with
  | nil => exact .inl h
  | cons first more ih =>
      rcases ih h with hmem | hmem
      · unfold advance at hmem
        split at hmem
        · exact .inl ((List.dropLast_sublist done).mem hmem)
        · rcases List.mem_append.mp hmem with hmem | hmem
          · exact .inl hmem
          · exact .inr (List.mem_cons.mpr (.inl (List.mem_singleton.mp hmem)))
      · exact .inr (List.mem_cons_of_mem _ hmem)

/-- The draft of a file has no null character unless the working directory has one. -/
theorem null_working_of_draftSteps {place : Path} (hnull : place.hasNull = false)
    (h : (d.draftSteps place).any Path.isNullStep = true) :
    d.working.any Path.isNullStep = true := by
  obtain ⟨step, hmem, hstep⟩ := List.any_eq_true.mp h
  have hplace : ∀ step ∈ place.steps, Path.isNullStep step = false := by
    simpa [Path.hasNull, List.any_eq_false] using hnull
  rcases List.mem_append.mp hmem with hmem | hmem
  · rcases mem_of_mem_foldl_advance hmem with hmem | hmem
    · simp at hmem
    · rcases List.mem_append.mp hmem with hmem | hmem
      · unfold start at hmem
        split at hmem
        · exact List.any_eq_true.mpr ⟨step, hmem, hstep⟩
        · simp at hmem
      · simp [hplace step ((List.dropLast_sublist _).mem hmem)] at hstep
  · obtain rfl := List.mem_singleton.mp hmem
    have hname : '\x00' ∉ place.name.toList := by
      unfold Path.name
      cases hlast : place.steps.getLast? with
      | none => simp
      | some last =>
          have hlast := hplace last (List.mem_of_getLast? hlast)
          simpa [Path.isNullStep] using hlast
    simp [Path.isNullStep, hname] at hstep

/-- What may end a review that mends: a path that is too long, or a null character in the working
directory. -/
def EndsRepair (working : List String) (root : Path) (planned : List String) (failure : Failure) : Prop :=
  (∃ path ∈ planned, (root.extend path).ExceedsLimits ∧
    failure = .unreachable (described (root.extend path) .tooLong)) ∨
  (failure = .nullInPath ∧ working.any Path.isNullStep = true)

theorem failsOnly_repair (hs : s.Sound) (hvalid : s.layout.model.IsValid)
    (hroot : root.hasNull = false)
    {seen : Disk} (h : Fix s seen path entries) (working : List String) :
    FailsOnly working (fun failure => failure.isExpected = true ∨
      EndsRepair working root (workedOn entries) failure) (repair settings root entries) := by
  have hnull := h.hasNull_workedOn hs hvalid hroot
  unfold repair
  cases hcontents : renderPlan settings.strictTemplates entries with
  | error fault => exact .throw (.inl rfl)
  | ok contents =>
      refine .bind (failsOnly_carryOut (fun planned hmem => ?_) (fun file hmem hnone => ?_) _ _)
        fun _ => .pure _
      · refine ⟨fun _ => .inl rfl, .inl rfl, fun d hworking failure hlook => ?_, fun hpath => ?_,
          fun d hworking hdraft => ?_⟩
        · exact .inr (.inl ⟨planned, hmem, exceedsLimits_of_exists? hlook⟩)
        · simp [hnull planned hmem] at hpath
        · exact .inr (.inr ⟨rfl, hworking ▸ null_working_of_draftSteps (hnull planned hmem) hdraft⟩)
      · exact absurd hnone (h.lookup_ne_none hcontents file hmem)

/-! ## Reviews -/

/-- How a review of a directory may end: in a report, in which unreadable metadata are one finding
among those on metadata, or without one, for a value of the metadata that cannot be built, for a
path to the metadata that is too long, or for what may end a repair. -/
inductive ReviewEnding (settings : Settings) (now : Moment) (strict autoFix : Bool) (root : Path)
    (d : Disk) : Except Failure Report × Disk → Prop
  | report {found : Option (Except String Entries)} {report : Report} {after : Disk}
      (hfound : Subject.readMetadata d root = .ok found)
      (hdefect : ∀ reason, found = some (.error reason) →
        report.findings.filter (·.category == .metadata) = [defectFinding reason]) :
      ReviewEnding settings now strict autoFix root d (.ok report, after)
  | unbuildable {cause : Unbuildable}
      (hmetadata : d.read (root.extend metadataFile) >>= Metadata.parse = .error (.unbuildable cause)) :
      ReviewEnding settings now strict autoFix root d (.error (.unbuildable cause), d)
  | tooLong (hlong : (root.extend metadataFile).ExceedsLimits) :
      ReviewEnding settings now strict autoFix root d
        (.error (.unreachable (described (root.extend metadataFile) .tooLong)), d)
  | repair {s : Subject} {named : String × List PlanEntry} {failure : Failure} {after : Disk}
      (hautoFix : autoFix = true) (hsubject : Subject.ofDisk settings now.date strict root d = .ok s)
      (hnamed : named ∈ repairsOf s d)
      (hends : EndsRepair d.working root (workedOn named.2) failure) :
      ReviewEnding settings now strict autoFix root d (.error failure, after)

/-- A review of a directory ends in a report, unless the values of the metadata cannot be built or a
path that is looked at is too long. -/
theorem review_ends (hroot : d.isDirectory root = .ok true) :
    ReviewEnding settings now strict autoFix root d
      ((review settings now strict autoFix root).outcome d) := by
  rw [outcome_review, hroot]
  -- once the metadata have been read, only a repair can fail
  rcases readMetadata_cases d root with ⟨found, hfound⟩ | ⟨cause, hmetadata, hread⟩ | ⟨hlong, hread⟩
  · obtain ⟨s, hsubject, hdefect⟩ :=
      @exists_ofDisk settings strict root d now.date found hfound
    have hfindings : ∀ reason, found = some (.error reason) →
        (findingsOf s d).filter (·.category == .metadata) = [defectFinding reason] :=
      fun reason hreason => filter_findingsOf_of_defect (hdefect reason hreason) d
    rw [hsubject]
    cases autoFix with
    | false => exact .report hfound hfindings
    | true =>
        simp only [if_true]
        have hs := Subject.sound_of_ofDisk hsubject
        have hvalid := Subject.isValid_of_ofDisk hsubject
        have hnull := (isDirectory_true_iff.mp hroot).1
        have hfails : FailsOnly d.working
            (fun failure => ∃ named ∈ repairsOf s d, EndsRepair d.working root (workedOn named.2)
              failure)
            (repairAll settings root {} (repairsOf s d)) := by
          refine failsOnly_repairAll (fun named hmem => ?_) {}
          refine (failsOnly_repair hs hvalid hnull (fix_of_mem_repairs hs hmem) d.working).mono ?_
          exact fun failure hfailure => hfailure.imp_right fun hends => ⟨named, hmem, hends⟩
        have hend := (hfails d rfl).2
        rcases hrun : (repairAll settings root {} (repairsOf s d)).outcome d
          with ⟨failure | log, after⟩
        · obtain ⟨named, hmem, hends⟩ := hend failure (by rw [hrun])
          exact .repair rfl hsubject hmem hends
        · exact .report hfound hfindings
  · rw [ofDisk_of_error hread]
    exact .unbuildable hmetadata
  · rw [ofDisk_of_error hread]
    exact .tooLong hlong

/-- A package whose metadata hold a date that no calendar has. -/
def impossibleDateDisk : Disk :=
  { tree := .directory [("x", .directory [("pubspec.yaml", .file (.text "d: 2024-13-45\n"))])] }

theorem review_ends_impossible_date :
    let root := Path.ofString "x"
    let now : Moment := { date := ⟨2024, 3, 5⟩, hour := 1, minute := 1, second := 1 }
    impossibleDateDisk.isDirectory root = .ok true ∧
      ((review .standard now false true root).outcome impossibleDateDisk).1 =
        .error (.unbuildable .impossible) ∧
      ReviewEnding .standard now false true root impossibleDateDisk
        ((review .standard now false true root).outcome impossibleDateDisk) := by
  intro root now
  have hroot : impossibleDateDisk.isDirectory root = .ok true := by decide +kernel
  exact ⟨hroot, by decide +kernel, review_ends hroot⟩

end PackageScaffold
