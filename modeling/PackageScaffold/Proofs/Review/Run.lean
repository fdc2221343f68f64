import PackageScaffold.Proofs.Review.Fix
import PackageScaffold.Proofs.Review.Repair

/-!
# What a review leaves behind

A review reads the package, runs the rules and carries out the repairs.  This file takes a review
apart, and says how the package has grown when it is over.

* `mem_repairsOf`, `mem_repairsOf_of_missing`: what the checks ask for;
* `outcome_review`: a review, step by step;
* `MendingReview`: what is known of a review with repairs that came to a report;
* `MendingReview.adds`, `MendingReview.exists_repaired`: what it has added, and that each repair was
  carried out on the way.
-/

namespace PackageScaffold

open Disk FileM

variable {settings : Settings} {now : Moment} {strict autoFix : Bool} {root : Path} {d d₁ : Disk}
  {s : Subject} {top : List String}

/-- All repairs that the rules ask for. -/
def repairsOf (s : Subject) (disk : Disk) : List (String × List PlanEntry) :=
  (runRules s disk).flatMap RuleOutcome.repairs

theorem mem_repairsOf (category : Category) {checks : List Check}
    (hchecks : category.checks s d = .ok checks) {check : Check} (hmem : check ∈ checks)
    {repair : String × List PlanEntry} (hrepair : check.repair? = some repair) :
    repair ∈ repairsOf s d := by
  have hcategory : category ∈ Category.all := by
    cases category <;> decide
  refine List.mem_flatMap.mpr ⟨_, List.mem_map_of_mem hcategory, ?_⟩
  rw [RuleOutcome.ofRule, hchecks]
  exact List.mem_filterMap.mpr ⟨check, hmem, hrepair⟩

/-- What a check finds missing is asked for, if a plan brings it back. -/
theorem mem_repairsOf_of_missing (category : Category) {checks : List Check}
    (hchecks : category.checks s d = .ok checks) {check : Check} (hmem : check ∈ checks)
    {path success message : String} {severity : Severity} {entries : List PlanEntry}
    (hcheck : checkThere d (s.inside path) success (.failed severity message path entries) =
      .ok check)
    (hmissing : d.exists? (s.inside path) = .ok false) (hne : entries ≠ []) :
    (path, entries) ∈ repairsOf s d := by
  rw [checkThere_of_missing hmissing] at hcheck
  obtain rfl := Except.ok.inj hcheck
  exact mem_repairsOf category hchecks hmem (by simp [Check.repair?, hne])

section Layout

variable {checks : List Check} (hchecks : checkLayout s d = .ok checks) {name : String}
  (hname : s.name = some name)

include hchecks hname

/-- Where the layout was looked at, a library that is missing is asked for. -/
theorem mem_repairsOf_library
    (hmissing : d.exists? (s.inside ("lib/" ++ name ++ ".dart")) = .ok false) :
    ("lib/" ++ name ++ ".dart", s.layout.library) ∈ repairsOf s d := by
  obtain ⟨lib, library, test, parts, -, hlibrary, -, -, rfl⟩ := checkLayout_eq_ok hchecks
  obtain ⟨check, hmem, hcheck⟩ := exists_mem_of_mapM hlibrary (Option.mem_toList.mpr hname)
  exact mem_repairsOf_of_missing .layout hchecks (by simp [hmem]) hcheck hmissing
    (by simp [Layout.library])

variable (hkind : s.kind = .plugin)

include hkind

/-- So is a part of a plugin. -/
theorem mem_repairsOf_part {entry : PlanEntry}
    (hentry : entry = s.layout.platformInterface ∨ entry = s.layout.methodChannel)
    (hmissing : d.exists? (s.inside entry.path) = .ok false) :
    (entry.path, [entry]) ∈ repairsOf s d := by
  obtain ⟨lib, library, test, parts, -, -, -, hparts, rfl⟩ := checkLayout_eq_ok hchecks
  obtain ⟨interface, channel, natives, hinterface, hchannel, -, rfl⟩ :=
    checkPlugin_eq_ok (checkPlugin_of_checkParts hkind hname hparts)
  rcases hentry with rfl | rfl
  · exact mem_repairsOf_of_missing .layout hchecks (by simp) hinterface hmissing (by simp)
  · exact mem_repairsOf_of_missing .layout hchecks (by simp) hchannel hmissing (by simp)

/-- So is a native part that has no content. -/
theorem mem_repairsOf_native {platform : Platform} (hplatform : platform ∈ s.platforms)
    (hempty : hasContent d (s.inside (nativePath name platform)) = .ok false) :
    (nativePath name platform, [s.layout.pluginStub platform]) ∈ repairsOf s d := by
  obtain ⟨check, hmem, hcheck⟩ := exists_checkNative hkind hname hplatform hchecks
  rw [checkNative_of_hasContent hempty] at hcheck
  obtain rfl := Except.ok.inj hcheck
  exact mem_repairsOf .layout hchecks hmem rfl

end Layout

/-- The report of a review, with what its repairs have written. -/
def reportOf (s : Subject) (autoFix : Bool) (now : Moment) (disk : Disk) (log : RepairLog) : Report :=
  { Report.of s autoFix now (runRules s disk) with
    filesWritten := log.written
    fixErrors := log.errors }

theorem outcome_review (settings : Settings) (now : Moment) (strict autoFix : Bool) (root : Path)
    (d : Disk) :
    (review settings now strict autoFix root).outcome d =
      match d.isDirectory root, Subject.ofDisk settings now.date strict root d with
      | .error failure, _ => (.error failure, d)
      | .ok false, _ => (.error (.misconfigured (.notDirectory root.text)), d)
      | .ok true, .error failure => (.error failure, d)
      | .ok true, .ok s =>
        if autoFix then
          (((repairAll settings root {} (repairsOf s d)).outcome d).1.map
            (reportOf s autoFix now d),
            ((repairAll settings root {} (repairsOf s d)).outcome d).2)
        else (.ok (reportOf s autoFix now d {}), d) := by
  unfold review
  rw [outcome_bind, outcome_inspect]
  cases hdirectory : d.isDirectory root with
  | error failure => rfl
  | ok isDirectory =>
      cases isDirectory with
      | false => rfl
      | true =>
          simp only [Bool.not_true, Bool.false_eq_true, if_false]
          rw [outcome_bind, outcome_inspect]
          cases Subject.ofDisk settings now.date strict root d with
          | error failure => rfl
          | ok s =>
              simp only
              rw [outcome_bind, outcome_look]
              simp only
              cases autoFix with
              | false => rfl
              | true =>
                  simp only [if_true]
                  rw [outcome_bind, ← repairsOf]
                  rcases (repairAll settings root {} (repairsOf s d)).outcome d
                    with ⟨_ | _, _⟩ <;> rfl

/-- What is known of a review that came to a report, whether it mends or not. -/
theorem subject_of_review {report : Report} {after : Disk}
    (h : (review settings now strict autoFix root).outcome d = (.ok report, after)) :
    ∃ top s log, Rooted d root top ∧ Subject.ofDisk settings now.date strict root d = .ok s ∧
      report = reportOf s autoFix now d log ∧
      if autoFix then
        (repairAll settings root {} (repairsOf s d)).outcome d = (.ok log, after)
      else after = d := by
  rw [outcome_review] at h
  cases hdirectory : d.isDirectory root with
  | error failure => simp [hdirectory] at h
  | ok isDirectory =>
      cases isDirectory with
      | false => simp [hdirectory] at h
      | true =>
          obtain ⟨top, hrooted⟩ := exists_rooted hdirectory
          cases hsubject : Subject.ofDisk settings now.date strict root d with
          | error failure => simp [hdirectory, hsubject] at h
          | ok s =>
              cases autoFix with
              | false =>
                  simp only [hdirectory, hsubject, Bool.false_eq_true, if_false, Prod.mk.injEq,
                    Except.ok.injEq] at h
                  obtain ⟨rfl, rfl⟩ := h
                  exact ⟨top, s, {}, hrooted, rfl, rfl, rfl⟩
              | true =>
                  simp only [hdirectory, hsubject, if_true] at h
                  rcases hrun : (repairAll settings root {} (repairsOf s d)).outcome d with
                    ⟨failure | log, last⟩
                  · simp [hrun, Except.map] at h
                  · rw [hrun] at h
                    obtain ⟨hreport, rfl⟩ := Prod.mk.injEq .. ▸ h
                    obtain rfl := Except.ok.inj hreport
                    exact ⟨top, s, log, hrooted, rfl, rfl, hrun⟩

/-- A review with repairs that came to a report. -/
structure MendingReview (settings : Settings) (now : Moment) (strict : Bool) (root : Path)
    (top : List String) (s : Subject) (before after : Disk) (log : RepairLog) : Prop where
  rooted : Rooted before root top
  subject : Subject.ofDisk settings now.date strict root before = .ok s
  run : (repairAll settings root {} (repairsOf s before)).outcome before = (.ok log, after)

/-- New things below a directory. -/
def NewBelow (new : List String → Item → Prop) (top place : List String) (item : Item) : Prop :=
  ∃ steps, steps ≠ [] ∧ place = top ++ steps ∧ new steps item

namespace MendingReview

variable {log : RepairLog} (h : MendingReview settings now strict root top s d d₁ log)

include h

theorem sound : s.Sound :=
  Subject.sound_of_ofDisk h.subject

theorem inside (path : String) : s.inside path = root.extend path := by
  rw [Subject.inside, Subject.root_of_ofDisk h.subject]

theorem isInnerPlan : ∀ repair ∈ repairsOf s d, IsInnerPlan repair.2 :=
  fun _ hmem => (fix_of_mem_repairs h.sound hmem).isInnerPlan h.sound

/-- Every repair was carried out somewhere on the way. -/
theorem repaired : ∀ pair ∈ (repairsOf s d).zip (repairResults settings root d (repairsOf s d)),
    ∃ before last, Grows d before ∧ Repaired settings root top pair.1.2 before last pair.2 ∧
      Grows last d₁ :=
  (repairAll_spec h.rooted h.isInnerPlan h.run).2

theorem exists_repaired {repair : String × List PlanEntry} (hmem : repair ∈ repairsOf s d) :
    ∃ before last result, Grows d before ∧
      Repaired settings root top repair.2 before last result ∧ Grows last d₁ := by
  obtain ⟨index, hindex, rfl⟩ := List.mem_iff_getElem.mp hmem
  have hlength := length_repairResults settings root d (repairsOf s d)
  have hzip : ((repairsOf s d)[index], (repairResults settings root d (repairsOf s d))[index]) ∈
      (repairsOf s d).zip (repairResults settings root d (repairsOf s d)) :=
    List.mem_iff_getElem.mpr ⟨index, by simp [hlength, hindex], by simp⟩
  obtain ⟨before, last, hbefore, hrepaired, hlast⟩ := h.repaired _ hzip
  exact ⟨before, last, _, hbefore, hrepaired, hlast⟩

/-- The package holds whatever it held, and nothing in addition but what repairs may add. -/
theorem adds : Adds (NewBelow (Added settings s) top) d d₁ := by
  have hadds := (repairAll_spec h.rooted h.isInnerPlan h.run).1
  refine ⟨hadds.working, hadds.keeps, fun {place item} hnone hsome => ?_⟩
  obtain ⟨repair, hmem, contents, hcontents, hnew⟩ := hadds.adds hnone hsome
  obtain ⟨steps, rfl, hsteps⟩ :=
    (fix_of_mem_repairs h.sound hmem).added h.sound hcontents hnew
  have hne : steps ≠ [] := by
    rintro rfl
    rw [List.append_nil, h.rooted.isDirectory] at hnone
    simp at hnone
  exact ⟨steps, hne, rfl, hsteps.resolve_left hne⟩

theorem grows : Grows d d₁ :=
  h.adds.grows

theorem inside_of_isStep {name : String} (hstep : Path.IsStep name) (hback : name ≠ "..") :
    s.inside name = root.below [name] := by
  rw [h.inside, Path.extend_eq_below (hstep.isInner hback), Path.steps_of_isStep hstep]

/-- Where repairs add nothing, a path leads to what it led to. -/
theorem itemAt_eq_of_not_added {name : String} (hstep : Path.IsStep name) (hback : name ≠ "..")
    (hold : ∀ item, ¬ Added settings s [name] item) :
    d₁.itemAt (s.inside name) = d.itemAt (s.inside name) := by
  rw [h.inside_of_isStep hstep hback]
  refine itemAt_congr h.rooted h.grows [] (by simpa using hback.symm)
    (by simp [h.rooted.isDirectory]) (h.adds.item?_eq fun item hnew => ?_)
  obtain ⟨steps, -, heq, hadded⟩ := hnew
  obtain rfl : [name] = steps := by simpa using heq
  exact hold item hadded

/-- What is new at the place of a missing file or directory was added by a repair. -/
theorem added_of_missing {name : String} (hstep : Path.IsStep name) (hback : name ≠ "..")
    (hnull : Path.isNullStep name = false) (hmissing : d.exists? (s.inside name) = .ok false)
    {item : Item} (hitem : d₁.itemAt (s.inside name) = .ok item) :
    Added settings s [name] item := by
  have hforward : ".." ∉ [name] := by simpa using hback.symm
  rw [h.inside_of_isStep hstep hback] at hmissing hitem
  have hplace := (h.rooted.grows h.grows).item?_of_itemAt hforward hitem
  rcases h.adds.item?_cases hplace with hold | ⟨-, steps, -, heq, hadded⟩
  · have hbefore : d.itemAt (root.below [name]) = .ok item := by
      rw [← hitem]
      exact (itemAt_congr h.rooted h.grows [] hforward (by simp [h.rooted.isDirectory])
        (by rw [List.nil_append, hplace, hold])).symm
    have hthere := exists?_true_iff.mpr
      ⟨by simpa [hnull] using Path.hasNull_below h.rooted.noNull [name], _, hbefore⟩
    simp [hthere] at hmissing
  · obtain rfl : [name] = steps := by simpa using heq
    exact hadded

end MendingReview

end PackageScaffold
