import PackageScaffold.Proofs.Review.Findings
import PackageScaffold.Proofs.Review.Reach
import PackageScaffold.Proofs.Review.Readme

/-!
# Mending is sound

A review after one that mends reports no finding that the first one did not report, and everything
that cannot be mended.  What the first one has mended is not reported again, with one exception: the
check of a native part asks for content, and a repair leaves alone what is there.  An empty
directory in the place of a file therefore counts as missing, and as mended.

* `MendingReview.finding_cases`: every finding stays, or what was missing is there;
* `MendingReview.mem_findingsOf_iff`: what becomes of a finding whose repair was carried out;
* `review_sound`: the findings and the score of the two reviews;
* `repairsOf_subset`, `review_again`: a second review that mends asks for no further repairs, and finds
  nothing left to do.
-/

namespace PackageScaffold

open Disk FileM

variable {settings : Settings} {now later : Moment} {strict : Bool} {root : Path} {d d₁ d₂ : Disk}
  {s : Subject} {top : List String} {log : RepairLog}

/-! ## Scores -/

/-- Fewer findings cost no more. -/
theorem totalPenalty_le_of_sublist {fewer more : List Severity} (h : fewer.Sublist more) :
    totalPenalty fewer ≤ totalPenalty more := by
  induction h with
  | slnil => exact Nat.le_refl _
  | cons severity _ ih =>
      simp only [totalPenalty]
      omega
  | cons_cons severity _ ih =>
      simp only [totalPenalty]
      omega

/-- A report with fewer findings has no lower score. -/
theorem score_le_of_sublist {first second : Report} (h : second.findings.Sublist first.findings) :
    first.score ≤ second.score := by
  have hpenalty := totalPenalty_le_of_sublist (h.map Finding.severity)
  simp only [Report.score, scoreOf]
  omega

/-! ## Single rules -/

/-- A check that has improved is still reported, unless it can be mended and was. -/
theorem ImproveAll.finding_cases {mended : String → Prop} {before after : List Check}
    (h : ImproveAll mended before after) {category : Category} {finding : Finding}
    (hmem : finding ∈ before.filterMap (Check.finding? category)) :
    finding ∈ after.filterMap (Check.finding? category) ∨
      finding.isFixable = true ∧ mended finding.subject := by
  induction h with
  | nil => simp at hmem
  | @cons check check' before after hcheck _ ih =>
      obtain ⟨found, hfound, hfinding⟩ := List.mem_filterMap.mp hmem
      rcases List.mem_cons.mp hfound with rfl | hfound
      · cases hcheck with
        | same => exact .inl (List.mem_filterMap.mpr ⟨_, List.mem_cons_self, hfinding⟩)
        | @mended severity message subject repair success hrepair hmended =>
            obtain rfl := Option.some.inj hfinding
            exact .inr ⟨by simpa using hrepair, hmended⟩
      · rcases ih (List.mem_filterMap.mpr ⟨found, hfound, hfinding⟩) with hafter | hmended
        · obtain ⟨again, hagain, hfinding⟩ := List.mem_filterMap.mp hafter
          exact .inl (List.mem_filterMap.mpr ⟨again, List.mem_cons_of_mem _ hagain, hfinding⟩)
        · exact .inr hmended

namespace MendingReview

variable (h : MendingReview settings now strict root top s d d₁ log)

include h

/-- The documentation is checked as before, or there was none and what was brought back passes. -/
theorem documentation_cases :
    checkDocumentation s d₁ = checkDocumentation s d ∨
      checkDocumentation s d = .ok [] ∧ ∃ checks, checkDocumentation s d₁ = .ok checks ∧
        ∀ check ∈ checks, ∃ message, check = .passed message := by
  have hstep : Path.IsStep readmeFile ∧ readmeFile ≠ ".." ∧ Path.isNullStep readmeFile = false := by
    decide
  obtain ⟨hstep, hback, hnull⟩ := hstep
  by_cases hmissing : d.itemAt (s.inside readmeFile) = .error .missing
  · have hfree : d.exists? (s.inside readmeFile) = .ok false := by simp [exists?_eq, hmissing]
    have hbefore : checkDocumentation s d = .ok [] := by
      rw [checkDocumentation, hfree]
      rfl
    obtain ⟨isThere, hafter⟩ := h.reachable (.top hstep hback) hfree
    cases isThere with
    | false =>
        refine .inl ?_
        rw [hbefore, checkDocumentation, hafter]
        rfl
    | true =>
        obtain ⟨hpath, item, hitem⟩ := exists?_true_iff.mp hafter
        have hadded := h.added_of_missing hstep hback hnull hfree hitem
        have hdocument : (readmeFile, "docs/readme") ∈ documentFiles := by simp [documentFiles]
        obtain ⟨-, content, rfl⟩ := hadded.file_of_document hdocument
        obtain ⟨template, text, hmem, rfl, hrender⟩ := hadded.document_of_file
        obtain rfl : template = "docs/readme" := by
          simpa [documentFiles, readmeFile, analysisFile] using hmem
        -- what came to be there is the readme as it is rendered
        have hread : d₁.read (s.inside readmeFile) =
            .ok (String.ofList (Content.unifyLines text.toList)) := by
          simp [read_eq, hpath, hitem, Content.read, Except.mapError]
        refine .inr ⟨hbefore, _, ?_, passed_of_render_readme hrender s.strict⟩
        rw [checkDocumentation, hafter, hread]
        simp [bind, Except.bind, pure, Except.pure]
  · refine .inl ?_
    have hsame := itemAt_of_grows h.grows rfl hmissing
    simp only [checkDocumentation, exists?_eq, read_eq, hsame]

/-- A rule reports nothing that it did not report before. -/
theorem findings_sublist (category : Category) :
    (RuleOutcome.ofRule s d₁ category).findings.Sublist
      (RuleOutcome.ofRule s d category).findings := by
  unfold RuleOutcome.ofRule
  by_cases hdocumentation : category = .documentation
  · subst hdocumentation
    simp only [Category.checks]
    rcases h.documentation_cases with hsame | ⟨hbefore, checks, hafter, hpassed⟩
    · rw [hsame]
    · rw [hbefore, hafter]
      have hnone : checks.filterMap (Check.finding? .documentation) = [] := by
        rw [List.filterMap_eq_nil_iff]
        intro check hcheck
        obtain ⟨message, rfl⟩ := hpassed check hcheck
        rfl
      simp [RuleOutcome.ofChecks, hnone]
  · have htracks := tracks_checks h.progress hdocumentation
    generalize category.checks s d = before, category.checks s d₁ = after at htracks
    cases htracks with
    | error failure => exact List.Sublist.refl _
    | ok himprove => exact himprove.sublist fun _ => rfl

/-- What a rule reports is reported again, unless it can be mended and was. -/
theorem finding_cases {category : Category} {finding : Finding}
    (hmem : finding ∈ (RuleOutcome.ofRule s d category).findings) :
    finding ∈ (RuleOutcome.ofRule s d₁ category).findings ∨
      finding.isFixable = true ∧ Mended s d d₁ finding.subject := by
  unfold RuleOutcome.ofRule at hmem ⊢
  by_cases hdocumentation : category = .documentation
  · subst hdocumentation
    simp only [Category.checks] at hmem ⊢
    rcases h.documentation_cases with hsame | ⟨hbefore, -⟩
    · exact .inl (hsame ▸ hmem)
    · simp [hbefore, RuleOutcome.ofChecks] at hmem
  · have htracks := tracks_checks h.progress hdocumentation
    generalize category.checks s d = before, category.checks s d₁ = after at htracks hmem
    cases htracks with
    | error failure => exact .inl hmem
    | ok himprove => exact himprove.finding_cases hmem

theorem findingsOf_sublist : (findingsOf s d₁).Sublist (findingsOf s d) := by
  rw [findingsOf_eq, findingsOf_eq]
  induction Category.all with
  | nil => exact .slnil
  | cons category rest ih =>
      rw [List.flatMap_cons, List.flatMap_cons]
      exact (h.findings_sublist category).append ih

theorem findingsOf_cases {finding : Finding} (hmem : finding ∈ findingsOf s d) :
    finding ∈ findingsOf s d₁ ∨ finding.isFixable = true ∧ Mended s d d₁ finding.subject := by
  rw [findingsOf_eq] at hmem ⊢
  obtain ⟨category, hcategory, hmem⟩ := List.mem_flatMap.mp hmem
  exact (h.finding_cases hmem).imp_left fun hafter =>
    List.mem_flatMap.mpr ⟨category, hcategory, hafter⟩

/-! ## Findings that were mended -/

/-- A directory that stands in the place of a planned file has stood there before. -/
theorem isDirectory_of_planned {path : String} {entries : List PlanEntry}
    (hfix : Fix s d path entries) (hfile : path ∈ plannedFiles entries)
    (hafter : d₁.isDirectory (s.inside path) = .ok true) :
    d.isDirectory (s.inside path) = .ok true := by
  have hinner := (hfix.isInnerPlan h.sound).files path hfile
  obtain ⟨hnull, hitem⟩ := isDirectory_true_iff.mp hafter
  refine isDirectory_true_iff.mpr ⟨hnull, ?_⟩
  rw [h.inside, Path.extend_eq_below hinner] at hitem ⊢
  have hplace := (h.rooted.grows h.grows).item?_of_itemAt hinner.forward hitem
  rcases h.adds.item?_cases hplace with hold | ⟨-, steps, -, heq, hadded⟩
  · exact itemAt_of_item? h.rooted h.grows hinner.forward hold hitem
  · rw [← List.append_cancel_left heq] at hadded
    obtain ⟨-, content, hcontent⟩ :=
      hfix.file_of_added h.sound hfile [] (by rwa [List.append_nil])
    simp at hcontent

/-- What stands below a directory in the place of a planned file has stood there before. -/
theorem hasContent_of_planned {path : String} {entries : List PlanEntry}
    (hfix : Fix s d path entries) (hfile : path ∈ plannedFiles entries)
    (hdirectory : d.isDirectory (s.inside path) = .ok true) :
    hasContent d₁ (s.inside path) ≠ .ok true := by
  intro hcontent
  have hinner := (hfix.isInnerPlan h.sound).files path hfile
  have hempty := hfix.hasContent_eq_false
  obtain ⟨hnull, hitem⟩ := isDirectory_true_iff.mp hdirectory
  have hlater := itemAt_of_grows h.grows hitem (by simp)
  rw [h.inside, Path.extend_eq_below hinner] at hempty hcontent hitem hlater hnull
  rcases hasContent_eq_ok hempty with ⟨hfree, -⟩ | ⟨-, -, hfalse⟩ | ⟨-, place, hlocate, -, hnone⟩
  · simp [exists?_true_iff.mpr ⟨hnull, _, hitem⟩] at hfree
  · simp at hfalse
  · have hnone := hnone.mp rfl
    rcases hasContent_eq_ok hcontent with ⟨-, hfalse⟩ | ⟨-, ⟨content, hfile⟩, -⟩ |
      ⟨-, place', hlocate', -, hchild⟩
    · simp at hfalse
    · simp [hlater] at hfile
    · obtain rfl : place = place' := by
        simpa [locate_of_grows h.grows hlocate (by simp)] using hlocate'
      obtain ⟨step, hstep⟩ : ∃ step, d₁.tree.item? (place ++ [step]) ≠ none := by
        simpa using hchild
      obtain ⟨item, hnew⟩ := Option.ne_none_iff_exists'.mp hstep
      -- something new in the directory would be below the place of a planned file
      obtain ⟨steps, -, heq, hadded⟩ := h.adds.adds (hnone step) hnew
      obtain rfl := h.rooted.eq_append_of_locate hinner.forward hlocate
      rw [List.append_assoc] at heq
      rw [← List.append_cancel_left heq] at hadded
      obtain ⟨hnil, -⟩ := hfix.file_of_added h.sound hfile _ hadded
      simp at hnil

/-- The directory of a platform that a repair has filled needs no further repair. -/
theorem not_fix_of_filled {platform : Platform} (hweb : platform ≠ .web)
    (hthere : d₁.exists? (s.inside (Layout.pluginStubPath s.layout.model platform)) = .ok true)
    (entries : List PlanEntry) : ¬ Fix s d₁ (nativePath s.layout.model.name platform) entries := by
  intro hfix
  have hname : Path.IsStep platform.text ∧ platform.text ≠ ".." ∧ Fits platform.text ∧
      Path.isNullStep platform.text = false := by
    cases platform <;> decide
  obtain ⟨hstep, hback, hfits, hnull⟩ := hname
  have hinner := Layout.isInner_pluginStubPath h.sound.named platform
  obtain ⟨steps, hne, hsteps⟩ := Layout.steps_pluginStubPath (m := s.layout.model) hweb
  rw [h.inside, Path.extend_eq_below hinner] at hthere
  obtain ⟨-, item, hitem⟩ := exists?_true_iff.mp hthere
  have hroot := h.rooted.grows h.grows
  have hfound := hroot.item?_of_itemAt hinner.forward hitem
  have hempty := hfix.hasContent_eq_false
  rw [nativePath_of_ne_web _ hweb, h.inside_of_isStep hstep hback] at hempty
  obtain ⟨step, more, rfl⟩ := List.exists_cons_of_ne_nil hne
  rw [hsteps, item?_eq_none_of_hasContent hroot hfits hnull hempty] at hfound
  simp at hfound

/-- A directory that a repair has made, or has filled, needs no further repair. -/
theorem not_fix_of_present {path : String} {entries : List PlanEntry} (hfix : Fix s d path entries)
    (hfile : path ∉ plannedFiles entries)
    (hpresent : ∀ path ∈ plannedDirectories entries ++ plannedFiles entries,
      d₁.exists? (s.inside path) = .ok true) (entries' : List PlanEntry) :
    ¬ Fix s d₁ path entries' := by
  cases hfix with
  | document hdocument hmissing => simp at hfile
  | sources hmissing =>
      have hthere := hpresent "lib" (by simp [directoryEntry_lib])
      exact not_fix_of_exists (fun platform => by cases platform <;> decide) (by decide) hthere
  | library hmissing => simp [Layout.library] at hfile
  | tests hnamed hmissing =>
      have hthere := hpresent "test" (by simp [directoryEntry_test])
      exact not_fix_of_exists (fun platform => by cases platform <;> decide) (by decide) hthere
  | part hentry hmissing =>
      rcases hentry with rfl | rfl
      · simp [Layout.platformInterface] at hfile
      · simp [Layout.methodChannel] at hfile
  | native platform hmissing =>
      have hthere := hpresent (Layout.pluginStubPath s.layout.model platform)
        (by simp [Layout.pluginStub])
      refine h.not_fix_of_filled ?_ hthere entries'
      rintro rfl
      refine hfile ?_
      rw [Layout.pluginStub, plannedFiles_file]
      exact List.mem_cons_self

/-- What becomes of a finding whose repair was carried out: it is gone, unless there is a directory
in the place of the file that the repair would have written. -/
theorem mem_findingsOf_iff {finding : Finding} {entries : List PlanEntry}
    {result : Except Failure (List String)}
    (hmem : ((finding, entries), result) ∈
      (fixesOf s d).zip (repairResults settings root d (repairsOf s d)))
    (hok : result.isOk = true) :
    finding ∈ findingsOf s d₁ ↔
      finding.subject ∈ plannedFiles entries ∧ d.isDirectory (s.inside finding.subject) =
        .ok true := by
  have hzip : ((finding.subject, entries), result) ∈
      (repairsOf s d).zip (repairResults settings root d (repairsOf s d)) := by
    have hmap := List.mem_map_of_mem (f := Prod.map (fun fix => (fix.1.subject, fix.2)) id) hmem
    rwa [← List.zip_map_left, map_fixesOf] at hmap
  obtain ⟨before, last, hbefore, hrepaired, hlast⟩ := h.repaired _ hzip
  have hfix := fix_of_mem_repairs h.sound (List.of_mem_zip hzip).1
  have hpresent : ∀ path ∈ plannedDirectories entries ++ plannedFiles entries,
      d₁.exists? (s.inside path) = .ok true := by
    intro path hpath
    rw [h.inside]
    exact exists?_true_of_grows (hrepaired.present hok path hpath) hlast
  have hfinding : finding ∈ findingsOf s d ∧ finding.isFixable = true := by
    have hfst := List.mem_map_of_mem (f := Prod.fst) (List.of_mem_zip hmem).1
    rwa [map_fst_fixesOf, List.mem_filter] at hfst
  constructor
  · intro hagain
    obtain ⟨fix, hmem', hfst⟩ : ∃ fix ∈ fixesOf s d₁, fix.1 = finding := by
      have hfixable := List.mem_filter.mpr ⟨hagain, hfinding.2⟩
      rwa [← map_fst_fixesOf, List.mem_map] at hfixable
    have hfix' : Fix s d₁ finding.subject fix.2 := by
      have hmap := List.mem_map_of_mem (f := fun fix => (fix.1.subject, fix.2)) hmem'
      rw [map_fixesOf, hfst] at hmap
      exact fix_of_mem_repairs h.sound hmap
    have hfile : finding.subject ∈ plannedFiles entries :=
      Classical.not_not.mp fun hfile => h.not_fix_of_present hfix hfile hpresent _ hfix'
    refine ⟨hfile, h.isDirectory_of_planned hfix hfile ?_⟩
    -- there is something at the path that has no content, which is a directory
    have hthere := hpresent _ (List.mem_append_right _ hfile)
    rcases hasContent_eq_ok hfix'.hasContent_eq_false with
      ⟨hfree, -⟩ | ⟨-, -, hfalse⟩ | ⟨hnull, place, hlocate, hitem, -⟩
    · simp [hthere] at hfree
    · simp at hfalse
    · exact isDirectory_true_iff.mpr ⟨hnull, itemAt_of_locate hlocate hitem⟩
  · rintro ⟨hfile, hdirectory⟩
    refine (h.findingsOf_cases hfinding.1).resolve_right ?_
    rintro ⟨-, hfree | hcontent⟩
    · obtain ⟨hnull, hitem⟩ := isDirectory_true_iff.mp hdirectory
      simp [exists?_true_iff.mpr ⟨hnull, _, hitem⟩] at hfree
    · exact h.hasContent_of_planned hfix hfile hdirectory hcontent

end MendingReview

/-! ## Two reviews -/

/-- The findings that a review tries to mend, each with its plan and with what its repair comes to.
-/
def attemptsOf (settings : Settings) (root : Path) (s : Subject) (disk : Disk) :
    List ((Finding × List PlanEntry) × Except Failure (List String)) :=
  (fixesOf s disk).zip (repairResults settings root disk (repairsOf s disk))

theorem map_attemptsOf (settings : Settings) (root : Path) (s : Subject) (d : Disk) :
    (attemptsOf settings root s d).map (·.1.1) = (findingsOf s d).filter Finding.isFixable := by
  have hlength : (fixesOf s d).length ≤ (repairResults settings root d (repairsOf s d)).length := by
    have hcount : (repairsOf s d).length = (fixesOf s d).length := by
      rw [← map_fixesOf, List.length_map]
    exact Nat.le_of_eq (by rw [length_repairResults, hcount])
  calc (attemptsOf settings root s d).map (·.1.1)
      = ((attemptsOf settings root s d).map Prod.fst).map Prod.fst := by
        rw [List.map_map]
        rfl
    _ = (findingsOf s d).filter Finding.isFixable := by
        rw [attemptsOf, List.map_fst_zip hlength, map_fst_fixesOf]

theorem filterMap_attemptsOf (settings : Settings) (root : Path) (s : Subject) (d : Disk) :
    (attemptsOf settings root s d).filterMap (fun attempt => notedError? attempt.1.1.subject
      attempt.2) = ((repairsOf s d).zip (repairResults settings root d (repairsOf s d))).filterMap
        fun pair => notedError? pair.1.1 pair.2 := by
  rw [attemptsOf]
  generalize repairResults settings root d (repairsOf s d) = results
  rw [← map_fixesOf, List.zip_map_left, List.filterMap_map]
  rfl

/-- Mending is sound.  A review that follows one with repairs reports nothing new and everything
that cannot be mended, so its score is no lower.  Of the findings whose repair was carried out it
reports again those, and only those, for which a directory stands in the place of the planned file.
-/
theorem review_sound {first second : Report}
    (hfirst : (review settings now strict true root).outcome d = (.ok first, d₁))
    (hsecond : (review settings later strict false root).outcome d₁ = (.ok second, d₂)) :
    second.findings.Sublist first.findings ∧
    (∀ finding ∈ first.findings, finding.isFixable = false → finding ∈ second.findings) ∧
    first.score ≤ second.score ∧
    ∀ s, Subject.ofDisk settings now.date strict root d = .ok s →
      (attemptsOf settings root s d).map (·.1.1) = first.findings.filter Finding.isFixable ∧
      (attemptsOf settings root s d).filterMap
        (fun attempt => notedError? attempt.1.1.subject attempt.2) = first.fixErrors ∧
      ∀ finding entries result, ((finding, entries), result) ∈ attemptsOf settings root s d →
        result.isOk = true →
        (finding ∈ second.findings ↔ finding.subject ∈ plannedFiles entries ∧
          d.isDirectory (root.extend finding.subject) = .ok true) := by
  obtain ⟨top, s, log, hrooted, hsubject, rfl, hrun⟩ := subject_of_review hfirst
  have h : MendingReview settings now strict root top s d d₁ log := ⟨hrooted, hsubject, hrun⟩
  obtain ⟨_, s', log', -, hsubject', rfl, rfl⟩ := subject_of_review hsecond
  have hlater := Subject.ofDisk_of_date hsubject later.date
  rw [← h.subject_after, hsubject'] at hlater
  obtain rfl := Except.ok.inj hlater
  have hfindings : (reportOf { s with layout := s.layout.model.layout later.date } false later d₂
      log').findings = findingsOf s d₂ := findingsOf_of_layout rfl
  have hsublist := h.findingsOf_sublist
  rw [← hfindings] at hsublist
  refine ⟨hsublist, fun finding hmem hfixable => ?_, score_le_of_sublist hsublist, fun s' hs' => ?_⟩
  · rw [hfindings]
    refine (h.findingsOf_cases hmem).resolve_right ?_
    rintro ⟨hfixable', -⟩
    simp [hfixable] at hfixable'
  · obtain rfl : s' = s := by
      rw [hsubject] at hs'
      exact (Except.ok.inj hs').symm
    refine ⟨map_attemptsOf .., ?_, fun finding entries result hmem hok => ?_⟩
    · rw [filterMap_attemptsOf]
      exact (errors_of_repairAll hrun).symm
    · rw [hfindings, ← h.inside]
      exact h.mem_findingsOf_iff hmem hok

/-- A plugin without a licence, and with a directory in the place of its web part. -/
def blockedDisk : Disk :=
  { tree := .directory [("x", .directory [
      ("pubspec.yaml", .file (.text "name: x\nflutter:\n  plugin:\n    platforms:\n      web:\n")),
      ("README.md", .file (.text "# X")), ("CHANGELOG.md", .file (.text "")),
      ("analysis_options.yaml", .file (.text "")), ("test", .directory []),
      ("lib", .directory [("x.dart", .file (.text "")), ("x_web.dart", .directory []),
        ("src", .directory [("x_platform_interface.dart", .file (.text "")),
          ("x_method_channel.dart", .file (.text ""))])])])] }

theorem review_sound_blocked :
    let root := Path.ofString "x"
    let now : Moment := { date := ⟨2024, 3, 5⟩, hour := 1, minute := 1, second := 1 }
    ∃ first second d₁ d₂,
      (review .standard now false true root).outcome blockedDisk = (.ok first, d₁) ∧
      (review .standard now false false root).outcome d₁ = (.ok second, d₂) ∧
      second.findings.Sublist first.findings ∧
      ∃ finding ∈ second.findings, finding.subject = "lib/x_web.dart" ∧ finding.isFixable = true ∧
        first.fixErrors = [] := by
  intro root now
  obtain ⟨hfirst, hsecond, hattempt⟩ :
      ((review .standard now false true root).outcome blockedDisk).1.map Report.fixErrors = .ok [] ∧
      ((review .standard now false false root).outcome
        ((review .standard now false true root).outcome blockedDisk).2).1.isOk = true ∧
      (Subject.ofDisk .standard now.date false root blockedDisk).map (fun s =>
        (attemptsOf .standard root s blockedDisk).any fun attempt =>
          attempt.1.1.subject = "lib/x_web.dart" ∧ attempt.1.1.subject ∈ plannedFiles attempt.1.2 ∧
            attempt.2.isOk = true) = .ok true := by
    decide +kernel
  have hdirectory : blockedDisk.isDirectory (root.extend "lib/x_web.dart") = .ok true := by
    decide +kernel
  rcases hreview : (review .standard now false true root).outcome blockedDisk with ⟨_ | first, d₁⟩
  · simp [hreview, Except.map] at hfirst
  · rw [hreview] at hfirst hsecond
    rcases hagain : (review .standard now false false root).outcome d₁ with ⟨_ | second, d₂⟩
    · simp [hagain, Except.isOk, Except.toBool] at hsecond
    · obtain ⟨hsublist, -, -, hattempts⟩ := review_sound hreview hagain
      rcases hsubject : Subject.ofDisk .standard now.date false root blockedDisk with _ | s
      · simp [hsubject, Except.map] at hattempt
      · obtain ⟨hfixable, -, hmended⟩ := hattempts s hsubject
        rw [hsubject] at hattempt
        obtain ⟨⟨⟨finding, entries⟩, result⟩, hmem, hcond⟩ := List.any_eq_true.mp
          (Except.ok.inj hattempt)
        obtain ⟨hpath, hfile, hok⟩ := of_decide_eq_true hcond
        have hstays := (hmended finding entries result hmem hok).mpr ⟨hfile, hpath ▸ hdirectory⟩
        have hlisted := List.mem_map_of_mem (f := (·.1.1)) hmem
        rw [hfixable] at hlisted
        exact ⟨first, second, d₁, d₂, rfl, hagain, hsublist, finding, hstays, hpath,
          (List.mem_filter.mp hlisted).2, Except.ok.inj hfirst⟩

/-! ## Mending twice -/

/-- On a package that has grown by repairs the rules ask for no others. -/
theorem repairsOf_subset (h : Progress s d d₁) : repairsOf s d₁ ⊆ repairsOf s d := by
  rintro ⟨path, entries⟩ hmem
  obtain ⟨outcome, houtcome, hmem⟩ := List.mem_flatMap.mp hmem
  obtain ⟨category, hcategory, rfl⟩ := List.mem_map.mp houtcome
  refine List.mem_flatMap.mpr ⟨_, List.mem_map_of_mem hcategory, ?_⟩
  unfold RuleOutcome.ofRule at hmem ⊢
  by_cases hdocumentation : category = .documentation
  · subst hdocumentation
    cases hafter : Category.documentation.checks s d₁ with
    | error failure => simp [hafter, RuleOutcome.ofFailure] at hmem
    | ok after =>
        rw [hafter] at hmem
        obtain ⟨check, hcheck, hrepair⟩ := List.mem_filterMap.mp hmem
        simp [repair?_checkDocumentation hafter hcheck] at hrepair
  · have htracks := tracks_checks h hdocumentation
    generalize category.checks s d = before, category.checks s d₁ = after at htracks hmem ⊢
    cases htracks with
    | error failure => simp [RuleOutcome.ofFailure] at hmem
    | ok himprove => exact (himprove.sublist fun _ => rfl).subset hmem

namespace MendingReview

/-- A repair that is asked for again was carried out already, and has nothing left to do. -/
theorem settled (h : MendingReview settings now strict root top s d d₁ log) :
    ∀ pair ∈ repairsOf s d₁, ∃ result, (repair settings root pair.2).outcome d₁ = (result, d₁) ∧
      ∀ written, result = .ok written → written = [] := by
  rintro ⟨path, entries⟩ hmem
  obtain ⟨before, last, result, -, hrepaired, hlast⟩ :=
    h.exists_repaired (repairsOf_subset h.progress hmem)
  refine hrepaired.again d₁ hlast fun file hfile hthere => ?_
  -- only a file that is still missing is asked for together with another one
  have hmissing := (fix_of_mem_repairs h.sound hmem).missing_of_mem_dropLast hfile
  rw [h.inside, hthere] at hmissing
  simp at hmissing

end MendingReview

/-- A review that mends is idempotent: a second one writes nothing and leaves every file as it is,
and whatever is reported after it has been reported by it. -/
theorem review_again {first second : Report} {d₂ : Disk}
    (hfirst : (review settings now strict true root).outcome d = (.ok first, d₁))
    (hsecond : (review settings now strict true root).outcome d₁ = (.ok second, d₂)) :
    second.filesWritten = [] ∧ d₂ = d₁ ∧
      ∀ autoFix, ∃ third, (review settings now strict autoFix root).outcome d₂ = (.ok third, d₂) ∧
        third.findings = second.findings ∧ third.score = second.score := by
  obtain ⟨top, s, log, hrooted, hsubject, -, hrun⟩ := subject_of_review hfirst
  have h : MendingReview settings now strict root top s d d₁ log := ⟨hrooted, hsubject, hrun⟩
  obtain ⟨_, s', log', -, hsubject', rfl, hrun'⟩ := subject_of_review hsecond
  obtain rfl : s' = s := by
    rw [h.subject_after, hsubject] at hsubject'
    exact (Except.ok.inj hsubject').symm
  obtain ⟨rfl, hwritten⟩ := repairAll_again h.settled hrun'
  refine ⟨hwritten, rfl, fun autoFix => ?_⟩
  cases autoFix with
  | true => exact ⟨_, hsecond, rfl, rfl⟩
  | false =>
      refine ⟨reportOf s' false now d₂ {}, ?_, rfl, rfl⟩
      have hdirectory : d₂.isDirectory root = .ok true := by
        have hroot := hrooted.grows h.grows
        simp [isDirectory_eq, hroot.noNull, hroot.itemAt]
      rw [outcome_review, hdirectory, hsubject']
      rfl

/-- A package without metadata and without rules for the static analysis; the latter can be brought
back. -/
def sparseDisk : Disk :=
  { tree := .directory [("sparse", .directory [
      ("README.md", .file (.text "# Sparse")), ("CHANGELOG.md", .file (.text "")),
      ("LICENSE", .file (.text "")), ("lib", .directory []), ("test", .directory [])])] }

theorem review_again_sparse :
    let root := Path.ofString "sparse"
    let now : Moment := { date := ⟨2024, 3, 5⟩, hour := 1, minute := 1, second := 1 }
    ∃ first second d₁ d₂,
      (review .standard now true true root).outcome sparseDisk = (.ok first, d₁) ∧
      (review .standard now true true root).outcome d₁ = (.ok second, d₂) ∧
      second.filesWritten = [] ∧ d₂ = d₁ := by
  intro root now
  have hfirst : ((review .standard now true true root).outcome sparseDisk).1.isOk = true := by
    decide +kernel
  have hsecond : ((review .standard now true true root).outcome
      ((review .standard now true true root).outcome sparseDisk).2).1.isOk = true := by
    decide +kernel
  rcases hreview : (review .standard now true true root).outcome sparseDisk with ⟨_ | first, d₁⟩
  · simp [hreview, Except.isOk, Except.toBool] at hfirst
  · rw [hreview] at hsecond
    rcases hagain : (review .standard now true true root).outcome d₁ with ⟨_ | second, d₂⟩
    · simp [hagain, Except.isOk, Except.toBool] at hsecond
    · obtain ⟨hwritten, hdisk, -⟩ := review_again hreview hagain
      exact ⟨first, second, d₁, d₂, rfl, hagain, hwritten, hdisk⟩

end PackageScaffold
