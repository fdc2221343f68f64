import PackageScaffold.Proofs.Review.Run

/-!
# Findings and the repairs for them

The findings of a review, and those of them that can be mended, each with its plan.  A finding says
nothing about the contents of its plan, so the date of a review has no influence on its findings.

* `findingsOf`, `fixesOf`;
* `findings_requiredFiles_of_there`, `findings_lint_of_there`: rules that find nothing;
* `map_fixesOf`, `map_fst_fixesOf`: the plans are the repairs that a review carries out, and the
  findings are those that can be mended;
* `findingsOf_of_layout`: findings depend on the model of a package only.
-/

namespace PackageScaffold

open Disk

variable {s : Subject} {d : Disk}

/-- All findings of the rules. -/
def findingsOf (s : Subject) (disk : Disk) : List Finding :=
  (runRules s disk).flatMap RuleOutcome.findings

theorem findingsOf_eq (s : Subject) (disk : Disk) :
    findingsOf s disk = Category.all.flatMap fun category =>
      (RuleOutcome.ofRule s disk category).findings := by
  rw [findingsOf, runRules, List.flatMap_map]

/-! ## Rules that find nothing -/

/-- A check that is passed. -/
def Check.IsPassed (check : Check) : Prop :=
  ∃ message, check = .passed message

theorem findings_of_checks {category : Category} {checks : List Check}
    (h : category.checks s d = .ok checks) :
    (RuleOutcome.ofRule s d category).findings = checks.filterMap (Check.finding? category) := by
  rw [RuleOutcome.ofRule, h]
  rfl

/-- A rule whose checks are all passed finds nothing. -/
theorem findings_eq_nil {category : Category}
    (h : ∃ checks, category.checks s d = .ok checks ∧ ∀ check ∈ checks, check.IsPassed) :
    (RuleOutcome.ofRule s d category).findings = [] := by
  obtain ⟨checks, hchecks, hpassed⟩ := h
  rw [findings_of_checks hchecks, List.filterMap_eq_nil_iff]
  intro check hcheck
  obtain ⟨message, rfl⟩ := hpassed check hcheck
  rfl

/-- Where all required files are, none is missed. -/
theorem findings_requiredFiles_of_there
    (h : ∀ required ∈ requiredFiles, d.exists? (s.inside required.1) = .ok true) :
    (RuleOutcome.ofRule s d .requiredFiles).findings = [] := by
  refine findings_eq_nil ?_
  rw [Category.checks, checkRequiredFiles_eq]
  exact exists_mapM_eq_ok_of_forall fun required hrequired =>
    ⟨_, checkThere_of_there (h required hrequired) _ _, _, rfl⟩

theorem findings_lint_of_there (h : d.exists? (s.inside analysisFile) = .ok true) :
    (RuleOutcome.ofRule s d .lint).findings = [] := by
  refine findings_eq_nil ?_
  rw [Category.checks, checkLint_eq, checkThere_of_there h]
  exact ⟨_, rfl, by simp [Check.IsPassed]⟩

/-! ## Findings that can be mended -/

/-- The finding of a failed check that can be mended, with the plan for it. -/
def Check.fix? (category : Category) (check : Check) : Option (Finding × List PlanEntry) :=
  match check.finding? category, check.repair? with
  | some finding, some (_, entries) => some (finding, entries)
  | _, _ => none

/-- The findings of a rule that can be mended, with the plans for them. -/
def fixesIn (s : Subject) (disk : Disk) (category : Category) : List (Finding × List PlanEntry) :=
  match category.checks s disk with
  | .ok checks => checks.filterMap (Check.fix? category)
  | .error _ => []

/-- All findings that can be mended, with the plans for them. -/
def fixesOf (s : Subject) (disk : Disk) : List (Finding × List PlanEntry) :=
  Category.all.flatMap (fixesIn s disk)

namespace Check

theorem map_fix? (category : Category) (check : Check) :
    (check.fix? category).map (fun fix => (fix.1.subject, fix.2)) = check.repair? := by
  cases check with
  | passed message => rfl
  | failed severity message subject repair => cases repair <;> rfl

theorem map_fst_fix? (category : Category) (check : Check) :
    (check.fix? category).map Prod.fst = (check.finding? category).filter Finding.isFixable := by
  cases check with
  | passed message => rfl
  | failed severity message subject repair => cases repair <;> rfl

end Check

/-- The plans are the repairs that a review carries out. -/
theorem map_fixesOf (s : Subject) (d : Disk) :
    (fixesOf s d).map (fun fix => (fix.1.subject, fix.2)) = repairsOf s d := by
  rw [fixesOf, repairsOf, runRules, List.map_flatMap, List.flatMap_map]
  refine List.flatMap_congr fun category _ => ?_
  unfold fixesIn RuleOutcome.ofRule
  cases category.checks s d with
  | error failure => rfl
  | ok checks =>
      simp only [List.map_filterMap, Check.map_fix?]
      rfl

/-- The findings with plans are those that can be mended. -/
theorem map_fst_fixesOf (s : Subject) (d : Disk) :
    (fixesOf s d).map Prod.fst = (findingsOf s d).filter Finding.isFixable := by
  rw [fixesOf, findingsOf_eq, List.map_flatMap, List.filter_flatMap]
  refine List.flatMap_congr fun category _ => ?_
  unfold fixesIn RuleOutcome.ofRule
  cases category.checks s d with
  | error failure => rfl
  | ok checks =>
      simp only [List.map_filterMap, Check.map_fst_fix?]
      exact List.filter_filterMap.symm

/-! ## Findings and the date -/

/-- Checks that are reported alike. -/
def SameFinding (first second : Check) : Prop :=
  ∀ category, first.finding? category = second.finding? category

theorem SameFinding.self (check : Check) : SameFinding check check :=
  fun _ => rfl

/-- A finding says whether there is a plan, and nothing else about it. -/
theorem sameFinding_failed {severity : Severity} {message subject : String}
    {repair other : List PlanEntry} (h : repair.isEmpty = other.isEmpty) :
    SameFinding (.failed severity message subject repair)
      (.failed severity message subject other) := by
  intro category
  simp only [Check.finding?, h]

theorem SameFinding.of {first second : Check} (h : SameFinding first second) (holds : Bool)
    (success : String) : SameFinding (.of holds success first) (.of holds success second) := by
  cases holds with
  | true => exact .self _
  | false => exact h

/-- Checks of one and the same thing that differ in the plan only are reported alike. -/
theorem tracks_of_sameFinding {first second : Check} (h : SameFinding first second)
    (holds : Except Failure Bool) (success : String) :
    Tracks SameFinding (do return .of (← holds) success first)
      (do return .of (← holds) success second) :=
  (Tracks.self (R := Eq) (fun _ => rfl) _).bind fun isThere _ heq =>
    .ok (heq ▸ h.of isThere success)

theorem tracks_checkDirectory_of_isEmpty {name : String} {severity : Severity}
    {repair other : List PlanEntry} (h : repair.isEmpty = other.isEmpty) :
    Tracks SameFinding (checkDirectory s d name severity repair)
      (checkDirectory s d name severity other) := by
  refine (Tracks.self (R := Eq) (fun _ => rfl) _).bind fun found _ heq => ?_
  subst heq
  rcases found with _ | content | entries
  · exact .ok (sameFinding_failed h)
  · exact .ok (.self _)
  · exact .ok (.self _)

section Layout

variable {l : Layout} (hmodel : l.model = s.layout.model)

include hmodel

theorem tracks_checkPlugin_of_layout (name : String) :
    Tracks (List.Forall₂ SameFinding) (checkPlugin { s with layout := l } d name)
      (checkPlugin s d name) := by
  obtain ⟨model, bindings⟩ := l
  obtain rfl : model = s.layout.model := hmodel
  have hpart : ∀ {label : String} {first second : PlanEntry}, first.path = second.path →
      Tracks SameFinding (checkPart s d label first) (checkPart s d label second) := by
    intro label first second hpath
    unfold checkPart
    rw [hpath]
    exact tracks_of_sameFinding (sameFinding_failed (by rfl)) _ _
  have hnative : ∀ platform ∈ s.platforms,
      Tracks SameFinding (checkNative { s with layout := ⟨s.layout.model, bindings⟩ } d name
        platform)
        (checkNative s d name platform) :=
    fun platform _ => tracks_of_sameFinding (sameFinding_failed (by rfl)) _ _
  unfold checkPlugin
  refine Tracks.bind (hpart rfl) fun _ _ hinterface => Tracks.bind (hpart rfl) fun _ _ hchannel =>
    (Tracks.mapM hnative).bind fun _ _ hnatives => .ok ?_
  exact .cons hinterface (.cons hchannel hnatives)

theorem tracks_checkLayout_of_layout :
    Tracks (List.Forall₂ SameFinding) (checkLayout { s with layout := l } d) (checkLayout s d) := by
  have hlibrary : ∀ name ∈ s.name.toList,
      Tracks SameFinding (checkLibrary { s with layout := l } d name) (checkLibrary s d name) :=
    fun name _ => tracks_of_sameFinding (sameFinding_failed (by rfl)) _ _
  have htest : (testRepair { s with layout := l }).isEmpty = (testRepair s).isEmpty := by
    unfold testRepair
    cases s.name <;> rfl
  have hparts : Tracks (List.Forall₂ SameFinding) (checkParts { s with layout := l } d)
      (checkParts s d) := by
    unfold checkParts
    cases s.kind with
    | application | package => exact .ok .nil
    | plugin =>
        cases s.name with
        | none => exact .ok .nil
        | some name => exact tracks_checkPlugin_of_layout hmodel name
  rw [checkLayout_eq, checkLayout_eq]
  refine Tracks.bind (tracks_checkDirectory_of_isEmpty (by rfl)) fun _ _ hlib =>
    (Tracks.mapM hlibrary).bind fun _ _ hlibrary =>
      Tracks.bind (tracks_checkDirectory_of_isEmpty htest) fun _ _ htest =>
        hparts.bind fun _ _ hparts => .ok ?_
  exact List.rel_append (List.rel_append (List.rel_append (.cons hlib .nil) hlibrary)
    (.cons htest .nil)) hparts

theorem tracks_checks_of_layout (category : Category) :
    Tracks (List.Forall₂ SameFinding) (category.checks { s with layout := l } d)
      (category.checks s d) := by
  have hself : ∀ checks, List.Forall₂ SameFinding checks checks :=
    fun checks => List.forall₂_same.mpr fun check _ => .self check
  cases category with
  | requiredFiles =>
      change Tracks _ (checkRequiredFiles { s with layout := l } d) (checkRequiredFiles s d)
      refine .mapM fun required _ => tracks_of_sameFinding (sameFinding_failed ?_) _ _
      cases required.2 <;> rfl
  | layout => exact tracks_checkLayout_of_layout hmodel
  | lint =>
      change Tracks _ (checkLint { s with layout := l } d) (checkLint s d)
      rw [checkLint_eq, checkLint_eq]
      exact Tracks.bind (tracks_of_sameFinding (sameFinding_failed (by rfl)) _ _)
        fun _ _ hcheck => .ok (.cons hcheck .nil)
  | metadata | version | publish | documentation => exact .self hself _

/-- What is found depends on the model of a package only, and not on what else its layout binds. -/
theorem findingsOf_of_layout : findingsOf { s with layout := l } d = findingsOf s d := by
  rw [findingsOf_eq, findingsOf_eq]
  refine List.flatMap_congr fun category _ => ?_
  have htracks := tracks_checks_of_layout (d := d) hmodel category
  unfold RuleOutcome.ofRule
  generalize Category.checks category { s with layout := l } d = first, category.checks s d = second
    at htracks
  cases htracks with
  | error failure => rfl
  | ok hsame =>
      simp only [RuleOutcome.ofChecks]
      induction hsame with
      | nil => rfl
      | cons hcheck _ ih => rw [List.filterMap_cons, List.filterMap_cons, hcheck category, ih]

end Layout

end PackageScaffold
