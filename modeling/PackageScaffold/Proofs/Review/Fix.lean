import PackageScaffold.Proofs.Plan.CarryOut
import PackageScaffold.Proofs.Plan.Layout
import PackageScaffold.Proofs.Review.Check
import PackageScaffold.Proofs.Review.Subject
import PackageScaffold.Review

/-!
# What repairs are for

A rule comes with a plan for everything it misses and can bring back.  There are six kinds of such
plans, and this file says when each of them is made and what it may add to a package.

* `Fix`: the plans, each with what was missing, and `fix_of_mem_repairs`, by which there are no
  others;
* `Added`: what a package may have in addition after repairs, and `added_of_newPlanned`, by which a
  plan adds nothing else.
-/

namespace PackageScaffold

open Disk

/-- The single files that can be brought back, with their templates. -/
def documentFiles : List (String × String) :=
  [(readmeFile, "docs/readme"),
   ("CHANGELOG.md", "docs/changelog"),
   ("LICENSE", "docs/license_mit"),
   (analysisFile, "config/analysis_options")]

/-- A plan that brings back what is missing at a path. -/
inductive Fix (s : Subject) (disk : Disk) : String → List PlanEntry → Prop
  | document {path template : String} (hdocument : (path, template) ∈ documentFiles)
      (hmissing : disk.exists? (s.inside path) = .ok false) :
      Fix s disk path [s.layout.file path template]
  | sources (hmissing : disk.exists? (s.inside "lib") = .ok false) :
      Fix s disk "lib" [directoryEntry "lib"]
  | library (hmissing : disk.exists? (s.inside (Layout.libraryPath s.layout.model)) = .ok false) :
      Fix s disk (Layout.libraryPath s.layout.model) s.layout.library
  | tests (hnamed : s.name ≠ none) (hmissing : disk.exists? (s.inside "test") = .ok false) :
      Fix s disk "test" [directoryEntry "test", s.layout.test true]
  | part {entry : PlanEntry}
      (hentry : entry = s.layout.platformInterface ∨ entry = s.layout.methodChannel)
      (hmissing : disk.exists? (s.inside entry.path) = .ok false) : Fix s disk entry.path [entry]
  | native (platform : Platform)
      (hmissing : hasContent disk (s.inside (nativePath s.layout.model.name platform)) = .ok false) :
      Fix s disk (nativePath s.layout.model.name platform) [s.layout.pluginStub platform]

variable {s : Subject} {d : Disk}

/-! ## Rules whose findings cannot be repaired -/

namespace Check

@[simp] theorem repair?_passed (message : String) : (passed message).repair? = none := rfl

@[simp] theorem repair?_failed_nil (severity : Severity) (message subject : String) :
    (failed severity message subject []).repair? = none := rfl

@[simp] theorem repair?_of (holds : Bool) (success : String) (otherwise : Check) :
    (Check.of holds success otherwise).repair? = if holds then none else otherwise.repair? := by
  cases holds <;> rfl

theorem eq_of_repair?_failed {severity : Severity} {message subject path : String}
    {repair entries : List PlanEntry}
    (h : (failed severity message subject repair).repair? = some (path, entries)) :
    subject = path ∧ repair = entries ∧ repair ≠ [] := by
  cases repair with
  | nil => simp at h
  | cons entry rest => simpa [repair?] using h

end Check

theorem repair?_checkMetadata {check : Check} (h : check ∈ checkMetadata s) :
    check.repair? = none := by
  unfold checkMetadata at h
  split at h
  · obtain rfl := List.mem_singleton.mp h
    rfl
  · simp at h
  · rcases List.mem_append.mp h with h | h
    · obtain ⟨field, -, rfl⟩ := List.mem_map.mp h
      simp [checkField]
    · split at h
      · obtain ⟨field, -, rfl⟩ := List.mem_map.mp h
        simp [checkField]
      · simp at h

theorem repair?_checkVersion {checks : List Check} (hchecks : checkVersion s = .ok checks)
    {check : Check} (h : check ∈ checks) : check.repair? = none := by
  unfold checkVersion at hchecks
  split at hchecks
  · obtain rfl := Except.ok.inj hchecks
    simp at h
  · obtain rfl := Except.ok.inj hchecks
    simp at h
  · simp at hchecks
  · obtain ⟨text, -, hchecks⟩ := bind_eq_ok hchecks
    obtain rfl := Except.ok.inj hchecks
    obtain rfl := List.mem_singleton.mp h
    simp

theorem repair?_checkPublish {checks : List Check} (hchecks : checkPublish s = .ok checks)
    {check : Check} (h : check ∈ checks) : check.repair? = none := by
  unfold checkPublish at hchecks
  split at hchecks
  · obtain rfl := Except.ok.inj hchecks
    simp at h
  · obtain ⟨text, -, hchecks⟩ := bind_eq_ok hchecks
    obtain rfl := Except.ok.inj hchecks
    obtain rfl := List.mem_singleton.mp h
    simp

theorem repair?_checkReadme {strict : Bool} {readme : List Char} {check : Check}
    (h : check ∈ checkReadme strict readme) : check.repair? = none := by
  unfold checkReadme at h
  rcases List.mem_append.mp h with h | h
  · simp only [List.mem_cons, List.not_mem_nil, or_false] at h
    rcases h with rfl | rfl <;> simp
  · split at h
    · obtain rfl := List.mem_singleton.mp h
      simp
    · simp at h

theorem repair?_checkDocumentation {checks : List Check}
    (hchecks : checkDocumentation s d = .ok checks) {check : Check} (h : check ∈ checks) :
    check.repair? = none := by
  obtain ⟨isThere, -, hchecks⟩ := bind_eq_ok hchecks
  cases isThere with
  | false =>
      obtain rfl : [] = checks := Except.ok.inj hchecks
      simp at h
  | true =>
      obtain ⟨readme, -, hchecks⟩ := bind_eq_ok hchecks
      obtain rfl := Except.ok.inj hchecks
      exact repair?_checkReadme h

/-! ## Every repair is a fix -/

variable {path : String} {entries : List PlanEntry} {check : Check}

theorem fix_of_checkThere {place : Path} {success message : String} {severity : Severity}
    {subject : String} {repair : List PlanEntry}
    (hcheck : checkThere d place success (.failed severity message subject repair) = .ok check)
    (h : check.repair? = some (path, entries)) :
    d.exists? place = .ok false ∧ subject = path ∧ repair = entries ∧ repair ≠ [] := by
  rcases checkThere_eq_ok hcheck with ⟨-, rfl⟩ | ⟨hmissing, rfl⟩
  · simp at h
  · exact ⟨hmissing, Check.eq_of_repair?_failed h⟩

theorem fix_of_checkDirectory {name : String} {severity : Severity} {repair : List PlanEntry}
    (hcheck : checkDirectory s d name severity repair = .ok check)
    (h : check.repair? = some (path, entries)) :
    d.exists? (s.inside name) = .ok false ∧ name = path ∧ repair = entries ∧ repair ≠ [] := by
  rcases checkDirectory_eq_ok hcheck with ⟨-, -, rfl⟩ | ⟨-, -, rfl⟩ | ⟨hmissing, rfl⟩
  · simp at h
  · simp at h
  · exact ⟨hmissing, Check.eq_of_repair?_failed h⟩

/-- A plan that brings back a missing document. -/
def DocumentFix (s : Subject) (disk : Disk) (path : String) (entries : List PlanEntry) : Prop :=
  ∃ template, (path, template) ∈ documentFiles ∧ disk.exists? (s.inside path) = .ok false ∧
    entries = [s.layout.file path template]

theorem DocumentFix.fix (h : DocumentFix s d path entries) : Fix s d path entries := by
  obtain ⟨template, hdocument, hmissing, rfl⟩ := h
  exact .document hdocument hmissing

theorem documentFix_of_checkRequiredFiles {checks : List Check}
    (hchecks : checkRequiredFiles s d = .ok checks) (hmem : check ∈ checks)
    (h : check.repair? = some (path, entries)) : DocumentFix s d path entries := by
  rw [checkRequiredFiles_eq] at hchecks
  obtain ⟨⟨file, template?⟩, hfile, hcheck⟩ := exists_of_mem_mapM hchecks hmem
  obtain ⟨hmissing, rfl, rfl, hrepair⟩ := fix_of_checkThere hcheck h
  have hdocument : ∀ template, template? = some template → (file, template) ∈ documentFiles := by
    revert hfile
    simp only [requiredFiles, documentFiles, List.mem_cons, Prod.mk.injEq, List.not_mem_nil]
    grind
  cases template? with
  | none => exact absurd rfl hrepair
  | some template => exact ⟨template, hdocument template rfl, hmissing, rfl⟩

theorem documentFix_of_checkLint {checks : List Check} (hchecks : checkLint s d = .ok checks)
    (hmem : check ∈ checks) (h : check.repair? = some (path, entries)) :
    DocumentFix s d path entries := by
  rw [checkLint_eq] at hchecks
  obtain ⟨check', hcheck, hchecks⟩ := bind_eq_ok hchecks
  obtain rfl := Except.ok.inj hchecks
  obtain rfl := List.mem_singleton.mp hmem
  obtain ⟨hmissing, rfl, rfl, -⟩ := fix_of_checkThere hcheck h
  exact ⟨_, by simp [documentFiles], hmissing, rfl⟩

theorem fix_of_checkPlugin (hs : s.Sound) {name : String} (hname : s.name = some name)
    {checks : List Check} (hchecks : checkPlugin s d name = .ok checks) (hmem : check ∈ checks)
    (h : check.repair? = some (path, entries)) : Fix s d path entries := by
  obtain ⟨interface, channel, natives, hinterface, hchannel, hnatives, rfl⟩ :=
    checkPlugin_eq_ok hchecks
  have hpart : ∀ label entry,
      (entry = s.layout.platformInterface ∨ entry = s.layout.methodChannel) →
      checkPart s d label entry = .ok check → Fix s d path entries := by
    intro label entry hentry hcheck
    obtain ⟨hmissing, rfl, rfl, -⟩ := fix_of_checkThere hcheck h
    exact .part hentry hmissing
  simp only [List.cons_append, List.nil_append, List.mem_cons] at hmem
  rcases hmem with rfl | rfl | hmem
  · exact hpart _ _ (.inl rfl) hinterface
  · exact hpart _ _ (.inr rfl) hchannel
  · obtain ⟨platform, -, hcheck⟩ := exists_of_mem_mapM hnatives hmem
    obtain ⟨isThere, hcontent, hcheck⟩ := bind_eq_ok hcheck
    obtain rfl := Except.ok.inj hcheck
    cases isThere with
    | true => simp at h
    | false =>
        obtain ⟨rfl, rfl, -⟩ := Check.eq_of_repair?_failed h
        obtain rfl := hs.name_eq hname
        exact .native platform hcontent

theorem fix_of_checkLayout (hs : s.Sound) {checks : List Check}
    (hchecks : checkLayout s d = .ok checks) (hmem : check ∈ checks)
    (h : check.repair? = some (path, entries)) : Fix s d path entries := by
  obtain ⟨lib, library, test, parts, hlib, hlibrary, htest, hparts, rfl⟩ :=
    checkLayout_eq_ok hchecks
  simp only [List.cons_append, List.nil_append, List.mem_cons, List.mem_append, List.not_mem_nil,
    or_false] at hmem
  rcases hmem with rfl | (hmem | rfl) | hmem
  · obtain ⟨hmissing, rfl, rfl, -⟩ := fix_of_checkDirectory hlib h
    exact .sources hmissing
  · obtain ⟨name, hname, hcheck⟩ := exists_of_mem_mapM hlibrary hmem
    obtain rfl := hs.name_eq (Option.mem_toList.mp hname)
    obtain ⟨hmissing, rfl, rfl, -⟩ := fix_of_checkThere hcheck h
    exact .library hmissing
  · obtain ⟨hmissing, rfl, rfl, hrepair⟩ := fix_of_checkDirectory htest h
    unfold testRepair at hrepair ⊢
    cases hname : s.name with
    | none => simp [hname] at hrepair
    | some name => exact .tests (by simp [hname]) hmissing
  · unfold checkParts at hparts
    split at hparts
    · exact fix_of_checkPlugin hs ‹_› hparts hmem h
    · obtain rfl := Except.ok.inj hparts
      simp at hmem

/-- Every plan that a rule makes is for a document, unless it is the rule for the layout. -/
theorem cases_of_mem_repairs
    (h : (path, entries) ∈ (runRules s d).flatMap RuleOutcome.repairs) :
    (∃ checks, checkLayout s d = .ok checks ∧ ∃ check ∈ checks,
      check.repair? = some (path, entries)) ∨ DocumentFix s d path entries := by
  obtain ⟨outcome, houtcome, hmem⟩ := List.mem_flatMap.mp h
  obtain ⟨category, -, rfl⟩ := List.mem_map.mp houtcome
  unfold RuleOutcome.ofRule at hmem
  cases hchecks : category.checks s d with
  | error failure => simp [hchecks, RuleOutcome.ofFailure] at hmem
  | ok checks =>
      rw [hchecks] at hmem
      obtain ⟨check, hcheck, hrepair⟩ := List.mem_filterMap.mp hmem
      cases category with
      | requiredFiles => exact .inr (documentFix_of_checkRequiredFiles hchecks hcheck hrepair)
      | metadata =>
          obtain rfl := Except.ok.inj hchecks
          simp [repair?_checkMetadata hcheck] at hrepair
      | version => simp [repair?_checkVersion hchecks hcheck] at hrepair
      | publish => simp [repair?_checkPublish hchecks hcheck] at hrepair
      | layout => exact .inl ⟨checks, hchecks, check, hcheck, hrepair⟩
      | documentation => simp [repair?_checkDocumentation hchecks hcheck] at hrepair
      | lint => exact .inr (documentFix_of_checkLint hchecks hcheck hrepair)

/-- Every plan that a rule makes is one of the known kinds. -/
theorem fix_of_mem_repairs (hs : s.Sound)
    (h : (path, entries) ∈ (runRules s d).flatMap RuleOutcome.repairs) : Fix s d path entries := by
  rcases cases_of_mem_repairs h with ⟨checks, hchecks, check, hmem, hrepair⟩ | hdocument
  · exact fix_of_checkLayout hs hchecks hmem hrepair
  · exact hdocument.fix

/-! ## The paths of fixes -/

section Paths

variable {l : Layout} {template : String}

@[simp] theorem plannedDirectories_file (rest : List PlanEntry) :
    plannedDirectories (l.file path template :: rest) = plannedDirectories rest := rfl

@[simp] theorem plannedFiles_file (rest : List PlanEntry) :
    plannedFiles (l.file path template :: rest) = path :: plannedFiles rest := rfl

@[simp] theorem path_file : (l.file path template).path = path := rfl

@[simp] theorem plannedDirectories_directory (rest : List PlanEntry) :
    plannedDirectories (.directory path :: rest) = path :: plannedDirectories rest := rfl

@[simp] theorem plannedFiles_directory (rest : List PlanEntry) :
    plannedFiles (.directory path :: rest) = plannedFiles rest := rfl

@[simp] theorem plannedDirectories_nil : plannedDirectories [] = [] := rfl

@[simp] theorem plannedFiles_nil : plannedFiles [] = [] := rfl

end Paths

theorem directoryEntry_lib : directoryEntry "lib" = .directory "lib" :=
  congrArg PlanEntry.directory (by decide)

theorem directoryEntry_test : directoryEntry "test" = .directory "test" :=
  congrArg PlanEntry.directory (by decide)

theorem steps_document {template : String} (h : (path, template) ∈ documentFiles) :
    (Path.ofString path).steps = [path] ∧ Path.IsInner path := by
  have hstep : Path.IsStep path ∧ path ≠ ".." := by
    simp only [documentFiles, List.mem_cons, Prod.mk.injEq, List.not_mem_nil, or_false] at h
    rcases h with ⟨rfl, -⟩ | ⟨rfl, -⟩ | ⟨rfl, -⟩ | ⟨rfl, -⟩ <;> decide
  exact ⟨Path.steps_of_isStep hstep.1, hstep.1.isInner hstep.2⟩

theorem isInnerPlan_file {l : Layout} {template : String} (h : Path.IsInner path) :
    IsInnerPlan [l.file path template] :=
  ⟨by simp, by simpa using h⟩

theorem Fix.isInnerPlan (hs : s.Sound) (h : Fix s d path entries) : IsInnerPlan entries := by
  have hname := Layout.dot_not_mem_name hs.named
  have hlib : Path.IsInner "lib" :=
    Path.isInner_of_count (by decide) (by decide) ⟨'l', by decide, by decide⟩
  have htest : Path.IsInner "test" :=
    Path.isInner_of_count (by decide) (by decide) ⟨'t', by decide, by decide⟩
  -- the name has no dot and the text around it at most one, so the path does not lead back
  have haround : ∀ {front back : String}, front.toList.head? ≠ some '/' →
      (∃ c ∈ front.toList, c ≠ '/' ∧ c ≠ '.') → (front.toList ++ back.toList).count '.' ≤ 1 →
      Path.IsInner (front ++ s.layout.model.name ++ back) :=
    fun hhead hletter hdots => isInner_around _ _ hname hhead hletter hdots
  have hsource : ∀ {back : String}, back.toList.count '.' ≤ 1 →
      Path.IsInner ("lib/src/" ++ s.layout.model.name ++ back) :=
    fun hdots => haround (by decide) ⟨'l', by decide, by decide⟩ hdots
  cases h with
  | document hdocument hmissing =>
      exact ⟨by simp, by simpa using (steps_document hdocument).2⟩
  | sources hmissing =>
      rw [directoryEntry_lib]
      exact ⟨by simpa using hlib, by simp⟩
  | library hmissing =>
      refine ⟨by simp [Layout.library], ?_⟩
      simp only [Layout.library, plannedFiles_file, plannedFiles_nil, List.forall_mem_cons]
      exact ⟨haround (by decide) ⟨'l', by decide, by decide⟩ (by decide), hsource (by decide),
        by simp⟩
  | tests hnamed hmissing =>
      rw [directoryEntry_test]
      refine ⟨by simpa [Layout.test] using htest, ?_⟩
      simp only [Layout.test, plannedFiles_directory, plannedFiles_file, plannedFiles_nil,
        List.forall_mem_cons]
      exact ⟨haround (by decide) ⟨'t', by decide, by decide⟩ (by decide), by simp⟩
  | part hentry hmissing =>
      rcases hentry with rfl | rfl
      · refine ⟨by simp [Layout.platformInterface], ?_⟩
        simpa [Layout.platformInterface] using hsource (by decide)
      · refine ⟨by simp [Layout.methodChannel], ?_⟩
        simpa [Layout.methodChannel] using hsource (by decide)
  | native platform hmissing =>
      refine ⟨by simp [Layout.pluginStub], ?_⟩
      simpa [Layout.pluginStub] using Layout.isInner_pluginStubPath hs.named platform

/-- Of the files of a fix, only the last one may be there when it is planned. -/
theorem Fix.missing_of_mem_dropLast (h : Fix s d path entries) {file : String}
    (hmem : file ∈ (plannedFiles entries).dropLast) : d.exists? (s.inside file) = .ok false := by
  cases h with
  | document hdocument hmissing => simp at hmem
  | sources hmissing => simp [directoryEntry_lib] at hmem
  | library hmissing =>
      obtain rfl : file = Layout.libraryPath s.layout.model := by simpa [Layout.library] using hmem
      exact hmissing
  | tests hnamed hmissing => simp [directoryEntry_test, Layout.test] at hmem
  | part hentry hmissing =>
      rcases hentry with rfl | rfl
      · simp [Layout.platformInterface] at hmem
      · simp [Layout.methodChannel] at hmem
  | native platform hmissing => simp [Layout.pluginStub] at hmem

/-! ## What fixes add -/

/-- What a package may have in addition after repairs, from its root on. -/
inductive Added (settings : Settings) (s : Subject) : List String → Item → Prop
  | document {path template text : String} (hdocument : (path, template) ∈ documentFiles)
      (hrender : Catalogue.standard.render settings.strictTemplates template s.layout.bindings =
        .ok text) : Added settings s [path] (.file (.text text))
  | lib : Added settings s ["lib"] .directory
  | src : Added settings s ["lib", "src"] .directory
  | library {name : String} (text : String)
      (hname : name = s.layout.model.name ++ ".dart" ∨ name = s.layout.model.name ++ "_web.dart") :
      Added settings s ["lib", name] (.file (.text text))
  | source (name text : String) : Added settings s ["lib", "src", name] (.file (.text text))
  | test (hnamed : s.name ≠ none) : Added settings s ["test"] .directory
  | firstTest (name text : String) (hnamed : s.name ≠ none) :
      Added settings s ["test", name] (.file (.text text))
  | native {platform : Platform} {more : List String} {item : Item} (hweb : platform ≠ .web)
      (hitem : more = [] → item = .directory) : Added settings s (platform.text :: more) item

variable {settings : Settings} {top place : List String} {contents : Contents} {item : Item}

namespace Added

/-- Everything that repairs add stands in one of a few places. -/
theorem first_mem {first : String} {more : List String}
    (h : Added settings s (first :: more) item) :
    first ∈ documentFiles.map Prod.fst ++ ["lib", "test"] ++ Platform.all.map Platform.text := by
  cases h with
  | document hdocument hrender =>
      exact List.mem_append_left _ (List.mem_append_left _ (List.mem_map_of_mem hdocument))
  | native hweb hitem =>
      rename_i platform
      refine List.mem_append_right _ (List.mem_map_of_mem ?_)
      cases platform <;> decide
  | _ => simp

/-- The only files that repairs add right below the root are documents. -/
theorem document_of_file {name : String} {content : Content}
    (h : Added settings s [name] (.file content)) :
    ∃ template text, (name, template) ∈ documentFiles ∧ content = .text text ∧
      Catalogue.standard.render settings.strictTemplates template s.layout.bindings = .ok text := by
  cases h with
  | document hdocument hrender => exact ⟨_, _, hdocument, rfl, hrender⟩
  | native hweb hitem => simp at hitem

theorem named_of_test (h : Added settings s ["test"] item) : s.name ≠ none := by
  have hdocument : ∀ template, ("test", template) ∉ documentFiles := by
    simp [documentFiles, readmeFile, analysisFile]
  have hplatform : ∀ platform : Platform, platform.text ≠ "test" := by
    intro platform
    cases platform <;> decide
  generalize hsteps : ["test"] = steps at h
  cases h with
  | document hmem hrender =>
      obtain rfl := List.singleton_inj.mp hsteps
      exact absurd hmem (hdocument _)
  | test hnamed => exact hnamed
  | native hweb hitem => exact absurd (List.cons.inj hsteps).1.symm (hplatform _)
  | _ => simp at hsteps

/-- Where a document stands nothing but a file is added. -/
theorem file_of_document {path template : String} {more : List String}
    (hdocument : (path, template) ∈ documentFiles) (h : Added settings s (path :: more) item) :
    more = [] ∧ ∃ content, item = .file content := by
  have hnames : path ≠ "lib" ∧ path ≠ "test" ∧ ∀ platform : Platform, platform.text ≠ path := by
    simp only [documentFiles, List.mem_cons, Prod.mk.injEq, List.not_mem_nil, or_false] at hdocument
    rcases hdocument with ⟨rfl, -⟩ | ⟨rfl, -⟩ | ⟨rfl, -⟩ | ⟨rfl, -⟩ <;>
      refine ⟨by decide, by decide, fun platform => ?_⟩ <;> cases platform <;> decide
  obtain ⟨hlib, htest, hplatform⟩ := hnames
  generalize hsteps : path :: more = steps at h
  cases h with
  | document hmem hrender =>
      obtain ⟨-, rfl⟩ := List.cons.inj hsteps
      exact ⟨rfl, _, rfl⟩
  | native hweb hitem => exact absurd (List.cons.inj hsteps).1.symm (hplatform _)
  | _ => exact absurd (List.cons.inj hsteps).1 (by assumption)

theorem platform_ne_lib (platform : Platform) : platform.text ≠ "lib" := by
  cases platform <;> decide

/-- In the directory of the library nothing but files are added, apart from that of the sources. -/
theorem file_of_library {name : String} (hname : name ≠ "src") {more : List String}
    (h : Added settings s ("lib" :: name :: more) item) :
    more = [] ∧ ∃ content, item = .file content := by
  generalize hsteps : "lib" :: name :: more = steps at h
  cases h with
  | library text hname =>
      obtain ⟨-, rfl⟩ : _ ∧ more = [] := by simpa using hsteps
      exact ⟨rfl, _, rfl⟩
  | native hweb hitem => exact absurd (List.cons.inj hsteps).1.symm (platform_ne_lib _)
  | _ => simp_all

theorem file_of_source {name : String} {more : List String}
    (h : Added settings s ("lib" :: "src" :: name :: more) item) :
    more = [] ∧ ∃ content, item = .file content := by
  generalize hsteps : "lib" :: "src" :: name :: more = steps at h
  cases h with
  | source name text =>
      obtain ⟨-, rfl⟩ : _ ∧ more = [] := by simpa using hsteps
      exact ⟨rfl, _, rfl⟩
  | native hweb hitem => exact absurd (List.cons.inj hsteps).1.symm (platform_ne_lib _)
  | _ => simp_all

end Added

theorem lookup_of_renderPlan {l : Layout} {template text : String}
    (h : renderPlan settings.strictTemplates [l.file path template] = .ok contents)
    (hlookup : contents.lookup path = some text) :
    Catalogue.standard.render settings.strictTemplates template l.bindings = .ok text := by
  simp only [renderPlan, Layout.file, PlanEntry.rendered, PlanEntry.source?, PlanEntry.path] at h
  cases hrender : Catalogue.standard.render settings.strictTemplates template l.bindings with
  | error fault => simp [hrender, bind, Except.bind] at h
  | ok content =>
      obtain rfl : [(path, content)] = contents := by
        simpa [hrender, bind, Except.bind, pure, Except.pure] using h
      simpa using hlookup

/-- What a plan of a single file adds: the file, and directories above it. -/
theorem cases_of_newPlanned_file {l : Layout} {file template : String} (hinner : Path.IsInner file)
    (h : NewPlanned top [l.file file template] contents place item) :
    (item = .directory ∧ ∃ made, made <+: (Path.ofString file).steps.dropLast ∧
      place = top ++ made) ∨
      ∃ text, contents.lookup file = some text ∧ place = top ++ (Path.ofString file).steps ∧
        item = .file (.text text) := by
  rcases h.cases (isInnerPlan_file hinner) with ⟨hitem, hmade⟩ | hfile
  · exact .inl ⟨hitem, by simpa using hmade⟩
  · exact .inr (by simpa [NewFile] using hfile)

/-- The directories of the library, as far as they are on the way to its sources. -/
theorem added_of_prefix_src {made : List String} (h : made <+: ["lib", "src"]) :
    made = [] ∨ Added settings s made .directory := by
  simp only [List.prefix_cons_iff, List.prefix_nil] at h
  obtain rfl | ⟨rest, rfl, rfl | ⟨rest', rfl, rfl⟩⟩ := h
  · exact .inl rfl
  · exact .inr .lib
  · exact .inr .src

theorem added_of_prefix_lib {made : List String} (h : made <+: ["lib"]) :
    made = [] ∨ Added settings s made .directory :=
  added_of_prefix_src (h.trans ⟨["src"], rfl⟩)

theorem added_of_prefix_test {made : List String} (hnamed : s.name ≠ none) (h : made <+: ["test"]) :
    made = [] ∨ Added settings s made .directory := by
  simp only [List.prefix_cons_iff, List.prefix_nil] at h
  obtain rfl | ⟨rest, rfl, rfl⟩ := h
  · exact .inl rfl
  · exact .inr (.test hnamed)

/-- What a plan of a single file adds is known from where the file stands. -/
theorem added_of_file {l : Layout} {file template : String} {steps : List String}
    (hinner : Path.IsInner file) (hsteps : (Path.ofString file).steps = steps)
    (habove : ∀ made, made <+: steps.dropLast → made = [] ∨ Added settings s made .directory)
    (hfile : ∀ text, contents.lookup file = some text →
      Added settings s steps (.file (.text text)))
    (h : NewPlanned top [l.file file template] contents place item) :
    ∃ steps, place = top ++ steps ∧ (steps = [] ∨ Added settings s steps item) := by
  subst hsteps
  rcases cases_of_newPlanned_file hinner h with ⟨rfl, made, hmade, rfl⟩ | ⟨text, hlookup, rfl, rfl⟩
  · exact ⟨made, rfl, habove made hmade⟩
  · exact ⟨_, rfl, .inr (hfile text hlookup)⟩

/-- A file among the sources of the library, with the directories above it. -/
theorem added_of_source (hs : s.Sound) {l : Layout} {template ending : String}
    (hdots : ending.toList.count '.' ≤ 1) (hslash : '/' ∉ ending.toList)
    (hlength : 2 ≤ ending.toList.length)
    (h : NewPlanned top [l.file ("lib/src/" ++ s.layout.model.name ++ ending) template] contents
      place item) :
    ∃ steps, place = top ++ steps ∧ (steps = [] ∨ Added settings s steps item) := by
  have hinner := isInner_around "lib/src/" ending
    (Layout.dot_not_mem_name hs.named) (by decide) ⟨'l', by decide, by decide⟩
      (by simpa using hdots)
  exact added_of_file hinner (Layout.steps_source hs.named _ hslash hlength)
    (fun _ => added_of_prefix_src) (fun _ _ => .source _ _) h

/-- The native part for a platform, with the directories above it. -/
theorem added_of_pluginStub (hs : s.Sound) (platform : Platform)
    (h : NewPlanned top [s.layout.pluginStub platform] contents place item) :
    ∃ steps, place = top ++ steps ∧ (steps = [] ∨ Added settings s steps item) := by
  have hinner := Layout.isInner_pluginStubPath hs.named platform
  by_cases hweb : platform = .web
  · subst hweb
    exact added_of_file hinner (Layout.steps_webPath hs.named) (fun _ => added_of_prefix_lib)
      (fun _ _ => .library _ (.inr rfl)) h
  · obtain ⟨more, hmore, hsteps⟩ := Layout.steps_pluginStubPath (m := s.layout.model) hweb
    refine added_of_file hinner hsteps (fun made hmade => ?_)
      (fun _ _ => .native hweb fun hnil => absurd hnil hmore) h
    rw [List.dropLast_cons_of_ne_nil hmore, List.prefix_cons_iff] at hmade
    rcases hmade with rfl | ⟨rest, rfl, -⟩
    · exact .inl rfl
    · exact .inr (.native hweb fun _ => rfl)

theorem Fix.added (hs : s.Sound) (h : Fix s d path entries)
    (hcontents : renderPlan settings.strictTemplates entries = .ok contents)
    (hnew : NewPlanned top entries contents place item) :
    ∃ steps, place = top ++ steps ∧ (steps = [] ∨ Added settings s steps item) := by
  have hinner := h.isInnerPlan hs
  -- what a fix adds is its file, or a directory on the way to it
  cases h with
  | document hdocument hmissing =>
      obtain ⟨hsteps, hinner⟩ := steps_document hdocument
      exact added_of_file hinner hsteps (fun made hmade => .inl (by simpa using hmade))
        (fun text hlookup => .document hdocument (lookup_of_renderPlan hcontents hlookup)) hnew
  | sources hmissing =>
      rw [directoryEntry_lib] at hinner hnew
      have hsteps : (Path.ofString "lib").steps = ["lib"] := Path.steps_of_isStep (by decide)
      rcases hnew.cases hinner with ⟨rfl, hmade⟩ | hfile
      · obtain ⟨made, hinit, rfl⟩ : ∃ made, made <+: ["lib"] ∧ place = top ++ made := by
          simpa [hsteps] using hmade
        exact ⟨made, rfl, added_of_prefix_lib hinit⟩
      · simp [NewFile] at hfile
  | library hmissing =>
      have hlibrary := Layout.steps_libraryPath hs.named
      have hbase := Layout.steps_source hs.named "_base.dart" (by decide) (by decide)
      rcases hnew.cases hinner with ⟨rfl, hmade⟩ | hfile
      · obtain ⟨made, hinit | hinit, rfl⟩ : ∃ made, (made <+: ["lib"] ∨ made <+: ["lib", "src"]) ∧
            place = top ++ made := by
          simpa [Layout.library, hlibrary, hbase, or_and_right, exists_or] using hmade
        · exact ⟨made, rfl, added_of_prefix_lib hinit⟩
        · exact ⟨made, rfl, added_of_prefix_src hinit⟩
      · obtain ⟨file, hmem, text, -, rfl, rfl⟩ := hfile
        simp only [Layout.library, plannedFiles_file, plannedFiles_nil, List.mem_cons,
          List.not_mem_nil, or_false] at hmem
        rcases hmem with rfl | rfl
        · exact ⟨_, rfl, .inr (hlibrary ▸ .library _ (.inl rfl))⟩
        · exact ⟨_, rfl, .inr (hbase ▸ .source _ _)⟩
  | tests hnamed hmissing =>
      rw [directoryEntry_test] at hinner hnew
      have hdirectory : (Path.ofString "test").steps = ["test"] := Path.steps_of_isStep (by decide)
      have hsteps := Layout.steps_testPath hs.named
      rcases hnew.cases hinner with ⟨rfl, hmade⟩ | hfile
      · obtain ⟨made, hinit, rfl⟩ : ∃ made, made <+: ["test"] ∧ place = top ++ made := by
          simpa [Layout.test, hdirectory, hsteps] using hmade
        exact ⟨made, rfl, added_of_prefix_test hnamed hinit⟩
      · obtain ⟨file, hmem, text, -, rfl, rfl⟩ := hfile
        obtain rfl : file = "test/" ++ s.layout.model.name ++ "_test.dart" := by
          simpa [Layout.test] using hmem
        exact ⟨_, rfl, .inr (hsteps ▸ .firstTest _ _ hnamed)⟩
  | part hentry hmissing =>
      rcases hentry with rfl | rfl
      · exact added_of_source hs (by decide) (by decide) (by decide) hnew
      · exact added_of_source hs (by decide) (by decide) (by decide) hnew
  | native platform hmissing => exact added_of_pluginStub hs platform hnew

/-! ## Where a planned file stands -/

/-- What is missing is missing, or it is a native part without content. -/
theorem Fix.missing (h : Fix s d path entries) :
    d.exists? (s.inside path) = .ok false ∨ ∃ platform,
      path = nativePath s.layout.model.name platform ∧
        hasContent d (s.inside path) = .ok false := by
  cases h with
  | native platform hmissing => exact .inr ⟨platform, rfl, hmissing⟩
  | part hentry hmissing => exact .inl hmissing
  | document hdocument hmissing => exact .inl hmissing
  | sources hmissing => exact .inl hmissing
  | library hmissing => exact .inl hmissing
  | tests hnamed hmissing => exact .inl hmissing

theorem Fix.hasContent_eq_false (h : Fix s d path entries) :
    hasContent d (s.inside path) = .ok false := by
  rcases h.missing with hmissing | ⟨-, -, hempty⟩
  · exact hasContent_of_missing hmissing
  · exact hempty

/-- What is there, and is not the directory of a platform, needs no fix. -/
theorem not_fix_of_exists (hplatform : ∀ platform : Platform, platform.text ≠ path)
    (hslash : '/' ∉ path.toList) (hthere : d.exists? (s.inside path) = .ok true) :
    ¬ Fix s d path entries := by
  intro h
  rcases h.missing with hmissing | ⟨platform, hpath, -⟩
  · simp [hthere] at hmissing
  · exact nativePath_ne hplatform hslash platform hpath.symm

/-- Where the file of a fix stands, nothing else is ever added, and nothing below it. -/
theorem Fix.file_of_added (hs : s.Sound) (h : Fix s d path entries)
    (hfile : path ∈ plannedFiles entries)
    (more : List String) (hadded : Added settings s ((Path.ofString path).steps ++ more) item) :
    more = [] ∧ ∃ content, item = .file content := by
  have hsource : ∀ {ending : String}, '/' ∉ ending.toList → 2 ≤ ending.toList.length →
      Added settings s
        ((Path.ofString ("lib/src/" ++ s.layout.model.name ++ ending)).steps ++ more) item →
      more = [] ∧ ∃ content, item = .file content := by
    intro ending hslash hlength hadded
    rw [Layout.steps_source hs.named _ hslash hlength] at hadded
    exact hadded.file_of_source
  -- the file of a library is told from the directory of the sources by its length
  have hlibrary : ∀ {ending : String}, 4 ≤ ending.utf8ByteSize →
      Added settings s (["lib", s.layout.model.name ++ ending] ++ more) item →
      more = [] ∧ ∃ content, item = .file content := by
    intro ending hsize hadded
    refine Added.file_of_library (fun heq => ?_) hadded
    have hlength := congrArg String.utf8ByteSize heq
    have hthree : "src".utf8ByteSize = 3 := by decide
    rw [String.utf8ByteSize_append] at hlength
    omega
  cases h with
  | document hdocument hmissing =>
      rw [(steps_document hdocument).1] at hadded
      exact hadded.file_of_document hdocument
  | sources hmissing => simp [directoryEntry_lib] at hfile
  | library hmissing =>
      rw [Layout.steps_libraryPath hs.named] at hadded
      exact hlibrary (by decide) hadded
  | tests hnamed hmissing =>
      have htest : "test" = "test/" ++ s.layout.model.name ++ "_test.dart" := by
        simpa [directoryEntry_test, Layout.test] using hfile
      have hsteps := congrArg (fun path => (Path.ofString path).steps) htest
      simp only [Layout.steps_testPath hs.named,
        Path.steps_of_isStep (show Path.IsStep "test" by decide)] at hsteps
      simp at hsteps
  | part hentry hmissing =>
      rcases hentry with rfl | rfl
      · exact hsource (by decide) (by decide) hadded
      · exact hsource (by decide) (by decide) hadded
  | native platform hmissing =>
      by_cases hweb : platform = .web
      · subst hweb
        have hsteps : (Path.ofString (nativePath s.layout.model.name .web)).steps =
            ["lib", s.layout.model.name ++ "_web.dart"] := Layout.steps_webPath hs.named
        rw [hsteps] at hadded
        exact hlibrary (by decide) hadded
      · -- the directory of another platform is not the file in it
        have hpath : nativePath s.layout.model.name platform =
            Layout.pluginStubPath s.layout.model platform := by
          simpa [Layout.pluginStub] using hfile
        obtain ⟨steps, hne, hsteps⟩ := Layout.steps_pluginStubPath (m := s.layout.model) hweb
        rw [← hpath, nativePath_of_ne_web _ hweb,
          Path.steps_of_isStep (by cases platform <;> decide)] at hsteps
        exact absurd (List.cons.inj hsteps).2.symm hne

end PackageScaffold
