import PackageScaffold.Proofs.Catalogue.Signature
import PackageScaffold.Proofs.Review.Progress
import PackageScaffold.Proofs.Review.Run

/-!
# What can still be looked at

A name that is too long for a directory is no obstacle as long as the directory is missing: nothing
is there.  Once a repair has made the directory, the name cannot be looked at any more.  A review
with repairs never does that to a path that rules look at, if it comes to a report:

* if the layout could not be checked, only documents were brought back, and no directories were
  made;
* if it could, every missing file of the library has a repair of its own, which has looked at the
  file after the directories were made.

So a review with repairs is `Progress`.
-/

namespace PackageScaffold

open Disk

variable {settings : Settings} {now : Moment} {strict : Bool} {root : Path} {d d₁ : Disk}
  {s : Subject} {top : List String} {log : RepairLog}

/-! ## Plans for the library -/

/-- The directories of the library. -/
def libraryDirectories : List (List String) := [["lib"], ["lib", "src"]]

/-- A plan that brings back a file of the library, in front of others if there are any. -/
structure LibraryPlan (strict : Bool) (path : String) (entries : List PlanEntry) : Prop where
  steps : ∃ directory ∈ libraryDirectories, ∃ name, 3 ≤ name.utf8ByteSize ∧
    (Path.ofString path).steps = directory ++ [name]
  rendered : (renderPlan strict entries).isOk = true
  first : (plannedFiles entries).head? = some path
  directories : plannedDirectories entries = []
  parents : ∀ file ∈ plannedFiles entries, (Path.ofString file).steps.dropLast ∈ libraryDirectories

theorem size_named {name ending : String} (h : 3 ≤ ending.utf8ByteSize) :
    3 ≤ (name ++ ending).utf8ByteSize := by
  rw [String.utf8ByteSize_append]
  omega

section Sound

variable (hs : s.Sound)

include hs

theorem libraryPlan_library (strict : Bool) :
    LibraryPlan strict (Layout.libraryPath s.layout.model) s.layout.library where
  steps := ⟨["lib"], by simp [libraryDirectories], _, size_named (by decide),
    Layout.steps_libraryPath hs.named⟩
  rendered := by
    obtain ⟨today, hlayout⟩ := hs.layout_eq
    rw [hlayout]
    exact isOk_renderPlan_library strict _ _
  first := by simp [Layout.library]
  directories := by simp [Layout.library]
  parents := by
    simp only [Layout.library, plannedFiles_file, plannedFiles_nil, List.forall_mem_cons]
    rw [Layout.steps_libraryPath hs.named,
      Layout.steps_source hs.named "_base.dart" (by decide) (by decide)]
    simp [libraryDirectories]

/-- A plan for a single file of the library. -/
theorem libraryPlan_file (strict : Bool) {path name : String}
    (hname : name ∈ Catalogue.standard.map Prod.fst) (directory : List String) {ending : String}
    (hdirectory : directory ∈ libraryDirectories) (hending : 3 ≤ ending.utf8ByteSize)
    (hsteps : (Path.ofString path).steps = directory ++ [s.layout.model.name ++ ending]) :
    LibraryPlan strict path [s.layout.file path name] where
  steps := ⟨directory, hdirectory, _, size_named hending, hsteps⟩
  rendered := by
    obtain ⟨today, hlayout⟩ := hs.layout_eq
    rw [hlayout]
    exact isOk_renderPlan_builtIn strict _ _ hname path
  first := by simp
  directories := by simp
  parents := by simpa [hsteps] using hdirectory

theorem libraryPlan_part (strict : Bool) {entry : PlanEntry}
    (hentry : entry = s.layout.platformInterface ∨ entry = s.layout.methodChannel) :
    LibraryPlan strict entry.path [entry] := by
  rcases hentry with rfl | rfl
  · have hname : "dart/platform_interface" ∈ Catalogue.standard.map Prod.fst := by decide +kernel
    exact libraryPlan_file hs strict hname ["lib", "src"] (by simp [libraryDirectories]) (by decide)
      (Layout.steps_source hs.named _ (by decide) (by decide))
  · have hname : "dart/method_channel" ∈ Catalogue.standard.map Prod.fst := by decide +kernel
    exact libraryPlan_file hs strict hname ["lib", "src"] (by simp [libraryDirectories]) (by decide)
      (Layout.steps_source hs.named _ (by decide) (by decide))

theorem libraryPlan_web (strict : Bool) :
    LibraryPlan strict (nativePath s.layout.model.name .web) [s.layout.pluginStub .web] := by
  have hname : "native/plugin/" ++ Platform.web.text ∈ Catalogue.standard.map Prod.fst := by
    decide +kernel
  exact libraryPlan_file hs strict hname ["lib"] (by simp [libraryDirectories]) (by decide)
    (Layout.steps_webPath hs.named)

end Sound

/-! ## Missing files of the library -/

/-- Where the layout was checked, a file of the library that is missing has a repair. -/
theorem exists_libraryPlan (hs : s.Sound) {checks : List Check}
    (hchecks : checkLayout s d = .ok checks) (strict : Bool) {path : String}
    (hpath : LookedAt s path)
    (hmissing : d.exists? (s.inside path) = .ok false) :
    (Path.IsStep path ∧ path ≠ "..") ∨
      ∃ entries, (path, entries) ∈ repairsOf s d ∧ LibraryPlan strict path entries := by
  cases hpath with
  | top hstep hback => exact .inl ⟨hstep, hback⟩
  | @library name hname =>
      have hplan := libraryPlan_library hs strict
      rw [Layout.libraryPath, hs.name_eq hname] at hplan
      exact .inr ⟨_, mem_repairsOf_library hchecks hname hmissing, hplan⟩
  | part hkind hnamed hentry =>
      obtain ⟨name, hname⟩ := Option.ne_none_iff_exists'.mp hnamed
      exact .inr ⟨_, mem_repairsOf_part hchecks hname hkind hentry hmissing,
        libraryPlan_part hs strict hentry⟩
  | @web name hkind hname hplatform =>
      have hplan := libraryPlan_web hs strict
      rw [hs.name_eq hname] at hplan
      exact .inr ⟨_, mem_repairsOf_native hchecks hname hkind hplatform
        (hasContent_of_missing hmissing),
        hplan⟩

/-- A directory of the library is not written longer than a file of the library. -/
theorem size_libraryDirectory_le {directory other : List String}
    (hdirectory : directory ∈ libraryDirectories) (hother : other ∈ libraryDirectories)
    {name : String}
    (hname : 3 ≤ name.utf8ByteSize) :
    (root.below other).text.utf8ByteSize ≤
      (root.below (directory ++ [name])).text.utf8ByteSize := by
  have hsrc := size_text_below_concat root (List.cons_ne_nil "lib" []) "src"
  have hlibrary := size_text_below_concat root (List.cons_ne_nil "lib" []) name
  have hsource := size_text_below_concat root (List.cons_ne_nil "lib" ["src"]) name
  have hthree : "src".utf8ByteSize = 3 := by decide
  simp only [libraryDirectories, List.mem_cons, List.not_mem_nil, or_false] at hdirectory hother
  rcases hdirectory with rfl | rfl <;> rcases hother with rfl | rfl <;>
    simp only [List.cons_append, List.nil_append] at hsrc hlibrary hsource ⊢ <;> omega

theorem fits_of_mem_libraryDirectories {directory : List String}
    (h : directory ∈ libraryDirectories) : ∀ step ∈ directory, Fits step := by
  simp only [libraryDirectories, List.mem_cons, List.not_mem_nil, or_false] at h
  rcases h with rfl | rfl <;> decide

theorem dropLast_prefix_of_mem_libraryDirectories {directory other : List String}
    (hdirectory : directory ∈ libraryDirectories) (hother : other ∈ libraryDirectories) :
    other.dropLast <+: directory := by
  simp only [libraryDirectories, List.mem_cons, List.not_mem_nil, or_false] at hdirectory hother
  rcases hdirectory with rfl | rfl <;> rcases hother with rfl | rfl <;> decide

namespace MendingReview

variable (h : MendingReview settings now strict root top s d d₁ log)

include h

/-- A repair has looked at the file that it is for, after its directories were made. -/
theorem reachable_of_libraryPlan {path : String} {entries : List PlanEntry}
    (hmem : (path, entries) ∈ repairsOf s d)
    (hplan : LibraryPlan settings.strictTemplates path entries)
    (hmissing : d.exists? (s.inside path) = .ok false) :
    ∃ isThere, d₁.exists? (s.inside path) = .ok isThere := by
  obtain ⟨before, last, result, hbefore, hrepaired, hlast⟩ := h.exists_repaired hmem
  have hinner := h.isInnerPlan _ hmem
  have hfile := hinner.files path (List.mem_of_mem_head? hplan.first)
  -- the repair was stopped at one of the directories, or came as far as the file
  rcases hrepaired.reached hplan.rendered with ⟨wanted, hwanted, hblocked⟩ | hreached
  · obtain ⟨directory, hdirectory, name, hname, hsteps⟩ := hplan.steps
    have hother : (Path.ofString wanted).steps ∈ libraryDirectories := by
      rcases hinner.cases_of_mem_wantedDirectories hwanted with hplanned | ⟨file, hmem, hparent⟩
      · simp [hplan.directories] at hplanned
      · exact hparent ▸ hplan.parents file hmem
    have hblocked := hblocked.grows hlast
    rw [Path.extend_eq_below (hinner.wanted _ hwanted)] at hblocked
    rw [h.inside, Path.extend_eq_below hfile, hsteps] at hmissing ⊢
    by_cases hnull : (root.below (directory ++ [name])).hasNull = true
    · exact ⟨false, by rw [exists?_eq, if_pos hnull]⟩
    · have hsize := size_le_of_exists? (by simpa using hnull) hmissing
      have hback : name ≠ ".." := by
        rintro rfl
        exact absurd hname (by decide)
      exact exists?_ok_of_blocked (h.rooted.grows h.grows)
        (fits_of_mem_libraryDirectories hdirectory)
        hback hsize (fits_of_mem_libraryDirectories hother)
        (dropLast_prefix_of_mem_libraryDirectories hdirectory hother)
        (Nat.le_trans (size_libraryDirectory_le hdirectory hother hname) hsize) hblocked
  · obtain ⟨hparent, isThere, hexists⟩ := hreached path hplan.first
    rw [h.inside]
    exact exists?_ok_of_hasParent (h.rooted.grows (hbefore.trans hrepaired.adds.grows))
      hfile hparent
      hexists hlast

/-- Where the layout could not be checked, only files were added. -/
theorem adds_files {failure : Failure} (hlayout : checkLayout s d = .error failure) :
    Adds (fun _ item => item ≠ .directory) d d₁ := by
  have hadds := (repairAll_spec h.rooted h.isInnerPlan h.run).1
  refine ⟨hadds.working, hadds.keeps, fun {place item} hnone hsome => ?_⟩
  obtain ⟨⟨path, entries⟩, hmem, contents, -, hnew⟩ := hadds.adds hnone hsome
  rcases cases_of_mem_repairs hmem with ⟨checks, hchecks, -⟩ | ⟨template, hdocument, -, rfl⟩
  · simp [hlayout] at hchecks
  · obtain ⟨hsteps, hinner⟩ := steps_document hdocument
    rcases cases_of_newPlanned_file hinner hnew with ⟨-, made, hmade, rfl⟩ | ⟨text, -, -, rfl⟩
    · obtain rfl : made = [] := by simpa [hsteps] using hmade
      rw [List.append_nil, h.rooted.isDirectory] at hnone
      simp at hnone
    · simp

/-- What rules look at can be looked at still. -/
theorem reachable {path : String} (hpath : LookedAt s path) {wasThere : Bool}
    (hexists : d.exists? (s.inside path) = .ok wasThere) :
    ∃ isThere, d₁.exists? (s.inside path) = .ok isThere := by
  cases hlayout : checkLayout s d with
  | error failure => exact exists?_ok_of_adds (h.adds_files hlayout) hexists
  | ok checks =>
      cases wasThere with
      | true => exact ⟨true, exists?_true_of_grows hexists h.grows⟩
      | false =>
          rcases exists_libraryPlan h.sound hlayout settings.strictTemplates hpath hexists with
            ⟨hstep, hback⟩ | ⟨entries, hmem, hplan⟩
          · rw [h.inside_of_isStep hstep hback] at hexists ⊢
            exact exists?_ok_of_grows h.rooted [] (by simpa using hback.symm)
              (by simp [h.rooted.isDirectory]) hexists h.grows
          · exact h.reachable_of_libraryPlan hmem hplan hexists

/-- A review with repairs only adds what checks can take. -/
theorem progress : Progress s d d₁ where
  grows := h.grows
  metadata := by
    refine h.itemAt_eq_of_not_added (by decide) (by decide) fun item hadded => ?_
    have hmem := hadded.first_mem
    revert hmem
    decide
  directory name hname hmissing content hfile := by
    have hstep : Path.IsStep name ∧ name ≠ ".." ∧ Path.isNullStep name = false ∧
        ∀ template, (name, template) ∉ documentFiles := by
      simp only [List.mem_cons, List.not_mem_nil, or_false] at hname
      rcases hname with rfl | rfl
      · exact ⟨by decide, by decide, by decide, by simp [documentFiles, readmeFile, analysisFile]⟩
      · exact ⟨by decide, by decide, by decide, by simp [documentFiles, readmeFile, analysisFile]⟩
    obtain ⟨hstep, hback, hnull, hdocument⟩ := hstep
    obtain ⟨template, _, hmem, -⟩ :=
      (h.added_of_missing hstep hback hnull hmissing hfile).document_of_file
    exact hdocument template hmem
  test hnamed := by
    refine h.itemAt_eq_of_not_added (by decide) (by decide) fun item hadded => ?_
    exact hadded.named_of_test hnamed
  reachable := h.reachable

/-- The metadata are those that were read. -/
theorem subject_after (today : Date) :
    Subject.ofDisk settings today strict root d₁ = Subject.ofDisk settings today strict root d := by
  have hmetadata := h.progress.metadata
  rw [h.inside] at hmetadata
  exact Subject.ofDisk_congr hmetadata

end MendingReview

end PackageScaffold
