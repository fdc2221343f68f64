import PackageScaffold.Proofs.Failing
import PackageScaffold.Proofs.Files.Preservation
import PackageScaffold.Proofs.Retrofit.Course
import PackageScaffold.Proofs.Session

/-!
# What a retrofit leaves alone

A retrofit has two plans with policies of their own, may be cancelled between them or inside of one,
and may fail midway.  Whatever becomes of it, nothing but a planned file can be another one
afterwards, and that only with leave; the metadata, the change log and the licence stay what they
are in any case.  What is wrong with a project is found before anything is written.

* `Retrofit.IsOpen`, `ComesTo.spares`: the places of files that may be replaced, and that all others are
  spared;
* `failsOnly_carryOutAllUntil`: once writing has begun, only the disk can get in the way;
* `retrofit_leaves`: what every retrofit leaves alone.
-/

namespace PackageScaffold

open Disk FileM

variable {d : Disk} {root : Path} {settings : Settings} {today : Date} {wanted : Conventions}
  {force : Bool}

namespace Retrofit

/-! ## Files that may be replaced -/

/-- The places where a retrofit may replace a file: with leave, those of the planned files that are
not kept in any case. -/
def IsOpen (settings : Settings) (today : Date) (wanted : Conventions) (force : Bool) (root : Path)
    (disk : Disk) (place : List String) : Prop :=
  force = true ∧ ∃ prepared, prepare settings today wanted root disk = .ok prepared ∧
    ∃ file ∈ plannedFiles prepared.entries, file ∉ preservedFiles ∧
      place = disk.place (root.extend file)

theorem mem_plannedFiles_filter {entries : List PlanEntry} (isKept : String → Bool) {file : String}
    (h : file ∈ plannedFiles (entries.filter fun entry => isKept entry.path)) :
    file ∈ plannedFiles entries ∧ isKept file = true := by
  obtain ⟨entry, hentry, rfl⟩ := List.mem_map.mp h
  obtain ⟨hmem, hfile⟩ := List.mem_filter.mp hentry
  obtain ⟨hmem, hkept⟩ := List.mem_filter.mp hmem
  exact ⟨List.mem_map_of_mem (List.mem_filter.mpr ⟨hmem, hfile⟩), hkept⟩

/-- A retrofit spares everything but the files that it may replace. -/
theorem ComesTo.spares {result : Except Failure Retrofit} {after : Disk}
    (h : ComesTo settings today wanted force root d result after) :
    Spares (IsOpen settings today wanted force root d) d after := by
  obtain ⟨span, order, horder, hrun⟩ := h.exists_span
  rw [outcome_retrofitUntil] at hrun
  cases hprepare : prepare settings today wanted root d with
  | error failure =>
      rw [hprepare] at hrun
      obtain ⟨-, rfl⟩ := Prod.mk.injEq .. ▸ hrun
      exact .refl _ d
  | ok prepared =>
      rw [hprepare] at hrun
      obtain ⟨subject, hprepared⟩ := exists_prepared hprepare
      have hroot : prepared.outset.root = root := by rw [hprepared.outset]
      have hplan : ∀ {entries policy} (span : Span), (policy = Policy.overwrite →
          ∀ file ∈ plannedFiles entries, IsOpen settings today wanted force root d
            (d.place (root.extend file))) →
            Keeps (Spares (IsOpen settings today wanted force root d) d)
              (carryOutUntil span order entries root prepared.contents policy) := by
        intro entries policy span hopen
        refine keeps_carryOutUntil horder
          (fun directories _ => keeps_of_grows fun _ => keeps_makeMissing root directories)
          fun files hfiles => keeps_writeFiles_of (fun file hfile text _ => ?_) none
        exact keeps_writeFile_sparing _ fun hover => hopen (by simpa using hover) file
          (hfiles hfile)
      -- only the first of the two plans replaces files, and only those that it need not preserve
      have hplans : ∀ plan ∈ batches force prepared.entries, ∀ span : Span,
          Keeps (Spares (IsOpen settings today wanted force root d) d)
            (carryOutUntil span order plan.1 prepared.outset.root prepared.contents plan.2) := by
        simp only [batches, List.forall_mem_cons, hroot]
        refine ⟨fun span => hplan span fun hover file hfile => ?_, fun span => hplan span (by simp),
          by simp⟩
        obtain ⟨hmem, hkept⟩ := mem_plannedFiles_filter (!preservedFiles.contains ·) hfile
        cases force with
        | false => simp at hover
        | true => exact ⟨rfl, prepared, hprepare, file, hmem, by simpa using hkept, rfl⟩
      have hspares := keeps_carryOutAllUntil span hplans d (.refl _ d)
      simp only at hrun
      rwa [hrun] at hspares

/-- The metadata are no file of the conventions. -/
theorem metadataFile_not_mem {l : Layout} (hname : Name.isPackageName l.model.name = true)
    {named : Bool} : metadataFile ∉ plannedFiles (l.conventions wanted named) := by
  rw [Layout.plannedFiles_conventions hname]
  intro hmem
  obtain ⟨entry, hentry, hpath⟩ := List.mem_map.mp hmem
  obtain ⟨steps, hfile⟩ := Layout.mem_conventionFiles_iff.mp hentry
  have hspells : Path.Spells entry.path steps := (Layout.isSpelled_convention hname hfile).1.spells
  have hsteps : steps = ["pubspec.yaml"] := by
    rw [← hspells.steps_eq, hpath]
    decide
  subst hsteps
  simp only [Layout.spelledConventions, List.mem_append] at hfile
  rcases hfile with (((h | h) | h) | h) | h
  all_goals first
    | split at h <;> simp at h
    | simp at h

/-- The places of the metadata and of the files that are kept in any case are not open. -/
theorem not_isOpen {name : String} (h : name ∈ metadataFile :: preservedFiles) :
    ¬ IsOpen settings today wanted force root d (d.place (root.extend name)) := by
  rintro ⟨-, prepared, hprepare, file, hfile, hkept, hplace⟩
  obtain ⟨subject, hprepared⟩ := exists_prepared hprepare
  obtain ⟨steps, hspells⟩ := hprepared.isNormalPlan_entries.exists_spells hfile
  obtain ⟨steps', hspells'⟩ : ∃ steps, Path.Spells name steps := by
    simp only [preservedFiles, List.mem_cons, List.not_mem_nil, or_false] at h
    rcases h with rfl | rfl | rfl
    · exact ⟨["pubspec.yaml"], by decide⟩
    · exact ⟨["CHANGELOG.md"], by decide⟩
    · exact ⟨["LICENSE"], by decide⟩
  rw [place_extend hspells.isInner, place_extend hspells'.isInner, hspells.steps_eq,
    hspells'.steps_eq] at hplace
  obtain rfl := List.append_cancel_left hplace
  obtain rfl := hspells.eq_of_steps_eq hspells'
  rcases List.mem_cons.mp h with rfl | hmem
  · rw [hprepared.entries] at hfile
    exact metadataFile_not_mem hprepared.named hfile
  · exact hkept hmem

end Retrofit

/-! ## Failures on the way -/

/-- The failures that work on a disk comes to. -/
def Failure.isOfDisk : Failure → Bool
  | .occupied _ | .refused _ _ | .unreachable _ | .nullInPath | .noContent _ => true
  | .misconfigured _ | .absent _ | .unreadableMetadata _ | .template _ | .invalid _ _ | .unbuildable _
  | .numberTooLong | .undecodable _ | .mistyped => false

theorem covers_isOfDisk (working : List String) (path : Path) :
    Covers working (fun failure => failure.isOfDisk = true) path where
  refused _ := rfl
  occupied := rfl
  look d _ failure h := by
    obtain ⟨-, -, rfl⟩ := exists?_error h
    rfl
  null _ := rfl
  draft _ _ _ := rfl

theorem failsOnly_carryOutUntil (working : List String) (span : Span)
    (order : List String → List String) (entries : List PlanEntry) (root : Path)
    (contents : Contents)
    (policy : Policy) :
    FailsOnly working (fun failure => failure.isOfDisk = true)
      (carryOutUntil span order entries root contents policy) := by
  refine .bind (failsOnly_makeMissing fun _ _ => covers_isOfDisk working _) fun made => ?_
  dsimp only
  split
  · exact .pure _
  · exact .bind (failsOnly_writeFiles (fun _ _ => covers_isOfDisk working _) (fun _ _ _ => rfl) _)
      fun _ => .pure _

/-- Once a retrofit has begun to write, only the disk can get in its way. -/
theorem failsOnly_carryOutAllUntil (working : List String) (order : List String → List String)
    (contents : Contents) (done : Retrofit) (span : Span) (plans : List (List PlanEntry × Policy)) :
    FailsOnly working (fun failure => failure.isOfDisk = true)
      (Retrofit.carryOutAllUntil order contents done span plans) := by
  induction plans generalizing done span with
  | nil => exact .pure _
  | cons plan rest ih =>
      rw [Retrofit.carryOutAllUntil]
      split
      · exact ih _ _
      · refine .bind (failsOnly_carryOutUntil _ _ _ _ _ _ _) fun ledger => ?_
        dsimp only
        split
        · exact .pure _
        · exact ih _ _

/-- A failure that is not one of the disk is found before anything is written. -/
theorem Retrofit.ComesTo.eq_of_not_isOfDisk {failure : Failure} {after : Disk}
    (h : ComesTo settings today wanted force root d (.error failure) after)
    (hearly : failure.isOfDisk = false) : after = d := by
  obtain ⟨span, order, -, hrun⟩ := h.exists_span
  rw [outcome_retrofitUntil] at hrun
  cases hprepare : prepare settings today wanted root d with
  | error found =>
      rw [hprepare] at hrun
      exact (congrArg Prod.snd hrun).symm
  | ok prepared =>
      rw [hprepare] at hrun
      have hfails : failure.isOfDisk = true := (failsOnly_carryOutAllUntil d.working order
        prepared.contents prepared.outset span (batches force prepared.entries) d rfl).2 failure
          (congrArg Prod.fst hrun)
      simp [hearly] at hfails

/-! ## What every retrofit leaves alone -/

/-- Whatever a retrofit comes to, every file but those that it may replace has the content that it
had, and the metadata, the change log and the licence have it in any case.  Where the project is not
one to be brought up to the conventions, or its metadata cannot be read, the disk is the one that it
was. -/
theorem retrofit_leaves {result : Except Failure Retrofit} {after : Disk}
    (h : Retrofit.ComesTo settings today wanted force root d result after) :
    (∀ place content, d.tree.item? place = some (.file content) →
      ¬ Retrofit.IsOpen settings today wanted force root d place →
        after.tree.item? place = some (.file content)) ∧
    (∀ name ∈ metadataFile :: preservedFiles, ∀ content,
      d.itemAt (root.extend name) = .ok (.file content) →
        after.itemAt (root.extend name) = .ok (.file content)) ∧
    (∀ failure, result = .error failure →
      ((∃ cause, failure = .misconfigured cause) ∨ ∃ reason, failure = .unreadableMetadata reason) →
        after = d) := by
  refine ⟨fun place content hfile hclosed => h.spares.item? hclosed hfile,
    fun name hname content hfile => h.spares.itemAt (Retrofit.not_isOpen hname) hfile, ?_⟩
  rintro failure rfl (⟨cause, rfl⟩ | ⟨reason, rfl⟩)
  · exact h.eq_of_not_isOfDisk rfl
  · exact h.eq_of_not_isOfDisk rfl

/-- With leave to replace files, an old description is replaced, while the licence and the metadata
stay what they are. -/
theorem retrofit_leaves_licence :
    let disk : Disk := { tree := .directory [("pubspec.yaml", .file (.text "name: x\n")),
      ("LICENSE", .file (.text "mine")), ("README.md", .file (.text "old"))] }
    let documents : Conventions := { analysis := false, workflow := false, tests := false }
    ∃ done after,
      Retrofit.ComesTo .standard ⟨2025, 1, 1⟩ documents true .here disk (.ok done) after ∧
      done = { root := .here, kind := .package, name := some "x"
               files := ["README.md", ".gitignore", "CHANGELOG.md"], skipped := ["LICENSE"] } ∧
      after.itemAt (Path.here.extend "LICENSE") = .ok (.file (.text "mine")) ∧
      after.itemAt (Path.here.extend "pubspec.yaml") = .ok (.file (.text "name: x\n")) := by
  intro disk documents
  have hrun : ((retrofit .standard ⟨2025, 1, 1⟩ documents true .here none).outcome disk).1 =
      .ok { root := .here, kind := .package, name := some "x"
            files := ["README.md", ".gitignore", "CHANGELOG.md"], skipped := ["LICENSE"] } := by
    decide +kernel
  have hcomes : Retrofit.ComesTo .standard ⟨2025, 1, 1⟩ documents true .here disk _ _ :=
    .allowed none (Prod.ext hrun rfl)
  obtain ⟨-, hnamed, -⟩ := retrofit_leaves hcomes
  exact ⟨_, _, hcomes, rfl, hnamed "LICENSE" (by decide) _ (by rfl),
    hnamed "pubspec.yaml" (by decide) _ (by rfl)⟩

end PackageScaffold
