import PackageScaffold.Proofs.Plan.Settled
import PackageScaffold.Proofs.Retrofit.Frame

/-!
# Retrofits that are repeated

A retrofit that was not cancelled has settled both of its plans, and the second plan cannot unsettle
the first one.  It has not touched the metadata either, so the same project is found afterwards,
with the same plans.  A second retrofit has nothing left to do.

* `prepare_of_spares`: the same project is found on a disk on which its metadata were spared;
* `isSettled_of_carryOutAllUntil`: plans that were not cancelled are settled;
* `keeps_of_isSettled`, `outcome_carryOutAll_of_rests`, `outcome_carryOutAllUntil_of_rests`: what settled
  plans come to;
* `Retrofit.IsIdle`, `Retrofit.exists_isIdle`: retrofits that find nothing to do;
* `retrofit_again`: a second retrofit is one of them.
-/

namespace PackageScaffold

open Disk FileM

variable {d d₁ : Disk} {root : Path} {contents : Contents} {settings : Settings} {today : Date}
  {wanted : Conventions} {force : Bool}

namespace Retrofit

/-! ## Finding the same project -/

section Spared

variable {isOpen : List String → Prop} (hspares : Spares isOpen d d₁)
  (hclosed : ¬ isOpen (d.place (root.extend metadataFile)))

include hspares hclosed

theorem subjectToRetrofit_of_spares {subject : Subject}
    (h : subjectToRetrofit settings today root d = .ok subject) :
    subjectToRetrofit settings today root d₁ = .ok subject := by
  obtain ⟨hdirectory, hmetadata, hread, hdefect⟩ := subjectToRetrofit_eq_ok_iff.mp h
  obtain ⟨top, hrooted⟩ := exists_rooted hdirectory
  obtain ⟨-, item, hitem⟩ := exists?_true_iff.mp hmetadata
  have hrooted' := hspares.rooted hrooted
  refine subjectToRetrofit_eq_ok_iff.mpr ⟨?_, hspares.exists?_true hmetadata, ?_, hdefect⟩
  · exact isDirectory_true_iff.mpr
      ⟨hrooted'.noNull, itemAt_of_locate hrooted'.located hrooted'.isDirectory⟩
  · rw [Subject.ofDisk_congr ((hspares.itemAt hclosed hitem).trans hitem.symm), hread]

/-- Where its metadata were spared, a project is prepared in the same way. -/
theorem prepare_of_spares {prepared : Preparation}
    (h : prepare settings today wanted root d = .ok prepared) :
    prepare settings today wanted root d₁ = .ok prepared := by
  unfold prepare at h ⊢
  obtain ⟨subject, hsubject, h⟩ := bind_eq_ok h
  rw [subjectToRetrofit_of_spares hspares hclosed hsubject]
  exact h

end Spared

/-! ## Settled plans -/

section Plans

variable {plans : List (List PlanEntry × Policy)} {done : Retrofit}
  {order : List String → List String} (horder : ∀ files, (order files).Perm files)

include horder

/-- Plans that were not cancelled are settled, as the later ones replace nothing. -/
theorem isSettled_of_carryOutAllUntil (hnormal : ∀ plan ∈ plans, IsNormalPlan plan.1)
    (hlater : plans.Pairwise fun _ later => later.2 ≠ .overwrite) {span : Span} {last : Retrofit}
    (hrun : (carryOutAllUntil order contents done span plans).outcome d = (.ok last, d₁))
    (hnot : last.cancelled = false) :
    ∀ plan ∈ plans, IsSettled done.root plan.2 contents plan.1 d₁ := by
  induction plans generalizing done span d with
  | nil => simp
  | cons plan rest ih =>
      obtain ⟨entries, policy⟩ := plan
      obtain ⟨hfirst, hrest⟩ := List.forall_mem_cons.mp hnormal
      obtain ⟨hkept, hrestLater⟩ := List.pairwise_cons.mp hlater
      rw [carryOutAllUntil] at hrun
      split at hrun
      · rename_i hempty
        obtain rfl : entries = [] := by simpa using hempty
        refine List.forall_mem_cons.mpr ⟨⟨?_, ?_, ?_⟩, ih hrest hrestLater hrun⟩ <;>
          simp [wantedDirectories, plannedDirectories, plannedFiles, impliedDirectories]
      · rw [outcome_bind] at hrun
        rcases hplan : (carryOutUntil span order entries done.root contents policy).outcome d
          with ⟨failure | ledger, middle⟩
        · simp [hplan] at hrun
        simp only [hplan] at hrun
        cases hcancelled : ledger.cancelled with
        | true =>
            simp only [hcancelled, if_true, outcome_pure, Prod.mk.injEq, Except.ok.injEq] at hrun
            obtain ⟨rfl, -⟩ := hrun
            simp [Retrofit.add, hcancelled] at hnot
        | false =>
            simp only [hcancelled, Bool.false_eq_true, if_false] at hrun
            have hsettled := (endsWithin_of_carryOutUntil hfirst horder hplan).isSettled hfirst
              hcancelled
            -- what is done for the other plans only adds to what is there
            have hgrows : Keeps (Grows middle) (carryOutAllUntil order contents (done.add ledger)
                (span.behind ((wantedDirectories entries).length + (plannedFiles entries).length))
                rest) := by
              refine keeps_carryOutAllUntil _ fun plan hplan span => ?_
              exact keeps_carryOutUntil_of_policy (by simpa using hkept plan hplan) _ _ _ _ _
            have hafter := hgrows middle (Adds.refl _ middle)
            rw [hrun] at hafter
            have hspares : Spares (fun _ => False) middle d₁ := .of_grows hafter
            have hothers := ih hrest hrestLater hrun
            exact List.forall_mem_cons.mpr ⟨hsettled.spares hspares fun _ _ _ => id, hothers⟩

/-- Settled plans leave the disk as it is. -/
theorem keeps_of_isSettled (hsettled : ∀ plan ∈ plans, IsSettled done.root plan.2 contents plan.1 d)
    (span : Span) : Keeps (· = d) (carryOutAllUntil order contents done span plans) :=
  keeps_carryOutAllUntil span fun plan hplan _ => (hsettled plan hplan).keeps horder

end Plans

/-! ## Settled plans that skip -/

section Skipping

/-- A plan that keeps existing files and has nothing left to be done. -/
structure Rests (root : Path) (contents : Contents) (disk : Disk) (plan : List PlanEntry × Policy) :
    Prop where
  normal : IsNormalPlan plan.1
  skips : plan.2 = .skip
  settled : IsSettled root plan.2 contents plan.1 disk

/-- The files of plans that are carried out in turn. -/
def filesOf (plans : List (List PlanEntry × Policy)) : List String :=
  plans.flatMap fun plan => plannedFiles plan.1

variable {plans : List (List PlanEntry × Policy)} {done : Retrofit} (hnot : done.cancelled = false)
  (hrests : ∀ plan ∈ plans, Rests done.root contents d plan)

include hnot hrests

omit hnot hrests in
theorem add_skipped (done : Retrofit) (files others : List String) (hnot : done.cancelled = false) :
    { done.add { skipped := files } with
        skipped := (done.add { skipped := files }).skipped ++ others } =
      { done with skipped := done.skipped ++ (files ++ others) } := by
  obtain ⟨_, _, _, _, _, _, _⟩ := done
  simpa [Retrofit.add] using hnot.symm

/-- Plans that rest skip all of their files, and that is all. -/
theorem outcome_carryOutAll_of_rests {allowance : Allowance} (hspent : allowance.isSpent = false) :
    (carryOutAll contents done allowance plans).outcome d =
      (.ok { done with skipped := done.skipped ++ filesOf plans }, d) := by
  induction plans generalizing done with
  | nil => simp [carryOutAll, filesOf]
  | cons plan rest ih =>
      obtain ⟨entries, policy⟩ := plan
      obtain ⟨⟨hnormal, rfl, hsettled⟩, hrest⟩ := List.forall_mem_cons.mp hrests
      rw [carryOutAll]
      split
      · rename_i hempty
        obtain rfl : entries = [] := by simpa using hempty
        exact ih hnot hrest
      · rw [outcome_bind, hsettled.outcome_carryOut hspent]
        have hadded : (done.add { skipped := plannedFiles entries }).cancelled = false := rfl
        have hothers := ih hadded hrest
        rw [add_skipped done _ _ hnot] at hothers
        exact hothers

/-- However their files are finished, plans that rest skip all of them. -/
theorem outcome_carryOutAllUntil_of_rests {order : List String → List String}
    (horder : ∀ files, (order files).Perm files) :
    (carryOutAllUntil order contents done none plans).outcome d =
      (.ok { done with skipped := done.skipped ++ filesOf plans }, d) := by
  induction plans generalizing done with
  | nil => simp [carryOutAllUntil, filesOf]
  | cons plan rest ih =>
      obtain ⟨entries, policy⟩ := plan
      obtain ⟨⟨hnormal, rfl, hsettled⟩, hrest⟩ := List.forall_mem_cons.mp hrests
      rw [carryOutAllUntil]
      split
      · rename_i hempty
        obtain rfl : entries = [] := by simpa using hempty
        exact ih hnot hrest
      · rw [outcome_bind, hsettled.outcome_carryOutUntil horder]
        have hadded : (done.add { skipped := plannedFiles entries }).cancelled = false := rfl
        have hothers := ih hadded hrest
        rw [add_skipped done _ _ hnot] at hothers
        exact hothers

end Skipping

/-- The plans of a retrofit have the files of the conventions, each once. -/
theorem filesOf_batches (force : Bool) (entries : List PlanEntry) :
    (filesOf (batches force entries)).Perm (plannedFiles entries) := by
  have hparts := (List.filter_append_perm (!preservedFiles.contains ·.path) entries).filter
    (!PlanEntry.isDirectory ·)
  simpa [filesOf, batches, plannedFiles] using hparts.map PlanEntry.path

/-- Behind a retrofit that was not cancelled, the same project is prepared, and its plans are
settled. -/
theorem ComesTo.isSettled {done : Retrofit} {after : Disk}
    (h : ComesTo settings today wanted force root d (.ok done) after)
    (hnot : done.cancelled = false) :
    ∃ subject prepared, prepare settings today wanted root d = .ok prepared ∧
      prepare settings today wanted root after = .ok prepared ∧
      Prepared settings today wanted root after subject prepared ∧
      ∀ plan ∈ batches force prepared.entries,
        IsSettled prepared.outset.root plan.2 prepared.contents plan.1 after := by
  obtain ⟨span, order, horder, hrun⟩ := h.exists_span
  rw [outcome_retrofitUntil] at hrun
  cases hbefore : prepare settings today wanted root d with
  | error failure => simp [hbefore] at hrun
  | ok prepared =>
      have hprepare := prepare_of_spares h.spares (not_isOpen List.mem_cons_self) hbefore
      obtain ⟨subject, hprepared⟩ := exists_prepared hprepare
      rw [hbefore] at hrun
      exact ⟨subject, prepared, rfl, hprepare, hprepared,
        isSettled_of_carryOutAllUntil horder (hprepared.isNormalPlan force) (by simp [batches]) hrun
          hnot⟩

end Retrofit

/-- A retrofit that keeps existing files and finds nothing to do.  Unless it is cancelled before it
begins, it comes to an end: it has skipped every planned file, and the disk is exactly as it was. -/
structure Retrofit.IsIdle (settings : Settings) (today : Date) (wanted : Conventions) (root : Path)
    (disk : Disk) (prepared : Preparation) (done : Retrofit) : Prop where
  prepares : prepare settings today wanted root disk = .ok prepared
  allowed : ∀ allowance, allowance ≠ some 0 →
    (retrofit settings today wanted false root allowance).outcome disk = (.ok done, disk)
  spanned : ∀ order : List String → List String, (∀ files, (order files).Perm files) →
    (retrofitUntil none order settings today wanted false root).outcome disk = (.ok done, disk)
  directories : done.directories = []
  files : done.files = []
  skipped : done.skipped.Perm (plannedFiles prepared.entries)
  cancelled : done.cancelled = false

/-- Where its plans are settled, a retrofit that keeps existing files is idle. -/
theorem Retrofit.exists_isIdle {subject : Subject} {prepared : Preparation}
    (hprepare : prepare settings today wanted root d = .ok prepared)
    (hprepared : Prepared settings today wanted root d subject prepared)
    (hsettled : ∀ plan ∈ batches false prepared.entries,
      IsSettled prepared.outset.root plan.2 prepared.contents plan.1 d) :
    ∃ done, IsIdle settings today wanted root d prepared done := by
  have hrests : ∀ plan ∈ batches false prepared.entries,
      Rests prepared.outset.root prepared.contents d plan := by
    intro plan hplan
    refine ⟨hprepared.isNormalPlan false plan hplan, ?_, hsettled plan hplan⟩
    simp only [batches, List.mem_cons, List.not_mem_nil, or_false] at hplan
    rcases hplan with rfl | rfl <;> rfl
  have hrunning : prepared.outset.cancelled = false := by rw [hprepared.outset]
  refine ⟨{ prepared.outset with
    skipped := prepared.outset.skipped ++ filesOf (batches false prepared.entries) }, ?_⟩
  refine ⟨hprepare, fun allowance hspent => ?_, fun order horder => ?_, ?_, ?_, ?_, hrunning⟩
  · rw [outcome_retrofit, hprepare]
    exact outcome_carryOutAll_of_rests hrunning hrests (by simpa [Allowance.isSpent] using hspent)
  · rw [outcome_retrofitUntil, hprepare]
    exact outcome_carryOutAllUntil_of_rests hrunning hrests horder
  · rw [hprepared.outset]
  · rw [hprepared.outset]
  · simp only [hprepared.outset, List.nil_append]
    exact filesOf_batches false prepared.entries

/-- Once a retrofit has not been cancelled, every further one leaves the disk exactly as it is,
whatever becomes of it, and prepares the same project.  If existing files are kept, it is idle. -/
theorem retrofit_again {done : Retrofit} {after : Disk}
    (h : Retrofit.ComesTo settings today wanted force root d (.ok done) after)
    (hnot : done.cancelled = false) :
    (∀ result last, Retrofit.ComesTo settings today wanted force root after result last →
      last = after) ∧
    (force = false → ∃ prepared second,
      Retrofit.prepare settings today wanted root d = .ok prepared ∧
      Retrofit.IsIdle settings today wanted root after prepared second) := by
  obtain ⟨subject, prepared, hbefore, hprepare, hprepared, hsettled⟩ := h.isSettled hnot
  refine ⟨fun result last hagain => ?_, ?_⟩
  · obtain ⟨span, order, horder, hrun⟩ := hagain.exists_span
    rw [outcome_retrofitUntil, hprepare] at hrun
    have hkeeps := Retrofit.keeps_of_isSettled horder hsettled span after rfl
    simp only at hrun
    rwa [hrun] at hkeeps
  · rintro rfl
    obtain ⟨second, hidle⟩ := Retrofit.exists_isIdle hprepare hprepared hsettled
    exact ⟨prepared, second, hbefore, hidle⟩

/-- A first retrofit whose files are finished in reverse, and a second one that skips
all of them. -/
theorem retrofit_again_reversed :
    let disk : Disk := { tree := .directory [("pubspec.yaml", .file (.text "name: x\n")),
      ("README.md", .file (.text "old"))] }
    let documents : Conventions := { analysis := false, workflow := false, tests := false }
    ∃ done after second,
      Retrofit.ComesTo .standard ⟨2025, 1, 1⟩ documents false .here disk (.ok done) after ∧
      done = { root := .here, kind := .package, name := some "x"
               files := [".gitignore", "CHANGELOG.md", "LICENSE"], skipped := ["README.md"] } ∧
      (retrofit .standard ⟨2025, 1, 1⟩ documents false .here none).outcome after =
        (.ok second, after) ∧
      second.files = [] ∧ second.skipped.length = 4 := by
  intro disk documents
  have hrun : ((retrofitUntil none List.reverse .standard ⟨2025, 1, 1⟩ documents false .here).outcome
      disk).1 = .ok { root := .here, kind := .package, name := some "x"
                      files := [".gitignore", "CHANGELOG.md", "LICENSE"]
                      skipped := ["README.md"] } := by
    decide +kernel
  have hcomes : Retrofit.ComesTo .standard ⟨2025, 1, 1⟩ documents false .here disk _ _ :=
    .spanned none List.reverse List.reverse_perm (Prod.ext hrun rfl)
  obtain ⟨-, hkept⟩ := retrofit_again hcomes rfl
  obtain ⟨prepared, second, hprepare, hidle⟩ := hkept rfl
  have hplanned : (Retrofit.prepare .standard ⟨2025, 1, 1⟩ documents .here disk).map
      (fun prepared => (plannedFiles prepared.entries).length) = .ok 4 := by
    decide +kernel
  rw [hprepare] at hplanned
  exact ⟨_, _, second, hcomes, rfl, hidle.allowed none (by simp), hidle.files,
    hidle.skipped.length_eq.trans (Except.ok.inj hplanned)⟩

end PackageScaffold
