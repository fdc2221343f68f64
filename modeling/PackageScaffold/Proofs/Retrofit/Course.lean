import PackageScaffold.Project.Retrofit
import PackageScaffold.Proofs.Plan.Bookkeeping
import PackageScaffold.Proofs.Plan.Conventions
import PackageScaffold.Proofs.Review.Subject

/-!
# The course of a retrofit

A retrofit reads its project and renders what is missing before it writes anything.  Then it carries
out two plans, one of what may be replaced and one of what is kept in any case, and a cancellation
anywhere in the first one passes over the second.

* `Retrofit.prepare`, `Prepared`: what is known before anything is written;
* `Retrofit.carryOutAllUntil`, `retrofitUntil`: a retrofit that is cancelled anywhere, its files finished
  in any order;
* `carryOutUntil_of_not_cancelled`: a plan that was not cancelled does not depend on its span;
* `exists_span_retrofit`: what `retrofit` does until its allowance is spent is one of these runs;
* `Retrofit.ComesTo`: what a retrofit comes to, however it is cancelled.
-/

namespace PackageScaffold

open Disk FileM

variable {d : Disk} {root : Path} {policy : Policy} {contents : Contents} {settings : Settings}
  {today : Date} {wanted : Conventions} {force : Bool}

namespace Retrofit

/-! ## Preparation -/

/-- What is known of a retrofit before anything is written: its outset, its plan and the contents of
the files. -/
structure Preparation where
  outset : Retrofit
  entries : List PlanEntry
  contents : Contents

/-- Prepares the retrofit of the project at a path. -/
def prepare (settings : Settings) (today : Date) (wanted : Conventions) (root : Path) (disk : Disk) :
    Except Failure Preparation := do
  let subject ← subjectToRetrofit settings today root disk
  let entries := subject.layout.conventions wanted subject.name.isSome
  match renderPlan settings.strictTemplates entries with
  | .error fault => throw (.template fault)
  | .ok contents =>
    return { outset := { root, kind := subject.kind, name := subject.name }, entries, contents }

/-- The plans of a retrofit, each with its policy: what may be replaced, and what is kept
in any case. -/
def batches (force : Bool) (entries : List PlanEntry) : List (List PlanEntry × Policy) :=
  [(entries.filter (!preservedFiles.contains ·.path), if force then .overwrite else .skip),
   (entries.filter (preservedFiles.contains ·.path), .skip)]

/-- A retrofit is prepared, and then its plans are carried out. -/
theorem outcome_retrofit (settings : Settings) (today : Date) (wanted : Conventions) (force : Bool)
    (root : Path) (allowance : Allowance) (d : Disk) :
    (retrofit settings today wanted force root allowance).outcome d =
      match prepare settings today wanted root d with
      | .error failure => (.error failure, d)
      | .ok prepared => (carryOutAll prepared.contents prepared.outset allowance
          (batches force prepared.entries)).outcome d := by
  rw [retrofit, outcome_bind, outcome_inspect, prepare]
  cases subjectToRetrofit settings today root d with
  | error failure => rfl
  | ok subject =>
      simp only [bind, Except.bind]
      cases renderPlan settings.strictTemplates
        (subject.layout.conventions wanted subject.name.isSome) <;> rfl

/-- A project is read if it is a directory with metadata that can be read. -/
theorem subjectToRetrofit_eq_ok_iff {subject : Subject} :
    subjectToRetrofit settings today root d = .ok subject ↔
      d.isDirectory root = .ok true ∧ d.exists? (root.extend metadataFile) = .ok true ∧
        Subject.ofDisk settings today false root d = .ok subject ∧ subject.defect = none := by
  unfold subjectToRetrofit
  rcases d.isDirectory root with failure | isDirectory
  · simp [bind, Except.bind]
  cases isDirectory with
  | false => simp [bind, Except.bind, throw, throwThe, MonadExceptOf.throw]
  | true =>
      rcases d.exists? (root.extend metadataFile) with failure | isThere
      · simp [bind, Except.bind]
      cases isThere with
      | false => simp [bind, Except.bind, throw, throwThe, MonadExceptOf.throw]
      | true =>
          rcases Subject.ofDisk settings today false root d with failure | found
          · simp [bind, Except.bind]
          · simp only [bind, Except.bind, Bool.not_true, Bool.false_eq_true, if_false, true_and,
              Except.ok.injEq]
            constructor
            · intro h
              split at h
              · simp at h
              · obtain rfl := Except.ok.inj h
                exact ⟨rfl, ‹_›⟩
            · rintro ⟨rfl, hdefect⟩
              rw [hdefect]
              rfl

/-- What is known once a retrofit has been prepared: a project was read at its root, and its plan is
that of the conventions for this project. -/
structure Prepared (settings : Settings) (today : Date) (wanted : Conventions) (root : Path)
    (disk : Disk) (subject : Subject) (prepared : Preparation) : Prop where
  read : subjectToRetrofit settings today root disk = .ok subject
  named : Name.isPackageName subject.layout.model.name = true
  outset : prepared.outset = { root, kind := subject.kind, name := subject.name }
  entries : prepared.entries = subject.layout.conventions wanted subject.name.isSome
  contents : renderPlan settings.strictTemplates prepared.entries = .ok prepared.contents

theorem exists_prepared {prepared : Preparation}
    (h : prepare settings today wanted root d = .ok prepared) :
    ∃ subject, Prepared settings today wanted root d subject prepared := by
  unfold prepare at h
  obtain ⟨subject, hsubject, h⟩ := bind_eq_ok h
  obtain ⟨-, -, hread, -⟩ := subjectToRetrofit_eq_ok_iff.mp hsubject
  cases hrender : renderPlan settings.strictTemplates
      (subject.layout.conventions wanted subject.name.isSome) with
  | error fault => simp [hrender] at h
  | ok contents =>
      simp only [hrender] at h
      obtain rfl := Except.ok.inj h
      exact ⟨subject, hsubject, (Subject.sound_of_ofDisk hread).named, rfl, rfl, hrender⟩

theorem Prepared.isNormalPlan_entries {subject : Subject} {prepared : Preparation}
    (h : Prepared settings today wanted root d subject prepared) :
    IsNormalPlan prepared.entries := by
  rw [h.entries]
  exact Layout.isNormalPlan_conventions h.named

/-- Each plan of a retrofit is normal. -/
theorem Prepared.isNormalPlan {subject : Subject} {prepared : Preparation}
    (h : Prepared settings today wanted root d subject prepared) (force : Bool) :
    ∀ plan ∈ batches force prepared.entries, IsNormalPlan plan.1 := by
  have hwhole := h.isNormalPlan_entries
  have hfilter : ∀ isKept : PlanEntry → Bool, IsNormalPlan (prepared.entries.filter isKept) :=
    fun isKept => ⟨fun entry hentry => hwhole.spelled entry (List.mem_filter.mp hentry).1,
      hwhole.distinct.sublist (List.filter_sublist.map PlanEntry.path)⟩
  simp only [batches, List.forall_mem_cons]
  exact ⟨hfilter _, hfilter _, by simp⟩

/-! ## Runs within a span -/

/-- Carries out plans in turn, each with its policy, until they are cancelled, the files of each in
an order of their own. -/
def carryOutAllUntil (order : List String → List String) (contents : Contents) :
    Retrofit → Span → List (List PlanEntry × Policy) → FileM Retrofit
  | done, _, [] => return done
  | done, span, (entries, policy) :: rest => do
    if entries.isEmpty then carryOutAllUntil order contents done span rest
    else
      let ledger ← carryOutUntil span order entries done.root contents policy
      let done := done.add ledger
      if ledger.cancelled then return done
      else
        carryOutAllUntil order contents done
          (span.behind ((wantedDirectories entries).length + (plannedFiles entries).length)) rest

/-- Plans keep what each of them keeps. -/
theorem keeps_carryOutAllUntil {I : Disk → Prop} {order : List String → List String}
    {plans : List (List PlanEntry × Policy)} {done : Retrofit} (span : Span)
    (h : ∀ plan ∈ plans, ∀ span : Span,
      Keeps I (carryOutUntil span order plan.1 done.root contents plan.2)) :
    Keeps I (carryOutAllUntil order contents done span plans) := by
  induction plans generalizing done span with
  | nil => exact .pure _
  | cons plan rest ih =>
      obtain ⟨hfirst, hrest⟩ := List.forall_mem_cons.mp h
      rw [carryOutAllUntil]
      split
      · exact ih _ hrest
      · refine .bind (hfirst span) fun ledger => ?_
        dsimp only
        split
        · exact .pure _
        · exact ih _ hrest

end Retrofit

/-- Brings the project at a path up to the conventions, until this is cancelled. -/
def retrofitUntil (span : Span) (order : List String → List String) (settings : Settings)
    (today : Date) (wanted : Conventions) (force : Bool) (root : Path) : FileM Retrofit := do
  let prepared ← FileM.inspect (Retrofit.prepare settings today wanted root)
  Retrofit.carryOutAllUntil order prepared.contents prepared.outset span
    (Retrofit.batches force prepared.entries)

theorem outcome_retrofitUntil (span : Span) (order : List String → List String)
    (settings : Settings)
    (today : Date) (wanted : Conventions) (force : Bool) (root : Path) (d : Disk) :
    (retrofitUntil span order settings today wanted force root).outcome d =
      match Retrofit.prepare settings today wanted root d with
      | .error failure => (.error failure, d)
      | .ok prepared => (Retrofit.carryOutAllUntil order prepared.contents prepared.outset span
          (Retrofit.batches force prepared.entries)).outcome d := by
  rw [retrofitUntil, outcome_bind, outcome_inspect]
  cases Retrofit.prepare settings today wanted root d <;> rfl

/-! ## Spans that are not used up -/

section Plan

variable {entries : List PlanEntry} (hnormal : IsNormalPlan entries)
  {order : List String → List String} (horder : ∀ files, (order files).Perm files)

include hnormal horder

/-- A plan that was not cancelled is carried out in the same way within every span that does not end
earlier. -/
theorem carryOutUntil_of_not_cancelled {span : Span} {ledger : Ledger} {after : Disk}
    (hrun : (carryOutUntil span order entries root contents policy).outcome d = (.ok ledger, after))
    (hnot : ledger.cancelled = false) {longer : Span} (hlonger : longer.endsWithin
      ((wantedDirectories entries).length + (plannedFiles entries).length) = false) :
    (carryOutUntil longer order entries root contents policy).outcome d = (.ok ledger, after) := by
  have hends := endsWithin_of_carryOutUntil hnormal horder hrun
  obtain ⟨hwanted, hfiles⟩ := Span.not_endsWithin_add hlonger
  cases hends with
  | early => simp at hnot
  | @through made reached middle hwithin hmake hreached hunseen hreceives hwritable =>
      have hreaches : reached <+: plannedFiles entries := hreached ▸ Span.front_prefix _ _
      have hall : reached = plannedFiles entries := hreaches.eq_of_length_le (by simpa using hnot)
      rw [hreached] at hall
      rw [outcome_carryOutUntil, Span.front_of_not_endsWithin hwithin, hmake] at hrun
      rw [outcome_carryOutUntil, Span.front_of_not_endsWithin hwanted, hmake]
      simp only [hwithin, hwanted, Bool.false_eq_true, if_false, hall,
        Span.front_of_not_endsWithin hfiles] at hrun ⊢
      rcases hwrite : (writeFiles root policy contents none (order (plannedFiles entries))).outcome
        middle with ⟨failure | marked, last⟩
      · simp [hwrite, Except.map] at hrun
      -- both ledgers say of the cancellation that it did not happen
      have hseparate := (hnormal.separate root policy middle).perm (horder (plannedFiles entries))
      obtain rfl := (writeFiles_through hseparate (fun _ _ => rfl) hwrite).marks
      have hledger : ∀ left : Allowance, (ledgerOf entries made (marksOf (turnOf root policy middle)
          (order (plannedFiles entries)), left)).1 = (ledgerOf entries made
            (marksOf (turnOf root policy middle) (order (plannedFiles entries)), none)).1 := by
        intro left
        rw [ledgerOf_reached (List.prefix_refl _) hnormal.nodup_files (horder _),
          ledgerOf_reached (List.prefix_refl _) hnormal.nodup_files (horder _)]
        simp
      simp only [hwrite, Except.map, hledger] at hrun ⊢
      exact hrun

end Plan

/-- Without an allowance, none is left. -/
theorem allowance_of_carryOut {entries : List PlanEntry} (hnormal : IsNormalPlan entries)
    {done : Ledger × Allowance} {after : Disk}
    (hrun : (carryOut entries root contents policy none).outcome d = (.ok done, after)) :
    done.2 = none := by
  obtain ⟨made, middle, marked, -, hwrite, rfl⟩ := carryOut_eq_ok hrun
  obtain rfl :=
    (writeFiles_through (hnormal.separate root policy middle) (fun _ _ => rfl) hwrite).marks
  rfl

/-- Plans that are carried out until their allowance is spent are carried out within a span. -/
theorem Retrofit.exists_span_carryOutAll {plans : List (List PlanEntry × Policy)}
    (hnormal : ∀ plan ∈ plans, IsNormalPlan plan.1) (contents : Contents) (done : Retrofit)
    (allowance : Allowance) (d : Disk) :
    ∃ span : Span, (allowance = none → span = none) ∧
      (carryOutAll contents done allowance plans).outcome d =
        (carryOutAllUntil id contents done span plans).outcome d := by
  induction plans generalizing done allowance d with
  | nil => exact ⟨none, fun _ => rfl, rfl⟩
  | cons plan rest ih =>
      obtain ⟨entries, policy⟩ := plan
      obtain ⟨hfirst, hrest⟩ := List.forall_mem_cons.mp hnormal
      simp only [carryOutAll, carryOutAllUntil]
      split
      · exact ih hrest done allowance d
      obtain ⟨span, hnone, hspan⟩ := exists_span_carryOut allowance entries done.root contents
        policy d
      rcases hrun : (carryOut entries done.root contents policy allowance).outcome d
        with ⟨failure | carried, middle⟩
      · rw [hrun] at hspan
        exact ⟨span, hnone, by simp only [outcome_bind, hrun, ← hspan, Except.map]⟩
      rw [hrun] at hspan
      cases hcancelled : carried.1.cancelled with
      | true =>
          refine ⟨span, hnone, ?_⟩
          simp only [outcome_bind, hrun, ← hspan, Except.map, hcancelled, if_true]
      | false =>
          -- the span of the rest begins behind this plan
          obtain ⟨further, hnone', hfurther⟩ := ih hrest (done.add carried.1) carried.2 middle
          refine ⟨further.ahead ((wantedDirectories entries).length +
            (plannedFiles entries).length),
            ?_, ?_⟩
          · rintro rfl
            rw [hnone' (allowance_of_carryOut hfirst hrun)]
            rfl
          · have hlonger := carryOutUntil_of_not_cancelled hfirst
              (fun files => .refl (id files)) hspan.symm hcancelled (further.endsWithin_ahead _)
            simp only [outcome_bind, hrun, hlonger, hcancelled, Bool.false_eq_true, if_false,
              Span.behind_ahead]
            exact hfurther

/-- A retrofit that goes on until its allowance is spent is one within a span. -/
theorem exists_span_retrofit (settings : Settings) (today : Date) (wanted : Conventions)
    (force : Bool) (root : Path) (allowance : Allowance) (d : Disk) :
    ∃ span : Span, (allowance = none → span = none) ∧
      (retrofit settings today wanted force root allowance).outcome d =
        (retrofitUntil span id settings today wanted force root).outcome d := by
  cases hprepare : Retrofit.prepare settings today wanted root d with
  | error failure =>
      exact ⟨none, fun _ => rfl, by rw [Retrofit.outcome_retrofit, outcome_retrofitUntil, hprepare]⟩
  | ok prepared =>
      obtain ⟨subject, hprepared⟩ := Retrofit.exists_prepared hprepare
      obtain ⟨span, hnone, hspan⟩ := Retrofit.exists_span_carryOutAll
        (hprepared.isNormalPlan force) prepared.contents prepared.outset allowance d
      refine ⟨span, hnone, ?_⟩
      rw [Retrofit.outcome_retrofit, outcome_retrofitUntil, hprepare]
      exact hspan

/-- What a retrofit comes to, and the disk that it leaves.  It goes on until its allowance is spent,
or it is cancelled where a span ends and finishes its files in an order of its own. -/
inductive Retrofit.ComesTo (settings : Settings) (today : Date) (wanted : Conventions) (force : Bool)
    (root : Path) (before : Disk) (result : Except Failure Retrofit) (after : Disk) : Prop
  | allowed (allowance : Allowance)
      (hrun : (retrofit settings today wanted force root allowance).outcome before = (result, after))
  | spanned (span : Span) (order : List String → List String)
      (horder : ∀ files, (order files).Perm files)
      (hrun : (retrofitUntil span order settings today wanted force root).outcome before =
        (result, after))

/-- However a retrofit is cancelled, it is one within a span. -/
theorem Retrofit.ComesTo.exists_span {result : Except Failure Retrofit} {after : Disk}
    (h : ComesTo settings today wanted force root d result after) :
    ∃ (span : Span) (order : List String → List String), (∀ files, (order files).Perm files) ∧
      (retrofitUntil span order settings today wanted force root).outcome d = (result, after) := by
  cases h with
  | allowed allowance hrun =>
      obtain ⟨span, -, hspan⟩ := exists_span_retrofit settings today wanted force root allowance d
      exact ⟨span, id, fun _ => .refl _, hspan.symm.trans hrun⟩
  | spanned span order horder hrun => exact ⟨span, order, horder, hrun⟩

end PackageScaffold
