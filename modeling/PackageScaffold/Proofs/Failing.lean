import PackageScaffold.Proofs.Except
import PackageScaffold.Proofs.Files.Preservation
import PackageScaffold.Review

/-!
# How work on a disk fails

Work on a disk comes to a failure in few ways: the file system refuses it, something is there
already, or a path cannot be looked at.  Which of them are possible depends on the paths and on the
working directory, which no work moves.

* `FileM.FailsOnly`: the ways in which a computation fails, with a lemma for each way of putting
  computations together;
* `Covers`: what may become of a single path;
* `failsOnly_carryOut`: what may become of a plan;
* `failsOnly_repairAll`: repairs pass on only what no one expects.
-/

namespace PackageScaffold

/-! ## The working directory -/

namespace Disk

variable {d after : Disk} {path : Path} {content : Content}

theorem working_moveTo (h : d.moveTo path content = .ok after) : after.working = d.working :=
  (moveTo_spec h).1.working

end Disk

namespace FileM

open Disk

variable {α β : Type} {working : List String} {P Q : Failure → Prop}

/-! ## Ways to fail -/

/-- From the given working directory a computation fails in the given ways only, and the working
directory stays what it is. -/
def FailsOnly (working : List String) (P : Failure → Prop) (x : FileM α) : Prop :=
  ∀ d : Disk, d.working = working →
    (x.outcome d).2.working = working ∧ ∀ failure, (x.outcome d).1 = .error failure → P failure

namespace FailsOnly

theorem pure (a : α) : FailsOnly working P (Pure.pure a : FileM α) :=
  fun _ hworking => ⟨hworking, fun _ h => by simp at h⟩

theorem throw {failure : Failure} (h : P failure) :
    FailsOnly working P (MonadExcept.throw failure : FileM α) := by
  refine fun _ hworking => ⟨hworking, fun other hother => ?_⟩
  obtain rfl : failure = other := Except.error.inj hother
  exact h

/-- Nothing is done behind a failure. -/
theorem throw_bind {failure : Failure} (h : P failure) (f : α → FileM β) :
    FailsOnly working P ((MonadExcept.throw failure : FileM α) >>= f) :=
  throw h

theorem bind {x : FileM α} {f : α → FileM β} (hx : FailsOnly working P x)
    (hf : ∀ a, FailsOnly working P (f a)) : FailsOnly working P (x >>= f) := by
  intro d hworking
  have hfirst := hx d hworking
  rw [outcome_bind]
  rcases houtcome : x.outcome d with ⟨failure | a, middle⟩ <;> rw [houtcome] at hfirst
  · refine ⟨hfirst.1, fun other hother => ?_⟩
    obtain rfl : failure = other := Except.error.inj hother
    exact hfirst.2 failure rfl
  · exact hf a middle hfirst.1

/-- What is done with the disk that is looked at may rely on its working directory. -/
theorem get_bind {f : Disk → FileM α} (h : ∀ d, d.working = working → FailsOnly working P (f d)) :
    FailsOnly working P (MonadState.get >>= f) := by
  intro d hworking
  rw [outcome_bind, outcome_get]
  exact h d hworking d hworking

theorem look (f : Disk → α) : FailsOnly working P (FileM.look f) :=
  fun _ hworking => ⟨hworking, fun _ h => by simp at h⟩

theorem inspect {f : Disk → Except Failure α}
    (h : ∀ d, d.working = working → ∀ failure, f d = .error failure → P failure) :
    FailsOnly working P (FileM.inspect f) := by
  intro d hworking
  rw [outcome_inspect]
  exact ⟨hworking, h d hworking⟩

theorem tryCatch {x : FileM α} {handle : Failure → FileM α} (hx : FailsOnly working Q x)
    (hhandle : ∀ failure, Q failure → FailsOnly working P (handle failure)) :
    FailsOnly working P (tryCatchThe Failure x handle) := by
  intro d hworking
  have hfirst := hx d hworking
  change ((MonadExcept.tryCatch x handle).outcome d).2.working = working ∧
    ∀ failure, ((MonadExcept.tryCatch x handle).outcome d).1 = .error failure → P failure
  rw [outcome_tryCatch]
  rcases houtcome : x.outcome d with ⟨failure | a, middle⟩ <;> rw [houtcome] at hfirst
  · exact hhandle failure (hfirst.2 failure rfl) middle hfirst.1
  · exact ⟨hfirst.1, fun _ h => by simp at h⟩

theorem mono {x : FileM α} (h : FailsOnly working P x) (himp : ∀ failure, P failure → Q failure) :
    FailsOnly working Q x :=
  fun d hworking =>
    ⟨(h d hworking).1, fun failure hfailure => himp _ ((h d hworking).2 failure hfailure)⟩

end FailsOnly

/-! ## Work on a path -/

/-- The ways to fail that work on a path may come to. -/
structure Covers (working : List String) (P : Failure → Prop) (path : Path) : Prop where
  refused : ∀ reason, P (.refused path.text reason)
  occupied : P (.occupied (.destination path.text))
  look : ∀ d : Disk, d.working = working → ∀ failure, d.exists? path = .error failure → P failure
  null : path.hasNull = true → P .nullInPath
  draft : ∀ d : Disk, d.working = working → (d.draftSteps path).any Path.isNullStep = true → P .nullInPath

theorem failsOnly_checkPath {path : Path} (h : path.hasNull = true → P .nullInPath) :
    FailsOnly working P (checkPath path) := by
  unfold checkPath
  split
  · exact .throw (h ‹_›)
  · exact .pure _

theorem failsOnly_change {path : Path} {f : Disk → Except Refusal Disk}
    (hnull : path.hasNull = true → P .nullInPath)
    (hrefused : ∀ reason, P (.refused path.text reason))
    (hf : ∀ d after, f d = .ok after → after.working = d.working) :
    FailsOnly working P (change path f) := by
  refine .bind (failsOnly_checkPath hnull) fun _ => ?_
  intro d hworking
  rw [outcome_bind, outcome_get]
  simp only
  cases hchange : f d with
  | ok after =>
      exact ⟨(hf d after hchange).trans hworking, fun failure hfailure => nomatch hfailure⟩
  | error refusal => exact FailsOnly.throw (α := Unit) (hrefused refusal.text) d hworking

theorem failsOnly_makeFor {path : Path} (hnull : path.hasNull = true → P .nullInPath)
    (hrefused : ∀ reason, P (.refused path.text reason)) (directory : Path) :
    FailsOnly working P (makeFor path directory) := by
  refine .bind (failsOnly_checkPath hnull) fun _ => ?_
  intro d hworking
  have hmade := (grows_makeDirectory d directory).working.trans hworking
  rw [outcome_bind, outcome_get]
  simp only
  rcases hmake : d.makeDirectory directory with ⟨after, _ | refusal⟩ <;> rw [hmake] at hmade
  · exact ⟨hmade, fun failure hfailure => nomatch hfailure⟩
  · exact FailsOnly.throw (α := Unit) (hrefused refusal.text) after hmade

theorem failsOnly_ensureDirectory {path : Path} (h : Covers working P path) :
    FailsOnly working P (ensureDirectory path) :=
  failsOnly_makeFor h.null h.refused path

theorem failsOnly_checkDraft {path : Path} (h : Covers working P path) :
    FailsOnly working P (checkDraft path) := by
  refine .get_bind fun d hworking => ?_
  dsimp only
  split
  · exact .throw_bind (h.draft d hworking ‹_›) _
  · split
    · exact .throw (h.refused _)
    · exact .pure _

theorem failsOnly_writeFile {path : Path} (h : Covers working P path) (content : Content)
    (overwrite : Bool) :
    FailsOnly working P (writeFile path content overwrite) := by
  have hwrite : FailsOnly working P (do checkDraft path; change path (·.moveTo path content)) :=
    .bind (failsOnly_checkDraft h) fun _ =>
      failsOnly_change h.null h.refused fun _ _ => working_moveTo
  cases overwrite with
  | true => exact hwrite
  | false =>
      refine .bind (.inspect h.look) fun isThere => ?_
      cases isThere with
      | true => exact .throw_bind h.occupied _
      | false => exact hwrite

end FileM

/-! ## Plans -/

open FileM

variable {working : List String} {P : Failure → Prop} {root : Path}

theorem failsOnly_makeMissing {directories : List String}
    (h : ∀ directory ∈ directories, Covers working P (root.extend directory)) :
    FailsOnly working P (makeMissing root directories) := by
  induction directories with
  | nil => exact .pure _
  | cons directory rest ih =>
      obtain ⟨hfirst, hrest⟩ := List.forall_mem_cons.mp h
      refine .bind (.inspect hfirst.look) fun isThere => ?_
      cases isThere with
      | true => exact ih hrest
      | false =>
          exact .bind (failsOnly_ensureDirectory hfirst) fun _ => .bind (ih hrest) fun _ => .pure _

theorem failsOnly_writeFiles {policy : Policy} {contents : Contents} {files : List String}
    (h : ∀ file ∈ files, Covers working P (root.extend file))
    (hcontents : ∀ file ∈ files, contents.lookup file = none → P (.noContent file))
    (allowance : Allowance) :
    FailsOnly working P (writeFiles root policy contents allowance files) := by
  induction files generalizing allowance with
  | nil => exact .pure _
  | cons file rest ih =>
      obtain ⟨hfirst, hrest⟩ := List.forall_mem_cons.mp h
      obtain ⟨hcontent, hcontents⟩ := List.forall_mem_cons.mp hcontents
      have ih := ih hrest hcontents
      rw [writeFiles]
      split
      · exact .pure _
      · refine .get_bind fun d hworking => ?_
        split
        · rename_i failure hlook
          -- the files behind this one are written first, and whatever they come to is dropped
          have hfailure : P failure := by
            split at hlook
            · exact hfirst.look d hworking failure hlook
            · simp at hlook
          exact .bind (.tryCatch (.bind (ih _) fun _ => .pure _) fun _ _ => .pure _) fun _ =>
            .throw hfailure
        · exact .bind (ih _) fun _ => .pure _
        · split
          · exact .throw (hcontent ‹_›)
          · exact .bind (failsOnly_writeFile hfirst _ _) fun _ => .bind (ih _) fun _ => .pure _

/-- The paths that are worked on when a plan is carried out. -/
def workedOn (entries : List PlanEntry) : List String :=
  plannedDirectories entries ++
    impliedDirectories (plannedDirectories entries) (plannedFiles entries) ++ plannedFiles entries

/-- A plan fails only in ways that one of its paths may come to, or for lack of a content. -/
theorem failsOnly_carryOut {entries : List PlanEntry} {contents : Contents}
    (h : ∀ path ∈ workedOn entries, Covers working P (root.extend path))
    (hcontents : ∀ file ∈ plannedFiles entries, contents.lookup file = none → P (.noContent file))
    (policy : Policy) (allowance : Allowance) :
    FailsOnly working P (carryOut entries root contents policy allowance) := by
  obtain ⟨hdirectories, hfiles⟩ := List.forall_mem_append.mp h
  unfold carryOut
  dsimp only
  split
  · exact .pure _
  · exact .bind (failsOnly_makeMissing hdirectories) fun _ =>
      .bind (failsOnly_writeFiles hfiles hcontents _) fun _ => .pure _

/-! ## Repairs -/

/-- A failure of a repair that is reported on purpose is noted down, and only another one ends the
repairs. -/
theorem failsOnly_repairAll {settings : Settings} {repairs : List (String × List PlanEntry)}
    (h : ∀ named ∈ repairs, FailsOnly working (fun failure => failure.isExpected = true ∨ P failure)
      (repair settings root named.2)) (log : RepairLog) :
    FailsOnly working P (repairAll settings root log repairs) := by
  induction repairs generalizing log with
  | nil => exact .pure _
  | cons named rest ih =>
      obtain ⟨hfirst, hrest⟩ := List.forall_mem_cons.mp h
      refine .bind (.tryCatch (.bind hfirst fun _ => .pure _) fun failure hfailure => ?_) (ih hrest)
      split
      · exact .pure _
      · exact .throw (hfailure.resolve_left ‹_›)

end PackageScaffold
