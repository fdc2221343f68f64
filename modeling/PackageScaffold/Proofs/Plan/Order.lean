import PackageScaffold.Proofs.Plan.Interruption

/-!
# Files in any order

The files of a plan may be written side by side, and then they are finished in any order.  A plan
that can be carried out in its own order can be carried out in every other one, and nothing tells
afterwards in which: the disk looks the same, and so does the ledger.

* `carryOutIn`: a plan is carried out with its files in a given order;
* `ledgerOf_marksOf_perm`: the ledger is the same for all orders;
* `carryOutIn_of_perm`: whatever comes of a plan comes of it in every order.
-/

namespace PackageScaffold

open Disk FileM

variable {d : Disk} {root : Path} {policy : Policy} {contents : Contents} {entries : List PlanEntry}

/-- Carries out a plan under a root, with its files in a given order. -/
def carryOutIn (order : List String) (entries : List PlanEntry) (root : Path) (contents : Contents)
    (policy : Policy) : FileM (Ledger × Allowance) := do
  let made ← makeMissing root (wantedDirectories entries)
  let marked ← writeFiles root policy contents none order
  return ledgerOf entries made marked

theorem outcome_carryOutIn (order : List String) (entries : List PlanEntry) (root : Path)
    (contents : Contents) (policy : Policy) (d : Disk) :
    (carryOutIn order entries root contents policy).outcome d =
      match (makeMissing root (wantedDirectories entries)).outcome d with
      | (.ok made, middle) =>
        (((writeFiles root policy contents none order).outcome middle).1.map
          (ledgerOf entries made),
          ((writeFiles root policy contents none order).outcome middle).2)
      | (.error failure, middle) => (.error failure, middle) := by
  rw [carryOutIn, outcome_bind]
  rcases (makeMissing root (wantedDirectories entries)).outcome d with ⟨_ | made, middle⟩
  · rfl
  · simp only [outcome_bind]
    rcases (writeFiles root policy contents none order).outcome middle with ⟨_ | _, _⟩ <;> rfl

/-- A plan that is not cancelled is carried out in its own order. -/
theorem outcome_carryOut_eq_carryOutIn (entries : List PlanEntry) (root : Path)
    (contents : Contents) (policy : Policy) (d : Disk) :
    (carryOut entries root contents policy none).outcome d =
      (carryOutIn (plannedFiles entries) entries root contents policy).outcome d :=
  (outcome_carryOut entries root contents policy d).trans
    (outcome_carryOutIn (plannedFiles entries) entries root contents policy d).symm

/-! ## Ledgers -/

/-- A file that was reached is marked as its turn says, in whichever order the files were. -/
theorem markOf?_marksOf {turn : String → Turn} {order : List String} {file : String}
    (h : file ∈ order) : markOf? (marksOf turn order) file = some (turn file).mark := by
  rw [markOf?, marksOf, ← List.map_reverse]
  have hmem : file ∈ order.reverse := List.mem_reverse.mpr h
  generalize order.reverse = reversed at hmem ⊢
  induction reversed with
  | nil => simp at hmem
  | cons first rest ih =>
      by_cases hfirst : file = first
      · simp [hfirst]
      · rw [List.map_cons, List.lookup_cons, beq_false_of_ne hfirst]
        exact ih ((List.mem_cons.mp hmem).resolve_left hfirst)

/-- The ledger does not tell in which order the files were written. -/
theorem ledgerOf_marksOf_perm {order : List String} (hperm : order.Perm (plannedFiles entries))
    (made : List String) (turn : String → Turn) :
    ledgerOf entries made (marksOf turn order, none) =
      ledgerOf entries made (marksOf turn (plannedFiles entries), none) := by
  have hmark : ∀ file ∈ plannedFiles entries, markOf? (marksOf turn order) file =
      markOf? (marksOf turn (plannedFiles entries)) file := by
    intro file hfile
    rw [markOf?_marksOf hfile, markOf?_marksOf (hperm.mem_iff.mpr hfile)]
  have hfilter : ∀ mark : Mark, (plannedFiles entries).filter
      (fun file => markOf? (marksOf turn order) file == some mark) = (plannedFiles entries).filter
        fun file => markOf? (marksOf turn (plannedFiles entries)) file == some mark :=
    fun mark => List.filter_congr fun file hfile => by rw [hmark file hfile]
  simp only [ledgerOf, hfilter, Allowance.isSpent]
  rfl

/-- The directories that were made are listed in their order. -/
theorem makeMissing_sublist {directories made : List String} {after : Disk}
    (hrun : (makeMissing root directories).outcome d = (.ok made, after)) :
    made.Sublist directories := by
  induction directories generalizing d made with
  | nil =>
      obtain ⟨hmade, -⟩ := Prod.mk.injEq .. ▸ hrun
      obtain rfl := Except.ok.inj hmade
      exact .slnil
  | cons directory rest ih =>
      cases makeMissing_cons hrun with
      | unseen _ hresult => simp at hresult
      | there _ hmissing => exact (ih hmissing).cons directory
      | refused _ _ hresult => simp at hresult
      | made _ _ hmissing hresult =>
          obtain ⟨more, rfl, rfl⟩ := map_eq_ok hresult.symm
          exact (ih hmissing).cons_cons directory

/-- Of the directories that a plan needs, those that are listed are its own. -/
theorem filter_wantedDirectories (entries : List PlanEntry) :
    (wantedDirectories entries).filter (plannedDirectories entries).contains =
      plannedDirectories entries := by
  have himplied : (impliedDirectories (plannedDirectories entries) (plannedFiles entries)).filter
      (plannedDirectories entries).contains = [] := by
    rw [List.filter_eq_nil_iff]
    intro directory hmem
    simp only [impliedDirectories, List.mem_mergeSort, List.mem_filter] at hmem
    simpa using hmem.2
  have hplanned : (plannedDirectories entries).filter (plannedDirectories entries).contains =
      plannedDirectories entries := List.filter_eq_self.mpr (by simp)
  rw [wantedDirectories, List.filter_append, himplied, hplanned, List.append_nil]

/-- All lists of a ledger are in the order of the plan. -/
structure Ledger.InOrder (ledger : Ledger) (entries : List PlanEntry) : Prop where
  directories : ledger.directories.Sublist (plannedDirectories entries)
  files : ledger.files.Sublist (plannedFiles entries)
  skipped : ledger.skipped.Sublist (plannedFiles entries)

theorem inOrder_ledgerOf {made : List String} (hmade : made.Sublist (wantedDirectories entries))
    (marked : List (String × Mark) × Allowance) :
    (ledgerOf entries made marked).1.InOrder entries where
  directories := by
    have hfilter := hmade.filter (plannedDirectories entries).contains
    rwa [filter_wantedDirectories] at hfilter
  files := List.filter_sublist
  skipped := List.filter_sublist

/-! ## Orders -/

/-- If a plan whose paths are normal can be carried out without being cancelled, it can be carried
out with its files in every other order.  Then the same stands everywhere, and the ledger is the
same, each of its lists in the order of the plan. -/
theorem carryOutIn_of_perm (hnormal : IsNormalPlan entries) {order : List String}
    (hperm : order.Perm (plannedFiles entries)) {done : Ledger × Allowance} {after : Disk}
    (hrun : (carryOut entries root contents policy none).outcome d = (.ok done, after)) :
    ∃ after', (carryOutIn order entries root contents policy).outcome d = (.ok done, after') ∧
      after'.working = after.working ∧ (∀ steps, after'.tree.item? steps = after.tree.item? steps) ∧
      done.1.InOrder entries := by
  obtain ⟨made, middle, marked, hmake, hwrite, rfl⟩ := carryOut_eq_ok hrun
  have hseparate := hnormal.separate root policy middle
  -- the run in the order of the plan went through all files
  obtain ⟨hunseen, hreceives, hwritable, rfl⟩ :=
    writeFiles_through hseparate (fun _ _ => rfl) hwrite
  -- so does the run in the other one, since all files can be written
  rcases horder : (writeFiles root policy contents none order).outcome middle with ⟨result, last'⟩
  have hseparate' := hseparate.perm hperm
  obtain ⟨k', hcut'⟩ := writeFiles_cut hseparate' (fun _ _ => rfl) horder
  have hdue : ∀ file, file ∈ due (turnOf root policy middle) order ↔
      file ∈ due (turnOf root policy middle) (plannedFiles entries) :=
    fun file => (hperm.filter _).mem_iff
  obtain ⟨rfl, rfl⟩ := hcut'.all_of_writable hseparate'
    (unseen?_eq_none_iff.mpr fun file hfile =>
      unseen?_eq_none_iff.mp hunseen file (hperm.mem_iff.mp hfile))
    fun file hfile => hwritable file ((hdue file).mp hfile)
  have hreceives' := hcut'.receives
  rw [List.take_length] at hreceives'
  refine ⟨last', ?_, hreceives'.working.trans hreceives.working.symm,
    hreceives'.item?_eq hreceives hdue, inOrder_ledgerOf (makeMissing_sublist hmake) _⟩
  rw [outcome_carryOutIn, hmake]
  simp only [horder, Except.map, ledgerOf_marksOf_perm hperm]

/-- Two files, one of which is there already, written back to front. -/
theorem carryOutIn_of_perm_two :
    let disk : Disk := { tree := .directory [("b", .file (.text "old"))] }
    let entries : List PlanEntry := [.directory "a", .file "a/x" none, .file "b" none, .file "c" none]
    let contents : Contents := [("a/x", "1"), ("b", "2"), ("c", "3")]
    ∃ done after after', (carryOut entries .here contents .skip none).outcome disk = (.ok done, after) ∧
      (carryOutIn ["c", "b", "a/x"] entries .here contents .skip).outcome disk = (.ok done, after') ∧
      ∀ steps, after'.tree.item? steps = after.tree.item? steps := by
  intro disk entries contents
  have hnormal : IsNormalPlan entries :=
    ⟨by
      simp only [entries, List.forall_mem_cons]
      exact ⟨⟨["a"], by decide⟩, ⟨["a", "x"], by decide⟩, ⟨["b"], by decide⟩, ⟨["c"], by decide⟩,
        by simp⟩, by decide⟩
  have hok : ((carryOut entries .here contents .skip none).outcome disk).1.isOk = true := by
    decide +kernel
  obtain ⟨done, after, hrun⟩ := exists_outcome_ok hok
  have hperm : ["c", "b", "a/x"].Perm (plannedFiles entries) := by decide
  obtain ⟨after', horder, -, hitems, -⟩ := carryOutIn_of_perm hnormal hperm hrun
  exact ⟨done, after, after', hrun, horder, hitems⟩

end PackageScaffold
