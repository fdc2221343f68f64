import Mathlib.Data.List.Perm.Subperm
import PackageScaffold.Proofs.Plan.Settled

/-!
# Plans that were carried out to their end

A plan that comes to its end without having been cancelled has looked at everything that it asks
for.  This is so for plans of any kind, also if entries are repeated, stand inside one another or
lead back: whatever is looked at is found there or is made, and nothing that is there is taken away.

A directory counts as there when anything is found at its path.  So the second run finds nothing to
do, but a file in the place of a directory stays what it is.

* `Finishes`: a plan was carried out to its end;
* `Finishes.exists_through`: it has gone through all its directories and all its files;
* `Finishes.isSettled`: everything that it asks for is there;
* `finished_again`: carried out once more, it skips all its files and leaves the disk as it is;
* `isDirectory_of_finished`: its directories are directories, but for files in their places.
-/

namespace PackageScaffold

open Disk FileM

variable {d d₁ : Disk} {root : Path} {policy : Policy} {contents : Contents}
  {entries : List PlanEntry}

/-! ## Directories above files -/

theorem Path.ofString_of_extend_eq_here {s : String} (h : root.extend s = .here) :
    ofString s = .here := by
  change (if (ofString s).anchor == .working then
    { root with steps := root.steps ++ (ofString s).steps } else ofString s) = here at h
  split at h
  · rename_i hanchor
    obtain ⟨-, hsteps⟩ := Path.mk.injEq .. ▸ h
    rcases hpath : ofString s with ⟨anchor, steps⟩
    simp only [hpath, beq_iff_eq, List.append_eq_nil_iff] at hanchor hsteps
    rw [hanchor, hsteps.2, here]
  · exact h

/-- A path from the top of the tree is not read back as one from the working directory. -/
theorem Path.anchor_ofString_text {path : Path} (h : path.anchor ≠ .working) :
    (ofString path.text).anchor ≠ .working := by
  obtain ⟨anchor, steps⟩ := path
  have hslash : ∀ cs, anchorOf ('/' :: cs) ≠ .working := by
    intro cs
    unfold anchorOf
    split <;> simp_all
  cases anchor with
  | working => exact absurd rfl h
  | root => simpa [ofString, text, Anchor.text] using hslash _
  | doubledRoot => simpa [ofString, text, Anchor.text] using hslash _

/-- No directory is implied to be the working directory. -/
theorem ofString_ne_here_of_implied {directory : String}
    (h : directory ∈ impliedDirectories (plannedDirectories entries) (plannedFiles entries)) :
    Path.ofString directory ≠ .here := by
  simp only [impliedDirectories, List.mem_mergeSort, List.mem_filter, List.mem_eraseDups,
    List.mem_map] at h
  obtain ⟨⟨⟨file, -, rfl⟩, hdot⟩, -⟩ := h
  intro hhere
  by_cases hanchor : (Path.ofString file).parent.anchor = .working
  · have hread : Path.ofString (Path.ofString file).parent.text = (Path.ofString file).parent := by
      have hsteps : ∀ step ∈ (Path.ofString file).parent.steps, Path.IsStep step :=
        fun step hstep => Path.isStep_of_mem_steps (List.dropLast_subset _ hstep)
      rcases hparent : (Path.ofString file).parent with ⟨anchor, steps⟩
      rw [hparent] at hanchor hsteps
      obtain rfl : anchor = .working := hanchor
      exact Path.ofString_text hsteps
    rw [← hread, hhere] at hdot
    simp [Path.here, Path.text] at hdot
  · exact Path.anchor_ofString_text hanchor (by rw [hhere]; rfl)

/-- The working directory is one of the directories that a plan wants only if the plan has it. -/
theorem exists_here_of_wanted
    (hhere : ∀ directory ∈ plannedDirectories entries, root.extend directory = .here →
      d.exists? .here = .ok true) :
    ∀ directory ∈ wantedDirectories entries, root.extend directory = .here →
      d.exists? .here = .ok true := by
  intro directory hmem hsame
  rcases List.mem_append.mp hmem with hplanned | himplied
  · exact hhere directory hplanned hsame
  · exact absurd (Path.ofString_of_extend_eq_here hsame) (ofString_ne_here_of_implied himplied)

/-! ## Runs that come to their end -/

/-- A plan was carried out to its end, without having been cancelled wherever it asked, in whatever
order its files were finished. -/
inductive Finishes (root : Path) (policy : Policy) (contents : Contents) (entries : List PlanEntry)
    (before after : Disk) : Prop
  | spanned {span : Span} {order : List String → List String} {ledger : Ledger}
      (horder : ∀ files, (order files).Perm files)
      (hrun : (carryOutUntil span order entries root contents policy).outcome before =
        (.ok ledger, after))
      (hnot : ledger.cancelled = false)
  | allowed {allowance left : Allowance} {ledger : Ledger}
      (hrun : (carryOut entries root contents policy allowance).outcome before =
        (.ok (ledger, left), after))
      (hnot : ledger.cancelled = false)

/-- A run that was not cancelled has gone through all directories and all files.  If its span ended
among the files, some of them are not marked, even if what is repeated is counted once. -/
theorem exists_through_of_carryOutUntil {span : Span} {order : List String → List String}
    {ledger : Ledger} (horder : ∀ files, (order files).Perm files)
    (hrun : (carryOutUntil span order entries root contents policy).outcome d = (.ok ledger, d₁))
    (hnot : ledger.cancelled = false) :
    ∃ reached made middle marked, reached.Perm (plannedFiles entries) ∧
      (makeMissing root (wantedDirectories entries)).outcome d = (.ok made, middle) ∧
      (writeFiles root policy contents none reached).outcome middle = (.ok marked, d₁) := by
  cases carryOutUntil_eq_ok hrun with
  | early => simp at hnot
  | @through made middle marked hwithin hmake hwrite =>
      generalize hleft : span.behind (wantedDirectories entries).length = left at hwrite hnot
      obtain ⟨-, -, hmarks⟩ := writeFiles_present hwrite
      -- if files were left over, fewer would be marked than were planned
      have hfront : left.front (plannedFiles entries) = plannedFiles entries := by
        refine (Span.front_prefix left _).eq_of_length_le (not_lt.mp fun hshort => ?_)
        have hspent := Span.isSpent_behind hshort
        have hreached : (marked.1.map Prod.fst).eraseDups.length <
            (plannedFiles entries).length := by
          rw [hmarks]
          refine lt_of_le_of_lt
            ((nodup_eraseDups _).subperm fun _ => List.mem_eraseDups.mp).length_le ?_
          rw [(horder _).length_eq]
          exact hshort
        simp [ledgerOf, hspent, hreached] at hnot
      rw [hfront] at hwrite
      exact ⟨_, made, middle, marked, horder _, hmake, hwrite⟩

namespace Finishes

variable (h : Finishes root policy contents entries d d₁)

include h

theorem exists_through :
    ∃ reached made middle marked, reached.Perm (plannedFiles entries) ∧
      (makeMissing root (wantedDirectories entries)).outcome d = (.ok made, middle) ∧
      (writeFiles root policy contents none reached).outcome middle = (.ok marked, d₁) := by
  cases h with
  | spanned horder hrun hnot => exact exists_through_of_carryOutUntil horder hrun hnot
  | @allowed allowance left ledger hrun hnot =>
      obtain ⟨span, -, hspan⟩ := exists_span_carryOut allowance entries root contents policy d
      rw [hrun] at hspan
      exact exists_through_of_carryOutUntil (fun _ => .refl _) hspan.symm hnot

/-- Everything that a plan asks for is there at its end. -/
theorem isSettled
    (hhere : ∀ directory ∈ plannedDirectories entries, root.extend directory = .here →
      d.exists? .here = .ok true) (given : Contents) : IsSettled root .skip given entries d₁ := by
  obtain ⟨reached, made, middle, marked, hperm, hmake, hwrite⟩ := h.exists_through
  obtain ⟨hspares, hfiles, -⟩ := writeFiles_present hwrite
  refine ⟨fun directory hdirectory => ?_, fun file hfile => hfiles file (hperm.mem_iff.mpr hfile),
    by simp⟩
  exact hspares.exists?_true
    (makeMissing_present_of (exists_here_of_wanted hhere) hmake directory hdirectory)

end Finishes

/-! ## Plans that are carried out again -/

/-- Once a plan was carried out to its end, carrying it out again while existing files are kept
makes no directory and writes no file, whatever contents it is given.  All its files are skipped, in
the order of the plan and as often as it has them, and the disk stays exactly as it is.  A working
directory that the plan asks for has to be there from the start, as it is for whoever works in it:
no run makes that one. -/
theorem finished_again
    (hhere : ∀ directory ∈ plannedDirectories entries, root.extend directory = .here →
      d.exists? .here = .ok true)
    (h : Finishes root policy contents entries d d₁) (given : Contents) :
    (∀ allowance : Allowance, allowance.isSpent = false →
      (carryOut entries root given .skip allowance).outcome d₁ =
        (.ok ({ skipped := plannedFiles entries }, allowance), d₁)) ∧
    ∀ order : List String → List String, (∀ files, (order files).Perm files) →
      (carryOutUntil none order entries root given .skip).outcome d₁ =
        (.ok { skipped := plannedFiles entries }, d₁) :=
  ⟨fun _ hspent => (h.isSettled hhere given).outcome_carryOut hspent,
    fun _ horder => (h.isSettled hhere given).outcome_carryOutUntil horder⟩

/-- A plan with a repeated directory and a repeated file, first carried out with leave to replace a
file that is there, and then again with other contents. -/
theorem finished_again_with_repeats :
    let disk : Disk := { tree := .directory [("b", .file (.text "old"))] }
    let entries : List PlanEntry := [.directory "a", .directory "a/c", .directory "a", .file "a/x" none,
      .file "b" none, .file "a/x" none]
    let done : Ledger := { directories := ["a", "a/c"], files := ["a/x", "b", "a/x"] }
    ∃ after, (carryOut entries .here [("a/x", "1"), ("b", "2")] .overwrite none).outcome disk =
        (.ok (done, none), after) ∧
      (carryOut entries .here [("b", "3")] .skip (some 1)).outcome after =
        (.ok ({ skipped := ["a/x", "b", "a/x"] }, some 1), after) := by
  intro disk entries done
  have hfirst : ((carryOut entries .here [("a/x", "1"), ("b", "2")] .overwrite none).outcome disk).1 =
      .ok (done, none) := by decide +kernel
  obtain ⟨after, hrun⟩ := exists_outcome_eq hfirst
  have hhere : ∀ directory ∈ plannedDirectories entries, Path.here.extend directory = .here →
      disk.exists? .here = .ok true := by decide
  exact ⟨after, hrun, (finished_again hhere (.allowed hrun rfl) [("b", "3")]).1 (some 1) rfl⟩

/-! ## Files in the places of directories -/

/-- Whether a file stands where a path leads. -/
def Disk.holdsFile (disk : Disk) (path : Path) : Bool :=
  match disk.tree.item? (disk.place path) with
  | some (.file _) => true
  | _ => false

theorem Disk.isDirectory_of_locate {path : Path} {place : List String} {item : Item}
    (hnull : path.hasNull = false) (hlocate : d.locate path = .ok place)
    (hitem : d.tree.item? place = some item) :
    d.isDirectory path = .ok (decide (item = .directory)) := by
  rw [isDirectory_eq, hnull, itemAt_of_locate hlocate hitem]
  cases item <;> rfl

/-- A path that is found once directories have been made leads to a directory, unless a file was
there before. -/
theorem Disk.eq_directory_iff_of_adds {path : Path} {item : Item}
    (h : Adds (fun _ item => item = .directory) d d₁)
    (hitem : d₁.tree.item? (d.place path) = some item) :
    item = .directory ↔ d.holdsFile path = false := by
  rcases h.item?_cases hitem with hbefore | ⟨hbefore, rfl⟩
  · cases item <;> simp [holdsFile, hbefore]
  · simp [holdsFile, hbefore]

/-- When a plan was carried out to its end, every directory that it wants is found.  It is a
directory exactly if no file stood in its place at the start: such a file is passed over, and it
stays a file. -/
theorem isDirectory_of_finished
    (hhere : ∀ directory ∈ plannedDirectories entries, root.extend directory = .here →
      d.exists? .here = .ok true)
    (h : Finishes root policy contents entries d d₁) :
    ∀ directory ∈ wantedDirectories entries, d₁.exists? (root.extend directory) = .ok true ∧
      d₁.isDirectory (root.extend directory) = .ok (!d.holdsFile (root.extend directory)) := by
  intro directory hwanted
  refine ⟨(h.isSettled hhere contents).directories directory hwanted, ?_⟩
  obtain ⟨reached, made, middle, marked, -, hmake, hwrite⟩ := h.exists_through
  obtain ⟨hspares, -⟩ := writeFiles_present hwrite
  have hadds := makeMissing_adds hmake
  obtain ⟨hnull, item, hitem⟩ := exists?_true_iff.mp
    (makeMissing_present_of (exists_here_of_wanted hhere) hmake directory hwanted)
  obtain ⟨place, hlocate, hfound⟩ := exists_locate_of_itemAt hitem
  obtain rfl : place = d.place (root.extend directory) :=
    (eq_place_of_locate hlocate).trans (place_of_working hadds.working _)
  have hdirectory := eq_directory_iff_of_adds hadds hfound
  -- what the files have replaced is a file before and after
  obtain ⟨last, hlast, hsame⟩ : ∃ last, d₁.tree.item? (d.place (root.extend directory)) =
      some last ∧ (last = .directory ↔ item = .directory) := by
    rcases hspares.keeps hfound with hkept | ⟨-, hfile, content, hwritten⟩
    · exact ⟨item, hkept, Iff.rfl⟩
    · exact ⟨.file content, hwritten, by simp [hfile]⟩
  rw [isDirectory_of_locate hnull (hspares.locate hlocate) hlast]
  cases hholds : d.holdsFile (root.extend directory) <;> simp [hsame, hdirectory, hholds]

/-- Of two planned directories, one has a file in its place, and it is not the one that was made. -/
theorem isDirectory_of_finished_beside_file :
    let disk : Disk := { tree := .directory [("lib", .file (.text "x"))] }
    let entries : List PlanEntry := [.directory "lib", .directory "test"]
    ∃ after, (carryOut entries .here [] .fail none).outcome disk =
        (.ok ({ directories := ["test"] }, none), after) ∧
      after.isDirectory (Path.here.extend "lib") = .ok false ∧
      after.isDirectory (Path.here.extend "test") = .ok true := by
  intro disk entries
  have hresult : ((carryOut entries .here [] .fail none).outcome disk).1 =
      .ok ({ directories := ["test"] }, none) := by decide +kernel
  obtain ⟨after, hrun⟩ := exists_outcome_eq hresult
  have hhere : ∀ directory ∈ plannedDirectories entries, Path.here.extend directory = .here →
      disk.exists? .here = .ok true := by decide
  have hends := isDirectory_of_finished hhere (.allowed hrun rfl)
  refine ⟨after, hrun, (hends "lib" (by decide)).2.trans (by decide), ?_⟩
  exact (hends "test" (by decide)).2.trans (by decide)

end PackageScaffold
