import PackageScaffold.Proofs.Files.Writing
import PackageScaffold.Proofs.Plan.CarryOut

/-!
# Files in turn

The files of a plan are written in turn.  When its turn comes, a file is written, or it is skipped
because something is there, or its path cannot even be looked at.  As long as the files have places
of their own, none of this depends on the files in front of it, so a run is described by the disk
that it starts from and by the number of files that it comes to.

* `Receives`: a disk with some files written, and nothing else changed;
* `CutAt`: a run that came to an end after a number of files, for one of three reasons;
* `writeFiles_cut`: every run does, by induction along the files;
* `writeFiles_through`: a run that is not cancelled and does not fail comes to all of them.
-/

namespace PackageScaffold

open Disk FileM

variable {d d₁ d₂ : Disk} {root : Path} {policy : Policy} {contents : Contents}

/-! ## What files leave behind -/

/-- Some files have been written at their places, and nothing else has changed. -/
structure Receives (root : Path) (contents : Contents) (before after : Disk) (files : List String) :
    Prop extends SameDirectories before after where
  written : ∀ file ∈ files, ∃ text, contents.lookup file = some text ∧
    after.tree.item? (before.place (root.extend file)) = some (.file (.text text))
  others : ∀ steps, (∀ file ∈ files, steps ≠ before.place (root.extend file)) →
    after.tree.item? steps = before.tree.item? steps

namespace Receives

variable {files : List String}

theorem nil (root : Path) (contents : Contents) (d : Disk) : Receives root contents d d [] where
  toSameDirectories := .refl d
  written := by simp
  others _ _ := rfl

/-- Files that have places of their own are written one after the other. -/
theorem cons {file : String} (h : Receives root contents d d₁ [file])
    (hrest : Receives root contents d₁ d₂ files)
    (hapart : ∀ other ∈ files, d.place (root.extend file) = d.place (root.extend other) →
      file = other) : Receives root contents d d₂ (file :: files) where
  toSameDirectories := h.toSameDirectories.trans hrest.toSameDirectories
  written other hother := by
    have hplace := place_of_working h.working (root.extend other)
    by_cases hmem : other ∈ files
    · rw [← hplace]
      exact hrest.written other hmem
    · obtain rfl := (List.mem_cons.mp hother).resolve_right hmem
      obtain ⟨text, hlookup, hitem⟩ := h.written other List.mem_cons_self
      refine ⟨text, hlookup, ?_⟩
      rw [hrest.others _ fun next hnext heq => ?_, hitem]
      rw [place_of_working h.working] at heq
      exact hmem (hapart next hnext heq ▸ hnext)
  others steps hsteps := by
    obtain ⟨hfirst, hmore⟩ := List.forall_mem_cons.mp hsteps
    rw [hrest.others steps fun other hother => ?_, h.others steps (by simpa using hfirst)]
    rw [place_of_working h.working]
    exact hmore other hother

/-- What the same files leave behind looks the same. -/
theorem item?_eq (h₁ : Receives root contents d d₁ files) {others : List String}
    (h₂ : Receives root contents d d₂ others) (hfiles : ∀ file, file ∈ files ↔ file ∈ others)
    (steps : List String) : d₁.tree.item? steps = d₂.tree.item? steps := by
  by_cases hplace : ∃ file ∈ files, steps = d.place (root.extend file)
  · obtain ⟨file, hmem, rfl⟩ := hplace
    obtain ⟨text, hlookup, hitem⟩ := h₁.written file hmem
    obtain ⟨text', hlookup', hitem'⟩ := h₂.written file ((hfiles file).mp hmem)
    rw [hitem, hitem', Option.some.inj (hlookup.symm.trans hlookup')]
  · have hnone : ∀ file ∈ files, steps ≠ d.place (root.extend file) := by simpa using hplace
    rw [h₁.others steps hnone, h₂.others steps fun file hmem => hnone file ((hfiles file).mpr hmem)]

end Receives

/-! ## One file -/

/-- A file of a plan can be written. -/
def Writable (root : Path) (policy : Policy) (contents : Contents) (disk : Disk) (file : String) :
    Prop :=
  ∃ after, (writeOne root policy contents file).outcome disk = (.ok (), after)

theorem receives_of_writeOne {file : String}
    (h : (writeOne root policy contents file).outcome d = (.ok (), d₁)) :
    Receives root contents d d₁ [file] := by
  unfold writeOne at h
  cases hlookup : contents.lookup file with
  | none => simp [hlookup] at h
  | some text =>
      rw [hlookup] at h
      obtain ⟨hsame, hview⟩ := moveTo_spec (writeFile_eq_ok h).2.2.2
      refine ⟨hsame, fun other hother => ?_, fun steps hsteps => ?_⟩
      · obtain rfl := List.mem_singleton.mp hother
        exact ⟨text, hlookup, by rw [hview, if_pos rfl]⟩
      · rw [hview, if_neg (hsteps file List.mem_cons_self)]

theorem eq_of_writeOne_eq_error {file : String} {failure : Failure}
    (h : (writeOne root policy contents file).outcome d = (.error failure, d₁)) : d₁ = d := by
  unfold writeOne at h
  cases hlookup : contents.lookup file with
  | none =>
      rw [hlookup] at h
      exact (congrArg Prod.snd h).symm
  | some text =>
      rw [hlookup] at h
      exact eq_of_writeFile_eq_error h

/-- Whether a file can be written is not decided by the files at other places. -/
theorem Writable.congr (h : SameDirectories d d₁) {file : String}
    (hplace : policy ≠ .overwrite → (d₁.tree.item? (d.place (root.extend file))).isSome =
      (d.tree.item? (d.place (root.extend file))).isSome)
    (hwritable : Writable root policy contents d file) : Writable root policy contents d₁ file := by
  obtain ⟨after, hwrite⟩ := hwritable
  unfold Writable
  unfold writeOne at hwrite ⊢
  cases hlookup : contents.lookup file with
  | none => simp [hlookup] at hwrite
  | some text =>
      rw [hlookup] at hwrite
      exact exists_writeFile_congr h (fun hover => hplace (by simpa using hover)) hwrite

/-- The turn of a file is not decided by the files at other places. -/
theorem turnOf_congr (h : SameDirectories d d₁) {file : String}
    (hplace : policy ≠ .overwrite → (d₁.tree.item? (d.place (root.extend file))).isSome =
      (d.tree.item? (d.place (root.extend file))).isSome) :
    turnOf root policy d₁ file = turnOf root policy d file := by
  unfold turnOf
  cases policy with
  | fail => rfl
  | overwrite => rfl
  | skip => simp only [beq_self_eq_true, if_true, exists?_congr h (hplace (by simp))]

/-! ## Files with places of their own -/

/-- Files in the same place are the same, and without leave to overwrite no file comes up twice. -/
structure Separate (root : Path) (policy : Policy) (disk : Disk) (files : List String) : Prop where
  apart : ∀ file ∈ files, ∀ other ∈ files,
    disk.place (root.extend file) = disk.place (root.extend other) → file = other
  once : policy = .overwrite ∨ files.Nodup

namespace Separate

variable {file : String} {files : List String}

/-- Below a root, paths lead to the same place if their steps are the same. -/
theorem of_inner (hinner : ∀ file ∈ files, Path.IsInner file)
    (hapart : ∀ file ∈ files, ∀ other ∈ files,
      (Path.ofString file).steps = (Path.ofString other).steps → file = other)
    (honce : policy = .overwrite ∨ files.Nodup) : Separate root policy d files where
  apart file hfile other hother heq := by
    rw [place_extend (hinner file hfile), place_extend (hinner other hother)] at heq
    exact hapart file hfile other hother (List.append_cancel_left heq)
  once := honce

theorem tail (h : Separate root policy d (file :: files)) : Separate root policy d files where
  apart other hother next hnext :=
    h.apart other (List.mem_cons_of_mem _ hother) next (List.mem_cons_of_mem _ hnext)
  once := h.once.imp_right fun hnodup => (List.nodup_cons.mp hnodup).2

theorem of_working (h : Separate root policy d files) (hworking : d₁.working = d.working) :
    Separate root policy d₁ files where
  apart file hfile other hother heq := by
    rw [place_of_working hworking, place_of_working hworking] at heq
    exact h.apart file hfile other hother heq
  once := h.once

theorem perm {others : List String} (h : Separate root policy d files) (hperm : others.Perm files) :
    Separate root policy d others where
  apart file hfile other hother :=
    h.apart file (hperm.mem_iff.mp hfile) other (hperm.mem_iff.mp hother)
  once := h.once.imp_right hperm.nodup_iff.mpr

/-- A file that has been written does not take the place of another one. -/
theorem isSome_item?_eq (h : Separate root policy d (file :: files))
    (hreceives : Receives root contents d d₁ [file]) (hpolicy : policy ≠ .overwrite)
    {other : String}
    (hother : other ∈ files) : (d₁.tree.item? (d.place (root.extend other))).isSome =
      (d.tree.item? (d.place (root.extend other))).isSome := by
  rw [hreceives.others _ fun first hfirst heq => ?_]
  obtain rfl := List.mem_singleton.mp hfirst
  obtain rfl := h.apart other (List.mem_cons_of_mem _ hother) first List.mem_cons_self heq
  exact (List.nodup_cons.mp (h.once.resolve_left hpolicy)).1 hother

end Separate

/-! ## Runs -/

theorem Allowance.isSpent_iff {allowance : Allowance} :
    allowance.isSpent = true ↔ allowance = some 0 := by
  simp [isSpent]

theorem Allowance.pos_of_running {n : Nat} (h : Allowance.isSpent (some n) = false) : 0 < n := by
  rw [Nat.pos_iff_ne_zero]
  rintro rfl
  simp [isSpent] at h

/-- The files that are written when their turns come. -/
def due (turn : String → Turn) (files : List String) : List String :=
  files.filter fun file => (turn file).isWrite

/-- A file that is not written is not due, wherever the files are cut. -/
theorem due_take_of_other {turn : String → Turn} {file : String}
    (hturn : (turn file).isWrite = false)
    (files : List String) (k : Nat) :
    due turn ((file :: files).take (k + 1)) = due turn (files.take k) := by
  rw [List.take_succ_cons, due, List.filter_cons, hturn]
  rfl

theorem due_take_of_write {turn : String → Turn} {file : String} (hturn : turn file = .write)
    (files : List String) (k : Nat) :
    due turn ((file :: files).take (k + 1)) = file :: due turn (files.take k) := by
  rw [List.take_succ_cons, due, List.filter_cons, hturn]
  rfl

/-- Why the first file that cannot be looked at cannot. -/
def unseen? (turn : String → Turn) (files : List String) : Option Failure :=
  files.findSome? fun file => (turn file).failure?

theorem unseen?_cons (turn : String → Turn) (file : String) (files : List String) :
    unseen? turn (file :: files) = (turn file).failure?.or (unseen? turn files) := by
  rw [unseen?, List.findSome?_cons]
  cases (turn file).failure? <;> rfl

/-- A mark for each file. -/
def marksOf (turn : String → Turn) (files : List String) : List (String × Mark) :=
  files.map fun file => (file, (turn file).mark)

/-- Why a run came to an end after a number of files, and what came of it, if all of them could be
looked at: there are no more files, or it was cancelled, or the next file cannot be written. -/
inductive EndsAt (root : Path) (policy : Policy) (contents : Contents) (allowance : Allowance)
    (turn : String → Turn) (files : List String) (k : Nat) (after : Disk) :
    Except Failure (List (String × Mark) × Allowance) → Prop
  | through (h : k = files.length ∨ allowance = some (due turn (files.take k)).length) :
      EndsAt root policy contents allowance turn files k after
        (.ok (marksOf turn (files.take k), allowance.map (· - (due turn (files.take k)).length)))
  | failed {file : String} {failure : Failure} (hfile : files[k]? = some file)
      (hturn : turn file = .write)
      (hfails : (writeOne root policy contents file).outcome after = (.error failure, after)) :
      EndsAt root policy contents allowance turn files k after (.error failure)

/-- A run that came to an end after a number of files: those of them whose turn it was to be written
have been written, it was not cancelled before, and of the files that could not be looked at the
first makes it fail. -/
structure CutAt (root : Path) (policy : Policy) (contents : Contents) (allowance : Allowance)
    (turn : String → Turn) (files : List String) (k : Nat) (before after : Disk)
    (result : Except Failure (List (String × Mark) × Allowance)) : Prop where
  le : k ≤ files.length
  receives : Receives root contents before after (due turn (files.take k))
  writable : ∀ file ∈ due turn (files.take k), Writable root policy contents before file
  running : ∀ j < k, ∀ n, allowance = some n → (due turn (files.take j)).length < n
  ended : ∃ end', EndsAt root policy contents allowance turn files k after end' ∧
    result = match unseen? turn (files.take k) with
      | some failure => .error failure
      | none => end'

section Front

variable {allowance : Allowance} {turn : String → Turn} {file : String} {files : List String}
    {k : Nat}
  {result : Except Failure (List (String × Mark) × Allowance)}

/-- A file that is not written does not matter to how the others come to an end. -/
theorem EndsAt.cons_other (hturn : (turn file).isWrite = false)
    (h : EndsAt root policy contents allowance turn files k d result) :
    EndsAt root policy contents allowance turn (file :: files) (k + 1) d
      (result.map (markFirst (file, (turn file).mark))) := by
  cases h with
  | through hend =>
      have hmarks : markFirst (file, (turn file).mark) (marksOf turn (files.take k),
          allowance.map (· - (due turn (files.take k)).length)) =
            (marksOf turn ((file :: files).take (k + 1)),
              allowance.map (· - (due turn ((file :: files).take (k + 1))).length)) := by
        rw [due_take_of_other hturn]
        rfl
      simp only [Except.map, hmarks]
      refine .through (hend.imp (by simp) ?_)
      rw [due_take_of_other hturn]
      exact id
  | failed hfile hwrite hfails => exact .failed (by simpa using hfile) hwrite hfails

/-- A file that is written leaves the others one write less. -/
theorem EndsAt.cons_write (hspent : allowance.isSpent = false) (hturn : turn file = .write)
    (h : EndsAt root policy contents allowance.spend turn files k d result) :
    EndsAt root policy contents allowance turn (file :: files) (k + 1) d
      (result.map (markFirst (file, .written))) := by
  cases h with
  | through hend =>
      have hspend : allowance.spend.map (· - (due turn (files.take k)).length) =
          allowance.map (· - (due turn ((file :: files).take (k + 1))).length) := by
        rw [due_take_of_write hturn]
        cases allowance with
        | none => rfl
        | some n =>
            simp only [Allowance.spend, Option.map_some, List.length_cons, Option.some.injEq]
            omega
      have hmarks : markFirst (file, .written) (marksOf turn (files.take k),
          allowance.spend.map (· - (due turn (files.take k)).length)) =
            (marksOf turn ((file :: files).take (k + 1)),
              allowance.map (· - (due turn ((file :: files).take (k + 1))).length)) := by
        rw [hspend, markFirst, List.take_succ_cons]
        simp only [marksOf, List.map_cons, hturn, Turn.mark]
      simp only [Except.map, hmarks]
      -- a run that ended with its writes spent has spent this one as well
      refine .through (hend.imp (by simp) fun hspends => ?_)
      cases allowance with
      | none => simp [Allowance.spend] at hspends
      | some n =>
          have hpos := Allowance.pos_of_running hspent
          have hlength : n - 1 = (due turn (files.take k)).length := by
            simpa [Allowance.spend] using hspends
          rw [due_take_of_write hturn, List.length_cons, ← hlength, Nat.sub_add_cancel hpos]
  | failed hfile hwrite hfails => exact .failed (by simpa using hfile) hwrite hfails

namespace CutAt

/-- A run that comes to an end at once. -/
theorem zero (h : EndsAt root policy contents allowance turn files 0 d result) :
    CutAt root policy contents allowance turn files 0 d d result where
  le := Nat.zero_le _
  receives := .nil root contents d
  writable := by simp [due]
  running := by simp
  ended := ⟨result, h, rfl⟩

/-- A file that is not written, in front of the others. -/
theorem cons_other (hspent : allowance.isSpent = false) (hturn : (turn file).isWrite = false)
    (h : CutAt root policy contents allowance turn files k d d₁ result) :
    CutAt root policy contents allowance turn (file :: files) (k + 1) d d₁
      (match (turn file).failure? with
        | some failure => .error failure
        | none => result.map (markFirst (file, (turn file).mark))) := by
  obtain ⟨ended, hended, hresult⟩ := h.ended
  refine ⟨Nat.succ_le_succ h.le, ?_, ?_, ?_, _, hended.cons_other hturn, ?_⟩
  · rw [due_take_of_other hturn]
    exact h.receives
  · rw [due_take_of_other hturn]
    exact h.writable
  · rintro (_ | j) hj n rfl
    · exact Allowance.pos_of_running hspent
    · rw [due_take_of_other hturn]
      exact h.running j (Nat.lt_of_succ_lt_succ hj) n rfl
  · -- its own failure comes before those of the others
    rw [List.take_succ_cons, unseen?_cons, hresult]
    cases (turn file).failure? with
    | some failure => rfl
    | none => cases unseen? turn (files.take k) <;> rfl

/-- A file that is written, in front of the others. -/
theorem cons_write (hspent : allowance.isSpent = false) (hturn : turn file = .write)
    (hfirst : Receives root contents d d₁ [file])
    (hseparate : Separate root policy d (file :: files))
    (hwritable : Writable root policy contents d file)
    (h : CutAt root policy contents allowance.spend turn files k d₁ d₂ result) :
    CutAt root policy contents allowance turn (file :: files) (k + 1) d d₂
      (result.map (markFirst (file, .written))) := by
  have hmem : ∀ {other}, other ∈ due turn (files.take k) → other ∈ files :=
    fun hother => List.mem_of_mem_take (List.mem_filter.mp hother).1
  obtain ⟨ended, hended, hresult⟩ := h.ended
  refine ⟨Nat.succ_le_succ h.le, ?_, ?_, ?_, _, hended.cons_write hspent hturn, ?_⟩
  · rw [due_take_of_write hturn]
    exact hfirst.cons h.receives fun other hother heq =>
      hseparate.apart file List.mem_cons_self other (List.mem_cons_of_mem _ (hmem hother)) heq
  · rw [due_take_of_write hturn]
    refine List.forall_mem_cons.mpr ⟨hwritable, fun other hother => ?_⟩
    -- the others could be written before this file was, as it is in none of their places
    refine (h.writable other hother).congr hfirst.symm fun hpolicy => ?_
    rw [place_of_working hfirst.working]
    exact (hseparate.isSome_item?_eq hfirst hpolicy (hmem hother)).symm
  · rintro (_ | j) hj n rfl
    · exact Allowance.pos_of_running hspent
    · have hrest := h.running j (Nat.lt_of_succ_lt_succ hj) (n - 1) rfl
      rw [due_take_of_write hturn, List.length_cons]
      omega
  · rw [hresult, List.take_succ_cons, unseen?_cons, hturn]
    cases unseen? turn (files.take k) <;> rfl

end CutAt

end Front

/-- Every run over files with places of their own comes to an end after a number of them. -/
theorem writeFiles_cut {turn : String → Turn} {allowance : Allowance} {files : List String}
    (hseparate : Separate root policy d files)
    (hturn : ∀ file ∈ files, turn file = turnOf root policy d file)
    {result : Except Failure (List (String × Mark) × Allowance)} {after : Disk}
    (hrun : (writeFiles root policy contents allowance files).outcome d = (result, after)) :
    ∃ k, CutAt root policy contents allowance turn files k d after result := by
  induction files generalizing d allowance result with
  | nil =>
      obtain ⟨rfl, rfl⟩ := Prod.mk.injEq .. ▸ hrun
      have hend : EndsAt root policy contents allowance turn [] 0 d
          (.ok ([], allowance.map (· - 0))) := .through (.inl rfl)
      have hall : allowance.map (· - 0) = allowance := by cases allowance <;> rfl
      rw [hall] at hend
      exact ⟨0, .zero hend⟩
  | cons file rest ih =>
      cases hspent : allowance.isSpent with
      | true =>
          rw [outcome_writeFiles_of_spent hspent] at hrun
          obtain ⟨rfl, rfl⟩ := Prod.mk.injEq .. ▸ hrun
          obtain rfl := Allowance.isSpent_iff.mp hspent
          exact ⟨0, .zero (.through (.inr rfl))⟩
      | false =>
          obtain ⟨hfirst, hrest⟩ := List.forall_mem_cons.mp hturn
          rw [outcome_writeFiles_cons hspent, ← hfirst] at hrun
          cases hcase : turn file with
          | unseen failure =>
              -- the run fails with this file only when the others have had their turns
              simp only [hcase] at hrun
              obtain ⟨rfl, rfl⟩ := Prod.mk.injEq .. ▸ hrun
              obtain ⟨k, hcut⟩ := ih hseparate.tail hrest rfl
              refine ⟨k + 1, ?_⟩
              have hcons := hcut.cons_other hspent (by rw [hcase]; rfl)
              rwa [hcase] at hcons
          | skip =>
              simp only [hcase] at hrun
              obtain ⟨rfl, rfl⟩ := Prod.mk.injEq .. ▸ hrun
              obtain ⟨k, hcut⟩ := ih hseparate.tail hrest rfl
              refine ⟨k + 1, ?_⟩
              have hcons := hcut.cons_other hspent (by rw [hcase]; rfl)
              rwa [hcase] at hcons
          | write =>
              simp only [hcase] at hrun
              rcases hwrite : (writeOne root policy contents file).outcome d
                with ⟨failure | _, middle⟩
              · rw [hwrite] at hrun
                obtain ⟨rfl, rfl⟩ := Prod.mk.injEq .. ▸ hrun
                obtain rfl := eq_of_writeOne_eq_error hwrite
                exact ⟨0, .zero (.failed rfl hcase hwrite)⟩
              · simp only [hwrite] at hrun
                obtain ⟨rfl, rfl⟩ := Prod.mk.injEq .. ▸ hrun
                have hreceives := receives_of_writeOne hwrite
                -- the turns of the others are the same as before
                have hsame : ∀ other ∈ rest, turn other = turnOf root policy middle other := by
                  intro other hother
                  rw [hrest other hother, turnOf_congr hreceives.toSameDirectories fun hpolicy =>
                    hseparate.isSome_item?_eq hreceives hpolicy hother]
                obtain ⟨k, hcut⟩ := ih (hseparate.tail.of_working hreceives.working) hsame rfl
                exact ⟨k + 1, hcut.cons_write hspent hcase hreceives hseparate ⟨middle, hwrite⟩⟩

/-! ## Runs that are not cancelled -/

theorem unseen?_eq_none_iff {turn : String → Turn} {files : List String} :
    unseen? turn files = none ↔ ∀ file ∈ files, (turn file).failure? = none :=
  List.findSome?_eq_none_iff

namespace CutAt

variable {turn : String → Turn} {files : List String} {k : Nat}

/-- A run that is not cancelled and does not fail goes through all its files. -/
theorem all {marked : List (String × Mark) × Allowance}
    (h : CutAt root policy contents none turn files k d d₁ (.ok marked)) :
    k = files.length ∧ unseen? turn files = none ∧ marked = (marksOf turn files, none) := by
  obtain ⟨ended, hended, hresult⟩ := h.ended
  cases hunseen : unseen? turn (files.take k) with
  | some failure => simp [hunseen] at hresult
  | none =>
      rw [hunseen] at hresult
      cases hended with
      | failed hfile hturn hfails => simp at hresult
      | through hend =>
          obtain rfl := hend.resolve_right (by simp)
          rw [List.take_length] at hunseen hresult
          exact ⟨rfl, hunseen, Except.ok.inj hresult⟩

/-- A run that is not cancelled goes through all its files if they can be looked at and written. -/
theorem all_of_writable {result : Except Failure (List (String × Mark) × Allowance)}
    (h : CutAt root policy contents none turn files k d d₁ result)
    (hseparate : Separate root policy d files) (hunseen : unseen? turn files = none)
    (hwritable : ∀ file ∈ due turn files, Writable root policy contents d file) :
    k = files.length ∧ result = .ok (marksOf turn files, none) := by
  have hfront : unseen? turn (files.take k) = none := unseen?_eq_none_iff.mpr fun file hfile =>
    unseen?_eq_none_iff.mp hunseen file (List.mem_of_mem_take hfile)
  obtain ⟨ended, hended, hresult⟩ := h.ended
  rw [hfront] at hresult
  cases hended with
  | through hend =>
      obtain rfl := hend.resolve_right (by simp)
      rw [List.take_length] at hresult
      exact ⟨rfl, hresult⟩
  | failed hfile hturn hfails =>
      rename_i file failure
      -- a file that could be written at first can be written behind the files in front of it
      exfalso
      have hmem := List.mem_of_getElem? hfile
      obtain ⟨hk, rfl⟩ := List.getElem?_eq_some_iff.mp hfile
      have hdue : files[k] ∈ due turn files := List.mem_filter.mpr ⟨hmem, by rw [hturn]; rfl⟩
      have hstill : Writable root policy contents d₁ files[k] := by
        refine (hwritable _ hdue).congr h.receives.toSameDirectories fun hpolicy => ?_
        rw [h.receives.others _ fun other hother heq => ?_]
        have hother := (List.mem_filter.mp hother).1
        obtain rfl := hseparate.apart _ hmem _ (List.mem_of_mem_take hother) heq
        have hnodup := hseparate.once.resolve_left hpolicy
        rw [← List.take_append_drop k files, List.nodup_append] at hnodup
        refine hnodup.2.2 _ hother _ ?_ rfl
        rw [List.drop_eq_getElem_cons hk]
        exact List.mem_cons_self
      obtain ⟨last, hwrites⟩ := hstill
      rw [hwrites] at hfails
      simp at hfails

end CutAt

/-- A run has gone through its files: each could be looked at, and those whose turn it was to be
written could be, and were. -/
structure GoesThrough (root : Path) (policy : Policy) (contents : Contents) (turn : String → Turn)
    (files : List String) (before after : Disk) (marked : List (String × Mark) × Allowance) :
    Prop where
  seen : unseen? turn files = none
  receives : Receives root contents before after (due turn files)
  writable : ∀ file ∈ due turn files, Writable root policy contents before file
  marks : marked = (marksOf turn files, none)

theorem writeFiles_through {turn : String → Turn} {files : List String}
    (hseparate : Separate root policy d files)
    (hturn : ∀ file ∈ files, turn file = turnOf root policy d file)
    {marked : List (String × Mark) × Allowance} {after : Disk}
    (hrun : (writeFiles root policy contents none files).outcome d = (.ok marked, after)) :
    GoesThrough root policy contents turn files d after marked := by
  obtain ⟨k, hcut⟩ := writeFiles_cut hseparate hturn hrun
  obtain ⟨rfl, hseen, hmarks⟩ := hcut.all
  have hreceives := hcut.receives
  have hwritable := hcut.writable
  rw [List.take_length] at hreceives hwritable
  exact ⟨hseen, hreceives, hwritable, hmarks⟩

/-- Files that are never skipped have all been written once their run has come to its end. -/
theorem writeFiles_receives (hpolicy : policy ≠ .skip) {files : List String}
    (hseparate : Separate root policy d files) {marked : List (String × Mark) × Allowance}
    {after : Disk}
    (hrun : (writeFiles root policy contents none files).outcome d = (.ok marked, after)) :
    Receives root contents d after files ∧ (∀ file ∈ files, Writable root policy contents d file) ∧
      marked = (marksOf (fun _ => .write) files, none) := by
  have hturn : ∀ file ∈ files, Turn.write = turnOf root policy d file :=
    fun file _ => (turnOf_of_ne_skip hpolicy root d file).symm
  have hthrough := writeFiles_through hseparate hturn hrun
  have hdue : due (fun _ => .write) files = files := List.filter_eq_self.mpr fun _ _ => rfl
  exact ⟨hdue ▸ hthrough.receives, hdue ▸ hthrough.writable, hthrough.marks⟩

/-- A file that has been written is found at its path. -/
theorem Receives.itemAt {files : List String} (h : Receives root contents d d₁ files)
    {file : String}
    (hfile : file ∈ files) (hwritable : Writable root policy contents d file) :
    ∃ text, contents.lookup file = some text ∧
      d₁.itemAt (root.extend file) = .ok (.file (.text text)) := by
  obtain ⟨text, hlookup, hitem⟩ := h.written file hfile
  obtain ⟨last, hwrite⟩ := hwritable
  rw [writeOne, hlookup] at hwrite
  obtain ⟨-, hlocate, -⟩ := moveTo_eq_ok (writeFile_eq_ok hwrite).2.2.2
  exact ⟨text, hlookup, itemAt_of_locate (h.locate hlocate (by simp) (by simp)) hitem⟩

/-- Files that are written where nothing is are all that is new. -/
theorem Receives.adds {files : List String} (h : Receives root contents d d₁ files)
    (hfree : ∀ file ∈ files, d.tree.item? (d.place (root.extend file)) = none) :
    Adds (fun place item => ∃ file ∈ files, ∃ text, contents.lookup file = some text ∧
      place = d.place (root.extend file) ∧ item = .file (.text text)) d d₁ where
  working := h.working
  keeps {steps item} hitem := by
    rw [h.others steps fun file hfile heq => ?_, hitem]
    rw [heq, hfree file hfile] at hitem
    simp at hitem
  adds {steps item} hnone hsome := by
    by_cases hplace : ∃ file ∈ files, steps = d.place (root.extend file)
    · obtain ⟨file, hfile, rfl⟩ := hplace
      obtain ⟨text, hlookup, hitem⟩ := h.written file hfile
      exact ⟨file, hfile, text, hlookup, rfl, Option.some.inj (hsome.symm.trans hitem)⟩
    · rw [h.others steps (by simpa using hplace), hnone] at hsome
      simp at hsome

end PackageScaffold
