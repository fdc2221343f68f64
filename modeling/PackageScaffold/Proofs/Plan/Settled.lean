import PackageScaffold.Proofs.Files.Preservation
import PackageScaffold.Proofs.Plan.Bookkeeping
import PackageScaffold.Proofs.Session

/-!
# Plans for which nothing is left to be done

A plan that was not cancelled leaves everything there that it asks for.  From then on it changes
nothing: its directories are there, what is skipped is not touched, and a file that is written again
has the content that it had.

* `IsSettled`: everything that a plan asks for is there;
* `EndsWithin.isSettled`, `isSettled_of_carryOut`: so it is behind a run that was not cancelled;
* `IsSettled.spares`: other work that spares the files of the plan does not unsettle it;
* `IsSettled.keeps`: a settled plan leaves the disk exactly as it is, wherever it is cancelled;
* `IsSettled.outcome_carryOut`, `IsSettled.outcome_carryOutUntil`: where existing files are kept, it
  skips all of its files and does nothing else.
-/

namespace PackageScaffold

open Disk FileM

variable {d d₁ : Disk} {root : Path} {policy : Policy} {contents : Contents}
  {entries : List PlanEntry}

/-! ## Files that are written again -/

theorem FileM.Keeps.of_eq {α : Type} {x : FileM α} (h : (x.outcome d).2 = d) : Keeps (· = d) x := by
  rintro _ rfl
  exact h

/-- Writing a file with the content that it has leaves the disk as it is. -/
theorem keeps_writeFile_again {path : Path} {content : Content} (overwrite : Bool)
    (h : d.tree.item? (d.place path) = some (.file content)) :
    Keeps (· = d) (writeFile path content overwrite) := by
  refine .of_eq ?_
  rcases hwrite : (writeFile path content overwrite).outcome d with ⟨failure | _, after⟩
  · exact eq_of_writeFile_eq_error hwrite
  · obtain ⟨-, -, tree, htree, rfl⟩ := moveTo_eq_ok (writeFile_eq_ok hwrite).2.2.2
    rw [FileTree.write_of_item? h] at htree
    obtain rfl := Except.ok.inj htree
    rfl

/-- Without leave to overwrite, nothing is written where something is. -/
theorem keeps_writeFile_of_there {path : Path} (content : Content) (h : d.exists? path = .ok true) :
    Keeps (· = d) (writeFile path content false) := by
  refine .of_eq ?_
  rcases hwrite : (writeFile path content false).outcome d with ⟨failure | _, after⟩
  · exact eq_of_writeFile_eq_error hwrite
  · obtain ⟨hfree, -⟩ := writeFile_eq_ok hwrite
    rw [hfree rfl] at h
    simp at h

/-- Files that were written have replaced files only. -/
theorem Receives.spares {files : List String} (h : Receives root contents d d₁ files) :
    Spares (fun place => ∃ file ∈ files, place = d.place (root.extend file)) d d₁ where
  working := h.working
  keeps {place item} hitem := by
    by_cases hplace : ∃ file ∈ files, place = d.place (root.extend file)
    · obtain ⟨file, hfile, rfl⟩ := hplace
      obtain ⟨text, -, hwritten⟩ := h.written file hfile
      refine .inr ⟨⟨file, hfile, rfl⟩, ?_, _, hwritten⟩
      rintro rfl
      simp [(h.item?_iff _).mpr hitem] at hwritten
    · rw [h.others place (by simpa using hplace)]
      exact .inl hitem

/-! ## Settled plans -/

/-- Everything that a plan asks for is there.  Where existing files are replaced, its files have the
contents that they are given. -/
structure IsSettled (root : Path) (policy : Policy) (contents : Contents) (entries : List PlanEntry)
    (disk : Disk) : Prop where
  directories : ∀ directory ∈ wantedDirectories entries,
    disk.exists? (root.extend directory) = .ok true
  files : ∀ file ∈ plannedFiles entries, disk.exists? (root.extend file) = .ok true
  held : policy = .overwrite → ∀ file ∈ plannedFiles entries, ∀ text,
    contents.lookup file = some text →
      disk.tree.item? (disk.place (root.extend file)) = some (.file (.text text))

/-- A plan that was not cancelled is settled. -/
theorem EndsWithin.isSettled {span : Span} {ledger : Ledger} (hnormal : IsNormalPlan entries)
    (h : EndsWithin span root policy contents entries d d₁ ledger)
    (hnot : ledger.cancelled = false) :
    IsSettled root policy contents entries d₁ := by
  cases h with
  | early => simp at hnot
  | @through made reached middle hwithin hmake hreached hunseen hreceives hwritable =>
      have hreaches : reached <+: plannedFiles entries := hreached ▸ Span.front_prefix _ _
      -- a run that was not cancelled has reached all files
      obtain rfl : reached = plannedFiles entries := hreaches.eq_of_length_le (by simpa using hnot)
      have hspares := hreceives.spares
      refine ⟨fun directory hdirectory => ?_, fun file hfile => ?_, ?_⟩
      · exact hspares.exists?_true
          (makeMissing_present hnormal.isInner.wanted hmake directory hdirectory)
      · have hseen := unseen?_eq_none_iff.mp hunseen file hfile
        cases hturn : (turnOf root policy middle file).isWrite with
        | false => exact hspares.exists?_true (exists?_of_not_isWrite hturn hseen)
        | true =>
            have hdue : file ∈ due (turnOf root policy middle) (plannedFiles entries) :=
              List.mem_filter.mpr ⟨hfile, hturn⟩
            obtain ⟨text, hlookup, hitem⟩ := hreceives.itemAt hdue (hwritable file hdue)
            obtain ⟨last, hwrite⟩ := hwritable file hdue
            rw [writeOne, hlookup] at hwrite
            exact exists?_true_iff.mpr ⟨(writeFile_eq_ok hwrite).2.2.1, _, hitem⟩
      · rintro rfl file hfile text hlookup
        have hdue : file ∈ due (turnOf root .overwrite middle) (plannedFiles entries) :=
          List.mem_filter.mpr ⟨hfile, by rw [turnOf_of_ne_skip (by simp)]; rfl⟩
        obtain ⟨text', hlookup', hitem⟩ := hreceives.written file hdue
        rw [place_of_working hreceives.working, hitem,
          Option.some.inj (hlookup'.symm.trans hlookup)]

namespace IsSettled

variable (h : IsSettled root policy contents entries d)

include h

/-- Work that spares what a plan has written does not unsettle it. -/
theorem spares {isOpen : List String → Prop} (hspares : Spares isOpen d d₁)
    (hclosed : policy = .overwrite → ∀ file ∈ plannedFiles entries,
      ¬ isOpen (d.place (root.extend file))) : IsSettled root policy contents entries d₁ where
  directories directory hdirectory := hspares.exists?_true (h.directories directory hdirectory)
  files file hfile := hspares.exists?_true (h.files file hfile)
  held hpolicy file hfile text hlookup := by
    rw [place_of_working hspares.working]
    exact hspares.item? (hclosed hpolicy file hfile) (h.held hpolicy file hfile text hlookup)

/-- Where existing files are kept, everything within a settled plan is settled. -/
theorem within {part : List PlanEntry} (hfiles : plannedFiles part ⊆ plannedFiles entries)
    (hwanted : wantedDirectories part ⊆ wantedDirectories entries) (given : Contents) :
    IsSettled root .skip given part d where
  directories directory hdirectory := h.directories directory (hwanted hdirectory)
  files file hfile := h.files file (hfiles hfile)
  held hpolicy := by simp at hpolicy

/-- No directory of a settled plan is missing. -/
theorem outcome_makeMissing {directories : List String}
    (hwanted : directories ⊆ wantedDirectories entries) :
    (makeMissing root directories).outcome d = (.ok [], d) := by
  induction directories with
  | nil => rfl
  | cons directory rest ih =>
      obtain ⟨hfirst, hrest⟩ := List.cons_subset.mp hwanted
      rw [makeMissing_of_there rest (h.directories directory hfirst), ih hrest]

/-- A settled plan leaves the disk as it is, wherever it is cancelled and whatever it comes to. -/
theorem keeps {span : Span} {order : List String → List String}
    (horder : ∀ files, (order files).Perm files) :
    Keeps (· = d) (carryOutUntil span order entries root contents policy) := by
  refine keeps_carryOutUntil horder (fun directories hwanted => ?_)
    fun files hfiles => keeps_writeFiles_of (fun file hfile text hlookup => ?_) none
  · exact .of_eq (by rw [h.outcome_makeMissing hwanted])
  · cases hover : policy == .overwrite with
    | true =>
        exact keeps_writeFile_again true
          (h.held (by simpa using hover) file (hfiles hfile) text hlookup)
    | false => exact keeps_writeFile_of_there _ (h.files file (hfiles hfile))

end IsSettled

/-! ## Plans that were carried out -/

/-- Files that were gone through are all marked, and they are all there, whether they were written
or skipped. -/
theorem writeFiles_present {files : List String} {marked : List (String × Mark) × Allowance}
    (hrun : (writeFiles root policy contents none files).outcome d = (.ok marked, d₁)) :
    Spares (fun _ => True) d d₁ ∧ (∀ file ∈ files, d₁.exists? (root.extend file) = .ok true) ∧
      marked.1.map Prod.fst = files := by
  induction files generalizing d marked with
  | nil =>
      obtain ⟨hmarked, rfl⟩ := Prod.mk.injEq .. ▸ hrun
      obtain rfl := Except.ok.inj hmarked
      exact ⟨.refl _ d, by simp, rfl⟩
  | cons file rest ih =>
      -- the first file is skipped or written, and there in either case
      obtain ⟨middle, more, hspares, hfile, hrest, hmarked⟩ : ∃ middle more,
          Spares (fun _ => True) d middle ∧ middle.exists? (root.extend file) = .ok true ∧
          (writeFiles root policy contents none rest).outcome middle = (.ok more, d₁) ∧
          marked.1.map Prod.fst = file :: more.1.map Prod.fst := by
        rw [outcome_writeFiles_cons rfl] at hrun
        cases hturn : turnOf root policy d file with
        | unseen failure => simp [hturn] at hrun
        | skip =>
            simp only [hturn] at hrun
            obtain ⟨hresult, hlast⟩ := Prod.mk.injEq .. ▸ hrun
            obtain ⟨more, hrest, rfl⟩ := map_eq_ok hresult
            have hfile := exists?_of_not_isWrite (by rw [hturn]; rfl) (by rw [hturn]; rfl)
            exact ⟨d, more, .refl _ d, hfile, Prod.ext hrest hlast, rfl⟩
        | write =>
            rcases hwrite : (writeOne root policy contents file).outcome d
              with ⟨failure | _, middle⟩
            · simp [hturn, hwrite] at hrun
            simp only [hturn, hwrite] at hrun
            obtain ⟨hresult, hlast⟩ := Prod.mk.injEq .. ▸ hrun
            obtain ⟨more, hrest, rfl⟩ := map_eq_ok hresult
            rw [writeOne] at hwrite
            cases hlookup : contents.lookup file with
            | none => simp [hlookup] at hwrite
            | some text =>
                simp only [hlookup] at hwrite
                have hspares : Spares (fun _ => True) d middle :=
                  spares_moveTo trivial (writeFile_eq_ok hwrite).2.2.2
                exact ⟨middle, more, hspares, exists?_of_writeFile hwrite, Prod.ext hrest hlast,
                  rfl⟩
      obtain ⟨hothers, hthere, hmarks⟩ := ih hrest
      exact ⟨hspares.trans hothers, List.forall_mem_cons.mpr ⟨hothers.exists?_true hfile, hthere⟩,
        by rw [hmarked, hmarks]⟩

/-- A plan that was carried out is settled for all who keep existing files. -/
theorem isSettled_of_carryOut (hinner : IsInnerPlan entries) {done : Ledger × Allowance}
    (hrun : (carryOut entries root contents policy none).outcome d = (.ok done, d₁))
    (given : Contents) :
    Spares (fun _ => True) d d₁ ∧ IsSettled root .skip given entries d₁ := by
  obtain ⟨made, middle, marked, hmake, hwrite, -⟩ := carryOut_eq_ok hrun
  obtain ⟨hspares, hfiles, -⟩ := writeFiles_present hwrite
  refine ⟨.trans (.of_grows (makeMissing_adds hmake).grows) hspares, fun directory hdirectory => ?_,
    hfiles, by simp⟩
  exact hspares.exists?_true (makeMissing_present hinner.wanted hmake directory hdirectory)

/-! ## Settled plans that skip -/

/-- Files that are there are all skipped. -/
theorem outcome_writeFiles_of_present {allowance : Allowance} (hspent : allowance.isSpent = false)
    {files : List String} (hthere : ∀ file ∈ files, d.exists? (root.extend file) = .ok true) :
    (writeFiles root .skip contents allowance files).outcome d =
      (.ok (marksOf (fun _ => .skip) files, allowance), d) := by
  induction files with
  | nil => rfl
  | cons file rest ih =>
      obtain ⟨hfirst, hrest⟩ := List.forall_mem_cons.mp hthere
      rw [outcome_writeFiles_cons hspent, turnOf_skip, hfirst]
      simp only [ih hrest]
      rfl

/-- The ledger of a run that skipped all files, each as often as the plan has it. -/
theorem ledgerOf_skipped {order : List String} (horder : order.Perm (plannedFiles entries))
    {left : Allowance} (hspent : left.isSpent = false) :
    (ledgerOf entries [] (marksOf (fun _ => .skip) order, left)).1 =
      { skipped := plannedFiles entries } := by
  have hmark : ∀ file ∈ plannedFiles entries,
      markOf? (marksOf (fun _ => .skip) order) file = some .skipped :=
    fun file hfile => markOf?_marksOf (horder.mem_iff.mpr hfile)
  have hfiles : (plannedFiles entries).filter
      (fun file => markOf? (marksOf (fun _ => .skip) order) file == some .written) = [] :=
    List.filter_eq_nil_iff.mpr fun file hfile => by simp [hmark file hfile]
  have hskipped : (plannedFiles entries).filter
      (fun file => markOf? (marksOf (fun _ => .skip) order) file == some .skipped) =
        plannedFiles entries :=
    List.filter_eq_self.mpr fun file hfile => by simp [hmark file hfile]
  simp only [ledgerOf, hfiles, hskipped, hspent, Bool.false_and, List.filter_nil]

namespace IsSettled

variable (h : IsSettled root .skip contents entries d)

include h

theorem outcome_carryOut {allowance : Allowance} (hspent : allowance.isSpent = false) :
    (carryOut entries root contents .skip allowance).outcome d =
      (.ok ({ skipped := plannedFiles entries }, allowance), d) := by
  rw [outcome_carryOut_of_running (.inl hspent), h.outcome_makeMissing (List.Subset.refl _)]
  simp only [outcome_writeFiles_of_present hspent h.files, Except.map]
  rw [← ledgerOf_skipped (.refl _) hspent]
  rfl

theorem outcome_carryOutUntil {order : List String → List String}
    (horder : ∀ files, (order files).Perm files) :
    (carryOutUntil none order entries root contents .skip).outcome d =
      (.ok { skipped := plannedFiles entries }, d) := by
  have hthere : ∀ file ∈ order (plannedFiles entries), d.exists? (root.extend file) = .ok true :=
    fun file hfile => h.files file ((horder _).mem_iff.mp hfile)
  have hrunning : Allowance.isSpent none = false := rfl
  rw [PackageScaffold.outcome_carryOutUntil, Span.front_none,
    h.outcome_makeMissing (List.Subset.refl _)]
  simp only [Span.endsWithin_none, Bool.false_eq_true, if_false, Span.behind_none, Span.front_none,
    outcome_writeFiles_of_present hrunning hthere, Except.map, ledgerOf_skipped (horder _) hrunning]

end IsSettled

end PackageScaffold
