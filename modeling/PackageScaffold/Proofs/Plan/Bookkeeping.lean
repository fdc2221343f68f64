import PackageScaffold.Proofs.Plan.Cancellation
import PackageScaffold.Proofs.Plan.Missing
import PackageScaffold.Proofs.Project.Unhindered

/-!
# What a ledger tells

The ledger of a plan is put together when the plan is through, from the directories that were made
and the marks of the files, while its cancellation is found out in two ways: a plan that is
cancelled among its directories ends there, and one that is cancelled among its files is known by
their number.  It is right all the same, at whatever point the plan is cancelled and in whatever
order its files are finished.

* `ledgerOf_reached`: the ledger of a run that came to some of the files;
* `endsWithin_of_carryOutUntil`: how a run of a normal plan within a span came to its end;
* `Ledger.Tells`, `Ledger.TellsBefore`: what a ledger tells of a run, below every root and below clear
  ones;
* `carryOut_ledger`: every ledger tells that;
* `carryOut_passed_directory`: why the root has to be clear.
-/

namespace PackageScaffold

open Disk FileM

variable {d : Disk} {root : Path} {policy : Policy} {contents : Contents} {entries : List PlanEntry}

/-! ## Normal plans -/

namespace IsNormalPlan

variable (h : IsNormalPlan entries)

include h

/-- A plan whose paths are normal stays inside its root. -/
theorem isInner : IsInnerPlan entries where
  directories directory hdirectory := by
    obtain ⟨entry, hentry, rfl⟩ := List.mem_map.mp hdirectory
    obtain ⟨steps, hspells⟩ := h.spelled entry (List.mem_filter.mp hentry).1
    exact hspells.isInner
  files file hfile := by
    obtain ⟨steps, hspells⟩ := h.exists_spells hfile
    exact hspells.isInner

theorem nodup_directories : (plannedDirectories entries).Nodup :=
  h.distinct.sublist (List.filter_sublist.map PlanEntry.path)

theorem nodup_files : (plannedFiles entries).Nodup :=
  h.distinct.sublist (List.filter_sublist.map PlanEntry.path)

end IsNormalPlan

/-! ## Ledgers -/

/-- A list in which nothing is twice has no duplicates to be erased. -/
theorem eraseDups_eq_self {α : Type} [BEq α] [LawfulBEq α] {items : List α} (h : items.Nodup) :
    items.eraseDups = items := by
  induction items with
  | nil => simp
  | cons first rest ih =>
      obtain ⟨hfirst, hrest⟩ := List.nodup_cons.mp h
      have hkept : rest.filter (fun other => !other == first) = rest := by
        refine List.filter_eq_self.mpr fun other hother => ?_
        simpa using fun heq : other = first => hfirst (heq ▸ hother)
      rw [List.eraseDups_cons, hkept, ih hrest]

/-- A file that was not reached is not marked. -/
theorem markOf?_marksOf_of_not_mem {turn : String → Turn} {order : List String} {file : String}
    (h : file ∉ order) : markOf? (marksOf turn order) file = none := by
  rw [markOf?, List.lookup_eq_none_iff]
  intro mark hmark
  obtain ⟨other, hother, rfl⟩ := List.mem_map.mp (List.mem_reverse.mp hmark)
  simpa using fun heq : file = other => h (heq ▸ hother)

/-- The ledger of a run that came to the files in front, in whichever order they were finished. -/
theorem ledgerOf_reached {reached order : List String} (hreached : reached <+: plannedFiles entries)
    (hnodup : (plannedFiles entries).Nodup) (hperm : order.Perm reached) (made : List String)
    (turn : String → Turn) (left : Allowance) :
    (ledgerOf entries made (marksOf turn order, left)).1 =
      { directories := made.filter (plannedDirectories entries).contains
        files := due turn reached
        skipped := reached.filter fun file => !(turn file).isWrite
        cancelled := left.isSpent && decide (reached.length < (plannedFiles entries).length) } := by
  obtain ⟨rest, hrest⟩ := hreached
  rw [← hrest] at hnodup
  obtain ⟨hnodupReached, -, hapart⟩ := List.nodup_append.mp hnodup
  -- the files behind are not marked, and those in front as their turns say
  have hfilter : ∀ mark : Mark, (plannedFiles entries).filter
      (fun file => markOf? (marksOf turn order) file == some mark) =
        reached.filter fun file => (turn file).mark == mark := by
    intro mark
    have hbehind : rest.filter (fun file => markOf? (marksOf turn order) file == some mark) =
        [] := by
      refine List.filter_eq_nil_iff.mpr fun file hfile => ?_
      have hnone : file ∉ order := fun hmem => hapart file (hperm.mem_iff.mp hmem) file hfile rfl
      simp [markOf?_marksOf_of_not_mem hnone]
    rw [← hrest, List.filter_append, hbehind, List.append_nil]
    refine List.filter_congr fun file hfile => ?_
    rw [markOf?_marksOf (hperm.mem_iff.mpr hfile)]
    rfl
  have hmarks : (marksOf turn order).map (·.1) = order := by simp [marksOf, Function.comp_def]
  have hlength : order.eraseDups.length = reached.length := by
    rw [eraseDups_eq_self (hperm.nodup_iff.mpr hnodupReached), hperm.length_eq]
  have hwritten : ∀ file, ((turn file).mark == .written) = (turn file).isWrite := by
    intro file
    cases turn file <;> rfl
  have hskipped : ∀ file, ((turn file).mark == .skipped) = !(turn file).isWrite := by
    intro file
    cases turn file <;> rfl
  simp only [ledgerOf, hfilter, hmarks, hlength, hwritten, hskipped, due]

/-! ## Ends of runs -/

/-- What some files leave behind is left behind by the same files in another order. -/
theorem Receives.of_mem_iff {d₁ : Disk} {files others : List String}
    (h : Receives root contents d d₁ files) (hfiles : ∀ file, file ∈ files ↔ file ∈ others) :
    Receives root contents d d₁ others where
  toSameDirectories := h.toSameDirectories
  written file hfile := h.written file ((hfiles file).mpr hfile)
  others steps hother := h.others steps fun file hfile => hother file ((hfiles file).mp hfile)

theorem Separate.sublist {files part : List String} (h : Separate root policy d files)
    (hsublist : part.Sublist files) : Separate root policy d part where
  apart file hfile other hother :=
    h.apart file (hsublist.subset hfile) other (hsublist.subset hother)
  once := h.once.imp_right fun hnodup => hnodup.sublist hsublist

/-- A span that does not come to the end of a list ends there. -/
theorem Span.isSpent_behind {span : Span} {files : List String}
    (h : (span.front files).length < files.length) :
    Allowance.isSpent (span.behind files.length) = true := by
  cases span with
  | none => simp at h
  | some looks =>
      rw [front_some, List.length_take] at h
      simp only [behind_some, Allowance.isSpent, beq_iff_eq, Option.some.injEq]
      omega

/-- How a run within a span comes to its end.  It is cancelled among its directories, or all of them
are there, and of the files that it comes to those whose turn it is are written. -/
inductive EndsWithin (span : Span) (root : Path) (policy : Policy) (contents : Contents)
    (entries : List PlanEntry) (before after : Disk) : Ledger → Prop
  | early {made : List String}
      (hwithin : span.endsWithin (wantedDirectories entries).length = true)
      (hmake : (makeMissing root (span.front (wantedDirectories entries))).outcome before =
        (.ok made, after)) :
      EndsWithin span root policy contents entries before after
        { directories := made.filter (plannedDirectories entries).contains, cancelled := true }
  | through {made reached : List String} {middle : Disk}
      (hwithin : span.endsWithin (wantedDirectories entries).length = false)
      (hmake : (makeMissing root (wantedDirectories entries)).outcome before = (.ok made, middle))
      (hreached : reached =
        (span.behind (wantedDirectories entries).length).front (plannedFiles entries))
      (hunseen : unseen? (turnOf root policy middle) reached = none)
      (hreceives : Receives root contents middle after (due (turnOf root policy middle) reached))
      (hwritable : ∀ file ∈ due (turnOf root policy middle) reached,
        Writable root policy contents middle file) :
      EndsWithin span root policy contents entries before after
        { directories := made.filter (plannedDirectories entries).contains
          files := due (turnOf root policy middle) reached
          skipped := reached.filter fun file => !(turnOf root policy middle file).isWrite
          cancelled := decide (reached.length < (plannedFiles entries).length) }

/-- A run within a span that comes to a ledger ends in one of these ways. -/
theorem endsWithin_of_carryOutUntil (hnormal : IsNormalPlan entries) {span : Span}
    {order : List String → List String} (horder : ∀ files, (order files).Perm files)
    {ledger : Ledger}
    {after : Disk}
    (hrun : (carryOutUntil span order entries root contents policy).outcome d =
      (.ok ledger, after)) :
    EndsWithin span root policy contents entries d after ledger := by
  cases carryOutUntil_eq_ok hrun with
  | early hwithin hmake => exact .early hwithin hmake
  | @through made middle marked hwithin hmake hwrite =>
      generalize hreached : (span.behind (wantedDirectories entries).length).front
        (plannedFiles entries) = reached at hwrite
      have hreaches : reached <+: plannedFiles entries := hreached ▸ Span.front_prefix _ _
      have hseparate := ((hnormal.separate root policy middle).sublist hreaches.sublist).perm
        (horder reached)
      obtain ⟨hunseen, hreceives, hwritable, rfl⟩ :=
        writeFiles_through hseparate (fun _ _ => rfl) hwrite
      -- in another order the same files are due, and as many are left over
      have hdue : ∀ file, file ∈ due (turnOf root policy middle) (order reached) ↔
          file ∈ due (turnOf root policy middle) reached :=
        fun file => ((horder reached).filter _).mem_iff
      have hspent : ((Allowance.isSpent ((span.behind (wantedDirectories entries).length).behind
          (plannedFiles entries).length)) && decide
            (reached.length < (plannedFiles entries).length)) =
            decide (reached.length < (plannedFiles entries).length) := by
        by_cases hshort : reached.length < (plannedFiles entries).length
        · rw [Span.isSpent_behind (hreached ▸ hshort), Bool.true_and]
        · simp [hshort]
      rw [ledgerOf_reached hreaches hnormal.nodup_files (horder reached), hspent]
      exact .through hwithin hmake hreached.symm
        (unseen?_eq_none_iff.mpr fun file hfile =>
          unseen?_eq_none_iff.mp hunseen file ((horder reached).mem_iff.mpr hfile))
        (hreceives.of_mem_iff hdue) fun file hfile => hwritable file ((hdue file).mpr hfile)

/-! ## What a ledger tells -/

/-- What a ledger tells of a run within a span.  Its lists are in the order of the plan, no file is
on two of them, what was written holds its content, and files are skipped only if that is the
policy.  A run that was not cancelled came to all files; one that was left something undone. -/
structure Ledger.Tells (ledger : Ledger) (span : Span) (root : Path) (policy : Policy)
    (contents : Contents) (entries : List PlanEntry) (after : Disk) : Prop where
  inOrder : ledger.InOrder entries
  disjoint : ledger.files.Disjoint ledger.skipped
  written : ∀ file ∈ ledger.files, ∃ text, contents.lookup file = some text ∧
    after.itemAt (root.extend file) = .ok (.file (.text text))
  skips : ledger.skipped ≠ [] → policy = .skip
  covers : ledger.cancelled = false →
    span.front (plannedDirectories entries) = plannedDirectories entries ∧
      ∀ file ∈ plannedFiles entries, file ∈ ledger.files ∨ file ∈ ledger.skipped
  cancels : ledger.cancelled = true → span ≠ none ∧
    ((∃ directory ∈ plannedDirectories entries,
      directory ∉ span.front (plannedDirectories entries)) ∨
    ∃ file ∈ plannedFiles entries, file ∉ ledger.files ∧ file ∉ ledger.skipped)

/-- What a ledger tells of the disk before a run.  Of the directories that the run came to, those
were made where nothing stood, which it could see from the start.  What was skipped was there, and
it is there as it was, with all that is inside. -/
structure Ledger.TellsBefore (ledger : Ledger) (span : Span) (root : Path) (entries : List PlanEntry)
    (before after : Disk) : Prop where
  directories : ledger.directories =
    (span.front (plannedDirectories entries)).filter (isMissing root before)
  seen : ∀ directory ∈ span.front (plannedDirectories entries),
    before.exists? (root.extend directory) = .ok (!isMissing root before directory)
  skipped : ∀ file ∈ ledger.skipped, before.exists? (root.extend file) = .ok true ∧
    ∀ more, after.tree.item? (before.place (root.extend file) ++ more) =
      before.tree.item? (before.place (root.extend file) ++ more)

namespace Span

theorem front_append (span : Span) (xs ys : List String) :
    span.front (xs ++ ys) = span.front xs ++ (span.behind xs.length).front ys := by
  cases span with
  | none => rfl
  | some looks => simp [List.take_append]

/-- A span that ends within distinct things leaves one of them out. -/
theorem exists_not_mem_front {span : Span} {xs : List String} (hnodup : xs.Nodup)
    (h : span.endsWithin xs.length = true) : ∃ x ∈ xs, x ∉ span.front xs := by
  cases span with
  | none => simp at h
  | some looks =>
      have hlooks : looks < xs.length := by simpa using h
      refine ⟨xs[looks], List.getElem_mem hlooks, fun hmem => ?_⟩
      rw [← List.take_append_drop looks xs, List.nodup_append] at hnodup
      refine hnodup.2.2 _ hmem _ ?_ rfl
      rw [List.drop_eq_getElem_cons hlooks]
      exact List.mem_cons_self

/-- A span that does not come to all of a list ends within it. -/
theorem endsWithin_of_length_lt {span : Span} {xs : List String}
    (h : (span.front xs).length < xs.length) : span.endsWithin xs.length = true := by
  by_contra hnot
  rw [front_of_not_endsWithin (by simpa using hnot)] at h
  exact lt_irrefl _ h

/-- A span that does not end within two lists comes to all of the first one. -/
theorem front_of_not_endsWithin_append {span : Span} {xs ys : List String}
    (h : span.endsWithin (xs ++ ys).length = false) : span.front xs = xs := by
  have hboth := congrArg List.length (front_of_not_endsWithin h)
  rw [front_append, List.length_append, List.length_append] at hboth
  have hsecond := (Span.front_prefix (span.behind xs.length) ys).length_le
  exact (span.front_prefix xs).eq_of_length_le (by omega)

end Span

/-- A plan that is cancelled among the directories that it wants leaves one of its own undone, or
has files that it does not come to. -/
theorem exists_undone_of_endsWithin (hnormal : IsNormalPlan entries) {span : Span}
    (hwithin : span.endsWithin (wantedDirectories entries).length = true) :
    (∃ directory ∈ plannedDirectories entries,
      directory ∉ span.front (plannedDirectories entries)) ∨
      ∃ file, file ∈ plannedFiles entries := by
  cases hplanned : span.endsWithin (plannedDirectories entries).length with
  | true => exact .inl (span.exists_not_mem_front hnormal.nodup_directories hplanned)
  | false =>
      -- the span ends among the directories that files stand in, so there are files
      refine .inr (List.exists_mem_of_ne_nil _ fun hnil => ?_)
      have hwanted : wantedDirectories entries = plannedDirectories entries := by
        simp [wantedDirectories, hnil, impliedDirectories]
      rw [hwanted, hplanned] at hwithin
      simp at hwithin

namespace EndsWithin

variable {span : Span} {after : Disk} {ledger : Ledger}
  (h : EndsWithin span root policy contents entries d after ledger)

include h

theorem tells (hnormal : IsNormalPlan entries) :
    ledger.Tells span root policy contents entries after := by
  have hmade : ∀ {made : List String} {middle : Disk},
      (makeMissing root (span.front (wantedDirectories entries))).outcome d = (.ok made, middle) →
        (made.filter (plannedDirectories entries).contains).Sublist
          (plannedDirectories entries) := by
    intro made middle hmake
    have hsublist := (makeMissing_sublist hmake).trans (span.front_prefix _).sublist
    have hfilter := hsublist.filter (plannedDirectories entries).contains
    rwa [filter_wantedDirectories] at hfilter
  cases h with
  | early hwithin hmake =>
      refine ⟨⟨hmade hmake, by simp, by simp⟩, by simp, by simp, by simp, by simp, fun _ =>
        ⟨?_, ?_⟩⟩
      · rintro rfl
        simp at hwithin
      · refine (exists_undone_of_endsWithin hnormal hwithin).imp_right ?_
        rintro ⟨file, hfile⟩
        exact ⟨file, hfile, by simp, by simp⟩
  | @through made reached middle hwithin hmake hreached hunseen hreceives hwritable =>
      have hreaches : reached <+: plannedFiles entries := hreached ▸ Span.front_prefix _ _
      rw [← Span.front_of_not_endsWithin hwithin] at hmake
      -- what was come to is written or skipped, and nothing is both
      have hmem : ∀ file, file ∈ reached ↔ file ∈ due (turnOf root policy middle) reached ∨
          file ∈ reached.filter fun file => !(turnOf root policy middle file).isWrite := by
        intro file
        simp only [due, List.mem_filter]
        cases (turnOf root policy middle file).isWrite <;> simp
      refine ⟨⟨hmade hmake, List.filter_sublist.trans hreaches.sublist,
        List.filter_sublist.trans hreaches.sublist⟩, ?_, ?_, ?_, ?_, ?_⟩
      · refine List.disjoint_left.mpr fun file hwritten hskipped => ?_
        have hturn := (List.mem_filter.mp hwritten).2
        simp [hturn] at hskipped
      · exact fun file hfile => hreceives.itemAt hfile (hwritable file hfile)
      · intro hne
        by_contra hpolicy
        refine hne (List.filter_eq_nil_iff.mpr fun file _ => ?_)
        simp [turnOf_of_ne_skip hpolicy, Turn.isWrite]
      · intro hnot
        have hall : reached = plannedFiles entries :=
          hreaches.eq_of_length_le (by simpa using hnot)
        exact ⟨Span.front_of_not_endsWithin_append hwithin, fun file hfile =>
          (hmem file).mp (hall ▸ hfile)⟩
      · intro hshort
        simp only [decide_eq_true_eq] at hshort
        rw [hreached] at hshort
        refine ⟨?_, .inr ?_⟩
        · rintro rfl
          simp at hshort
        · obtain ⟨file, hfile, hnot⟩ := Span.exists_not_mem_front hnormal.nodup_files
            (Span.endsWithin_of_length_lt hshort)
          rw [← hreached, hmem, not_or] at hnot
          exact ⟨file, hfile, hnot⟩

end EndsWithin

section Clear

variable (hclear : d.IsClear root) (hinner : IsInnerPlan entries)

include hclear hinner

/-- Of the directories that a run makes, those of the plan are the ones that were missing. -/
theorem filter_made_eq (horder : (plannedDirectories entries).Pairwise fun earlier later =>
      ¬ (Path.ofString later).steps <+: (Path.ofString earlier).steps) {span : Span}
    {made : List String} {middle : Disk}
    (hmake : (makeMissing root (span.front (wantedDirectories entries))).outcome d =
      (.ok made, middle)) :
    made.filter (plannedDirectories entries).contains =
        (span.front (plannedDirectories entries)).filter (isMissing root d) ∧
      ∀ directory ∈ span.front (plannedDirectories entries),
        d.exists? (root.extend directory) = .ok (!isMissing root d directory) := by
  have hsubset : ∀ {directory}, directory ∈ span.front (plannedDirectories entries) →
      directory ∈ plannedDirectories entries := fun hmem => (span.front_prefix _).subset hmem
  rw [wantedDirectories, Span.front_append] at hmake
  obtain ⟨made₁, made₂, first, hfirst, hsecond, rfl⟩ := makeMissing_append hmake
  have hfront : ∀ directory ∈ span.front (plannedDirectories entries), Path.IsInner directory :=
    fun directory hmem => hinner.directories directory (hsubset hmem)
  refine ⟨?_, fun directory hmem => hclear.exists?_eq (hfront directory hmem)
    (makeMissing_adds hfirst).grows (makeMissing_present hfront hfirst directory hmem)⟩
  -- what is made for the files only is not listed
  have hlisted : made₁.filter (plannedDirectories entries).contains = made₁ :=
    List.filter_eq_self.mpr fun directory hmem => by
      simpa using hsubset ((makeMissing_sublist hfirst).subset hmem)
  have hunlisted : made₂.filter (plannedDirectories entries).contains = [] := by
    refine List.filter_eq_nil_iff.mpr fun directory hmem => ?_
    have himplied := (Span.front_prefix _ _).subset ((makeMissing_sublist hsecond).subset hmem)
    simp only [impliedDirectories, List.mem_mergeSort, List.mem_filter] at himplied
    simpa using himplied.2
  rw [List.filter_append, hlisted, hunlisted, List.append_nil]
  exact makeMissing_eq_filter hclear hfront
    (horder.sublist (span.front_prefix _).sublist) hfirst

/-- What is inside the place of a file is no business of the directories. -/
theorem item?_of_made (hfree : IsCollisionFree entries) {made : List String} {middle : Disk}
    (hmake : (makeMissing root (wantedDirectories entries)).outcome d = (.ok made, middle))
    {file : String} (hfile : file ∈ plannedFiles entries) (more : List String) :
    middle.tree.item? (d.place (root.extend file) ++ more) =
      d.tree.item? (d.place (root.extend file) ++ more) := by
  rw [place_extend (hinner.files file hfile), List.append_assoc]
  refine (makeMissing_below hclear hinner.wanted hmake).2 _
    (by simp [(hinner.files file hfile).nonempty]) fun directory hdirectory hleads => ?_
  exact hfree.not_prefix_wanted hinner hfile hdirectory ((List.prefix_append _ more).trans hleads)

end Clear

/-- A file that is skipped shows. -/
theorem exists?_of_not_isWrite {policy : Policy} {file : String}
    (hturn : (turnOf root policy d file).isWrite = false)
    (hseen : (turnOf root policy d file).failure? = none) :
    d.exists? (root.extend file) = .ok true := by
  unfold turnOf at hturn hseen
  by_cases hpolicy : (policy == .skip) = true
  · rw [if_pos hpolicy] at hturn hseen
    rcases hexists : d.exists? (root.extend file) with failure | isThere
    · simp [hexists, Turn.failure?] at hseen
    · cases isThere with
      | true => rfl
      | false => simp [hexists, Turn.isWrite] at hturn
  · rw [if_neg hpolicy] at hturn
    simp [Turn.isWrite] at hturn

/-- What stands inside the place of one file is not in the place of another one. -/
theorem place_ne_of_apart (hinner : IsInnerPlan entries) (hfree : IsCollisionFree entries)
    {file other : String} (hfile : file ∈ plannedFiles entries)
    (hother : other ∈ plannedFiles entries) (hne : file ≠ other) (more : List String) :
    d.place (root.extend file) ++ more ≠ d.place (root.extend other) := by
  intro heq
  rw [place_extend (hinner.files file hfile), place_extend (hinner.files other hother),
    List.append_assoc] at heq
  obtain ⟨entry, hentry, hkind, rfl⟩ := IsCollisionFree.exists_of_mem_plannedFiles hfile
  obtain ⟨entry', hentry', -, rfl⟩ := IsCollisionFree.exists_of_mem_plannedFiles hother
  have hapart := hfree.apart.forall hentry hentry' fun h => hne (congrArg PlanEntry.path h)
  exact hapart.1 hkind ⟨more, List.append_cancel_left heq⟩

theorem EndsWithin.tellsBefore {span : Span} {after : Disk} {ledger : Ledger}
    (h : EndsWithin span root policy contents entries d after ledger) (hclear : d.IsClear root)
    (hinner : IsInnerPlan entries) (hfree : IsCollisionFree entries)
    (horder : (plannedDirectories entries).Pairwise fun earlier later =>
      ¬ (Path.ofString later).steps <+: (Path.ofString earlier).steps) :
    ledger.TellsBefore span root entries d after := by
  cases h with
  | early hwithin hmake =>
      obtain ⟨hdirectories, hseen⟩ := filter_made_eq hclear hinner horder hmake
      exact ⟨hdirectories, hseen, by simp⟩
  | @through made reached middle hwithin hmake hreached hunseen hreceives hwritable =>
      have hfront := hmake
      rw [← Span.front_of_not_endsWithin hwithin] at hfront
      obtain ⟨hdirectories, hseen⟩ := filter_made_eq hclear hinner horder hfront
      have hadds := makeMissing_adds hmake
      have hreaches : reached <+: plannedFiles entries := hreached ▸ Span.front_prefix _ _
      refine ⟨hdirectories, hseen, fun file hskipped => ?_⟩
      obtain ⟨hfile, hturn⟩ := List.mem_filter.mp hskipped
      have hplanned := hreaches.subset hfile
      have hthere := exists?_of_not_isWrite (by simpa using hturn)
        (unseen?_eq_none_iff.mp hunseen file hfile)
      -- making the directories has changed nothing in the place of a planned file or below it
      have hsame := item?_of_made hclear hinner hfree hmake hplanned
      have hmissing : isMissing root d file = false := by
        have hlater := isMissing_eq_false hthere
        have hplace := hsame []
        rw [List.append_nil] at hplace
        rwa [isMissing, place_of_working hadds.working, hplace] at hlater
      refine ⟨?_, fun more => ?_⟩
      · rw [hclear.exists?_eq (hinner.files file hplanned) hadds.grows hthere, hmissing]
        rfl
      · rw [← hsame more, ← place_of_working hadds.working]
        refine hreceives.others _ fun other hother => ?_
        obtain ⟨hreachedOther, hwrite⟩ := List.mem_filter.mp hother
        refine place_ne_of_apart hinner hfree hplanned (hreaches.subset hreachedOther) ?_ more
        rintro rfl
        simp [hwrite] at hturn

/-! ## Every ledger -/

/-- The ledger of a plan is right: its paths are normal, none of its files stands on the way to
another entry, and none of its directories behind one inside it.  That is so whenever the plan comes
to a ledger, by an allowance or within a span, in whatever order its files are finished.  What the
ledger tells of the disk before holds where the path of the root does not lead back, where the root
is there, and where nothing is inside it, not even on the way. -/
theorem carryOut_ledger (hnormal : IsNormalPlan entries) (hfree : IsCollisionFree entries)
    (horder : (plannedDirectories entries).Pairwise fun earlier later =>
      ¬ (Path.ofString later).steps <+: (Path.ofString earlier).steps) (root : Path) (policy : Policy)
    (contents : Contents) (d : Disk) :
    (∀ allowance done after,
      (carryOut entries root contents policy allowance).outcome d = (.ok done, after) →
      ∃ span : Span, (allowance = none → span = none) ∧
        done.1.Tells span root policy contents entries after ∧
        (".." ∉ root.steps ∨ (∃ top, Rooted d root top) ∨ d.IsVacant root →
          done.1.TellsBefore span root entries d after)) ∧
    ∀ (span : Span) (order : List String → List String), (∀ files, (order files).Perm files) →
      ∀ ledger after,
        (carryOutUntil span order entries root contents policy).outcome d = (.ok ledger, after) →
        ledger.Tells span root policy contents entries after ∧
        (".." ∉ root.steps ∨ (∃ top, Rooted d root top) ∨ d.IsVacant root →
          ledger.TellsBefore span root entries d after) := by
  have hwithin : ∀ (span : Span) (order : List String → List String),
      (∀ files, (order files).Perm files) → ∀ ledger after,
        (carryOutUntil span order entries root contents policy).outcome d = (.ok ledger, after) →
        ledger.Tells span root policy contents entries after ∧
        (".." ∉ root.steps ∨ (∃ top, Rooted d root top) ∨ d.IsVacant root →
          ledger.TellsBefore span root entries d after) := by
    intro span order hperm ledger after hrun
    have hends := endsWithin_of_carryOutUntil hnormal hperm hrun
    refine ⟨hends.tells hnormal, fun hroot => ?_⟩
    have hclear : d.IsClear root := by
      rcases hroot with hforward | ⟨top, hrooted⟩ | hvacant
      · exact isClear_of_forward hforward d
      · exact hrooted.isClear
      · exact hvacant.isClear
    exact hends.tellsBefore hclear hnormal.isInner hfree horder
  refine ⟨fun allowance done after hrun => ?_, hwithin⟩
  obtain ⟨span, hnone, hspan⟩ := exists_span_carryOut allowance entries root contents policy d
  rw [hrun] at hspan
  exact ⟨span, hnone, hwithin span id (fun _ => .refl _) done.1 after hspan.symm⟩

/-- A directory and three files, one of which is there already, cancelled in front of the last. -/
theorem carryOut_ledger_cancelled :
    let disk : Disk := { tree := .directory [("b", .file (.text "old"))] }
    let entries : List PlanEntry := [.directory "a", .file "a/x" none, .file "b" none, .file "c" none]
    let contents : Contents := [("a/x", "1"), ("b", "2"), ("c", "3")]
    IsNormalPlan entries ∧ IsCollisionFree entries ∧
    (plannedDirectories entries).Pairwise (fun earlier later =>
      ¬ (Path.ofString later).steps <+: (Path.ofString earlier).steps) ∧
    ∃ ledger after,
      (carryOutUntil (some 3) List.reverse entries .here contents .skip).outcome disk =
        (.ok ledger, after) ∧
      ledger = { directories := ["a"], files := ["a/x"], skipped := ["b"], cancelled := true } ∧
      ledger.Tells (some 3) .here .skip contents entries after ∧
      ledger.TellsBefore (some 3) .here entries disk after := by
  intro disk entries contents
  have hnormal : IsNormalPlan entries :=
    ⟨by
      simp only [entries, List.forall_mem_cons]
      exact ⟨⟨["a"], by decide⟩, ⟨["a", "x"], by decide⟩, ⟨["b"], by decide⟩, ⟨["c"], by decide⟩,
        by simp⟩, by decide⟩
  have hfree : IsCollisionFree entries := ⟨by decide, by unfold PlanEntry.Apart; decide⟩
  have horder : (plannedDirectories entries).Pairwise (fun earlier later =>
      ¬ (Path.ofString later).steps <+: (Path.ofString earlier).steps) := by decide
  have hrun : ((carryOutUntil (some 3) List.reverse entries .here contents .skip).outcome disk).1 =
      .ok { directories := ["a"], files := ["a/x"], skipped := ["b"], cancelled := true } := by
    decide +kernel
  obtain ⟨htells, hbefore⟩ := (carryOut_ledger hnormal hfree horder .here .skip contents disk).2
    (some 3) List.reverse List.reverse_perm _ _ (Prod.ext hrun rfl)
  exact ⟨hnormal, hfree, horder, _, _, Prod.ext hrun rfl, rfl, htells, hbefore (.inl (by decide))⟩

/-- Where the path of the root leads back out of what is inside, that is made with the root.
Although it was missing, the ledger then does not list it among the directories, and a file of that
name is skipped. -/
theorem carryOut_passed_directory :
    let root := Path.ofString "b/lib/.."
    (∀ entries ∈ [[.directory "x", .directory "lib"], [.directory "x", .file "lib" none]],
      IsNormalPlan entries ∧ IsCollisionFree entries ∧
      (plannedDirectories entries).Pairwise fun earlier later =>
        ¬ (Path.ofString later).steps <+: (Path.ofString earlier).steps) ∧
    ({} : Disk).exists? (root.extend "lib") = .ok false ∧
    ({} : Disk).tree.item? (({} : Disk).place (root.extend "lib")) = none ∧
    (∃ done after,
      (carryOut [.directory "x", .directory "lib"] root [] .fail none).outcome {} = (.ok done, after) ∧
      done.1 = { directories := ["x"] }) ∧
    ∃ done after,
      (carryOut [.directory "x", .file "lib" none] root [("lib", "")] .skip none).outcome {} =
        (.ok done, after) ∧
      done.1 = { directories := ["x"], skipped := ["lib"] } := by
  intro root
  have hlisted : ((carryOut [.directory "x", .directory "lib"] root [] .fail none).outcome {}).1 =
      .ok ({ directories := ["x"] }, none) := by
    decide +kernel
  have hskipped : ((carryOut [.directory "x", .file "lib" none] root [("lib", "")] .skip
      none).outcome {}).1 = .ok ({ directories := ["x"], skipped := ["lib"] }, none) := by
    decide +kernel
  have hlib : ∀ lib : PlanEntry, lib.path = "lib" →
      ∀ entry ∈ [.directory "x", lib], ∃ steps, Path.Spells entry.path steps := by
    intro lib hpath
    simp only [List.forall_mem_cons, hpath]
    exact ⟨⟨["x"], by decide⟩, ⟨["lib"], by decide⟩, by simp⟩
  obtain ⟨_, hlistedRun⟩ := exists_outcome_eq hlisted
  obtain ⟨_, hskippedRun⟩ := exists_outcome_eq hskipped
  refine ⟨?_, by decide, by decide, ⟨_, _, hlistedRun, rfl⟩, _, _, hskippedRun, rfl⟩
  simp only [List.forall_mem_cons]
  refine ⟨⟨⟨hlib _ rfl, by decide⟩, ⟨by decide, ?_⟩, by decide⟩,
    ⟨⟨hlib _ rfl, by decide⟩, ⟨by decide, ?_⟩, by decide⟩, by simp⟩
  all_goals unfold PlanEntry.Apart; decide

end PackageScaffold
