import PackageScaffold.Proofs.Review.Fix

/-!
# Checks on a package that has grown

A check that was passed stays passed while a package grows, and one that failed fails in the same
way, unless what it misses was brought back.  A rule that could not make its checks cannot make them
later either, and for the same reason.

* `Improves`: how a check may change;
* `Progress`: how a package grows by repairs, as far as checks can see it;
* `tracks_checks`: every rule fails on the grown package as it failed before, or comes to checks
  each of which has improved.
-/

namespace PackageScaffold

open Disk

/-! ## Checks that improve -/

/-- How a check may change: not at all, or from a failure that comes with a plan to a passed check.
-/
inductive Improves (mended : String → Prop) : Check → Check → Prop
  | same (check : Check) : Improves mended check check
  | mended {severity : Severity} {message subject : String} {repair : List PlanEntry}
      (success : String) (hrepair : repair ≠ []) (hmended : mended subject) :
      Improves mended (.failed severity message subject repair) (.passed success)

/-- How lists of checks may change. -/
abbrev ImproveAll (mended : String → Prop) : List Check → List Check → Prop :=
  List.Forall₂ (Improves mended)

theorem improveAll_refl (mended : String → Prop) (checks : List Check) :
    ImproveAll mended checks checks :=
  List.forall₂_same.mpr fun check _ => .same check

/-- Whatever failed checks are asked for, the answers that are left were given before, in the same
order. -/
theorem ImproveAll.sublist {mended : String → Prop} {before after : List Check}
    (h : ImproveAll mended before after) {α : Type} {f : Check → Option α}
    (hpassed : ∀ message, f (.passed message) = none) :
    (after.filterMap f).Sublist (before.filterMap f) := by
  induction h with
  | nil => exact .slnil
  | @cons check check' _ _ hcheck _ ih =>
      have hafter : f check' = none ∨ f check' = f check := by
        cases hcheck with
        | same => exact .inr rfl
        | mended success hrepair hmended => exact .inl (hpassed success)
      rw [List.filterMap_cons, List.filterMap_cons]
      cases hbefore : f check with
      | none =>
          obtain hnone : f check' = none := by simpa [hbefore] using hafter
          simpa only [hnone] using ih
      | some answer =>
          rcases hafter with hnone | hsame
          · simpa only [hnone] using ih.cons answer
          · simpa only [hsame, hbefore] using ih.cons_cons answer

/-! ## Packages that grow -/

/-- A path that rules look at: a name right below the root, or a file of the library. -/
inductive LookedAt (s : Subject) : String → Prop
  | top {name : String} (hstep : Path.IsStep name) (hback : name ≠ "..") : LookedAt s name
  | library {name : String} (hname : s.name = some name) : LookedAt s ("lib/" ++ name ++ ".dart")
  | part {entry : PlanEntry} (hkind : s.kind = .plugin) (hnamed : s.name ≠ none)
      (hentry : entry = s.layout.platformInterface ∨ entry = s.layout.methodChannel) :
      LookedAt s entry.path
  | web {name : String} (hkind : s.kind = .plugin) (hname : s.name = some name)
      (hplatform : .web ∈ s.platforms) : LookedAt s (nativePath name .web)

/-- How a package grows by repairs, as far as checks can see it. -/
structure Progress (s : Subject) (before after : Disk) : Prop where
  grows : Grows before after
  metadata : after.itemAt (s.inside metadataFile) = before.itemAt (s.inside metadataFile)
  /-- Where a directory was missing there is no file now. -/
  directory : ∀ name ∈ ["lib", "test"], before.exists? (s.inside name) = .ok false →
    ∀ content, after.itemAt (s.inside name) ≠ .ok (.file content)
  /-- Without a name there are no tests. -/
  test : s.name = none → after.itemAt (s.inside "test") = before.itemAt (s.inside "test")
  /-- What could be looked at can be looked at still. -/
  reachable : ∀ {path}, LookedAt s path → ∀ {wasThere},
    before.exists? (s.inside path) = .ok wasThere → ∃ isThere, after.exists? (s.inside path) = .ok isThere

/-- What was missing at a path is there now. -/
def Mended (s : Subject) (before after : Disk) (path : String) : Prop :=
  before.exists? (s.inside path) = .ok false ∨ hasContent after (s.inside path) = .ok true

variable {s : Subject} {d d₁ : Disk}

/-- Looking again fails as it failed before, or finds whatever was found before. -/
theorem tracks_exists? (h : Progress s d d₁) {path : String} (hpath : LookedAt s path) :
    Tracks (fun wasThere isThere => d.exists? (s.inside path) = .ok wasThere ∧
        (wasThere = true → isThere = true))
      (d.exists? (s.inside path)) (d₁.exists? (s.inside path)) := by
  cases hbefore : d.exists? (s.inside path) with
  | error failure =>
      rw [exists?_error_of_grows hbefore h.grows]
      exact .error failure
  | ok wasThere =>
      obtain ⟨isThere, hafter⟩ := h.reachable hpath hbefore
      rw [hafter]
      refine .ok ⟨rfl, ?_⟩
      rintro rfl
      rw [exists?_true_of_grows hbefore h.grows] at hafter
      exact (Except.ok.inj hafter).symm

theorem tracks_checkThere (h : Progress s d d₁) {success message subject : String}
    (hpath : LookedAt s subject) {severity : Severity} {repair : List PlanEntry}
    (hrepair : repair ≠ []) :
    Tracks (Improves (Mended s d d₁))
      (checkThere d (s.inside subject) success (.failed severity message subject repair))
      (checkThere d₁ (s.inside subject) success (.failed severity message subject repair)) := by
  refine (tracks_exists? h hpath).bind fun wasThere isThere hkept => .ok ?_
  obtain ⟨hbefore, hkept⟩ := hkept
  cases wasThere with
  | true =>
      obtain rfl := hkept rfl
      exact .same _
  | false =>
      cases isThere with
      | true => exact .mended success hrepair (.inl hbefore)
      | false => exact .same _

/-- A required file that cannot be brought back has stayed as it was. -/
theorem tracks_checkThere_of_eq {place : Path} {success : String} {otherwise : Check}
    (h : d₁.itemAt place = d.itemAt place) :
    Tracks (Improves (Mended s d d₁)) (checkThere d place success otherwise)
      (checkThere d₁ place success otherwise) := by
  have hsame : checkThere d₁ place success otherwise = checkThere d place success otherwise := by
    simp only [checkThere, exists?_eq, h]
  rw [hsame]
  exact .self .same _

theorem lookedAt_of_mem_requiredFiles {path template : String}
    (h : (path, some template) ∈ requiredFiles) : LookedAt s path := by
  have hpath : Path.IsStep path ∧ path ≠ ".." := by
    simp only [requiredFiles, List.mem_cons, Prod.mk.injEq, List.not_mem_nil, or_false] at h
    rcases h with ⟨rfl, -⟩ | ⟨rfl, -⟩ | ⟨rfl, -⟩ | ⟨rfl, -⟩ <;> decide
  exact .top hpath.1 hpath.2

theorem tracks_checkRequiredFiles (h : Progress s d d₁) :
    Tracks (ImproveAll (Mended s d d₁)) (checkRequiredFiles s d) (checkRequiredFiles s d₁) := by
  rw [checkRequiredFiles_eq, checkRequiredFiles_eq]
  refine .mapM fun required hmem => ?_
  obtain ⟨path, template?⟩ := required
  cases template? with
  | some template => exact tracks_checkThere h (lookedAt_of_mem_requiredFiles hmem) (by simp)
  | none =>
      obtain rfl : path = metadataFile := by simpa [requiredFiles] using hmem
      exact tracks_checkThere_of_eq h.metadata

theorem tracks_checkDirectory_of_eq {name : String} {severity : Severity}
    {repair : List PlanEntry} (h : d₁.itemAt (s.inside name) = d.itemAt (s.inside name)) :
    Tracks (Improves (Mended s d d₁)) (checkDirectory s d name severity repair)
      (checkDirectory s d₁ name severity repair) := by
  have hsame : checkDirectory s d₁ name severity repair = checkDirectory s d name severity
      repair := by
    simp only [checkDirectory_eq, h]
  rw [hsame]
  exact .self .same _

theorem tracks_checkDirectory (h : Progress s d d₁) {name : String} (hpath : LookedAt s name)
    {severity : Severity} {repair : List PlanEntry} (hrepair : repair ≠ [])
    (hfile : d.exists? (s.inside name) = .ok false →
      ∀ content, d₁.itemAt (s.inside name) ≠ .ok (.file content)) :
    Tracks (Improves (Mended s d d₁)) (checkDirectory s d name severity repair)
      (checkDirectory s d₁ name severity repair) := by
  cases hbefore : d.itemAt (s.inside name) with
  | ok item =>
      exact tracks_checkDirectory_of_eq (by rw [itemAt_of_grows h.grows hbefore (by simp), hbefore])
  | error refusal =>
      by_cases hmissing : refusal = .missing
      · subst hmissing
        have hfree : d.exists? (s.inside name) = .ok false := by simp [exists?_eq, hbefore]
        have hfailed : checkDirectory s d name severity repair =
            .ok (.failed severity ("Missing " ++ name ++ "/ directory") name repair) := by
          simp [checkDirectory_eq, hbefore]
        obtain ⟨isThere, hafter⟩ := h.reachable hpath hfree
        obtain ⟨check, hcheck⟩ := exists_checkDirectory severity repair hafter
        rw [hfailed, hcheck]
        refine .ok ?_
        rcases checkDirectory_eq_ok hcheck with ⟨-, -, rfl⟩ | ⟨-, ⟨content, hitem⟩, -⟩ | ⟨-, rfl⟩
        · exact .mended _ hrepair (.inl hfree)
        · exact absurd hitem (hfile hfree content)
        · exact .same _
      · refine tracks_checkDirectory_of_eq ?_
        rw [itemAt_of_grows h.grows hbefore (by simpa using hmissing), hbefore]

theorem tracks_hasContent (h : Progress s d d₁) {path : String} (hpath : LookedAt s path) :
    Tracks (fun wasThere isThere => hasContent d₁ (s.inside path) = .ok isThere ∧
        (wasThere = true → isThere = true))
      (hasContent d (s.inside path)) (hasContent d₁ (s.inside path)) := by
  cases hbefore : hasContent d (s.inside path) with
  | error failure =>
      have hexists := exists?_error_of_grows (hasContent_eq_error_iff.mp hbefore) h.grows
      rw [hasContent_eq_error_iff.mpr hexists]
      exact .error failure
  | ok wasThere =>
      obtain ⟨_, hexists⟩ := exists_of_hasContent hbefore
      obtain ⟨_, hexists⟩ := h.reachable hpath hexists
      obtain ⟨isThere, hafter⟩ := hasContent_of_exists hexists
      rw [hafter]
      refine .ok ⟨rfl, ?_⟩
      rintro rfl
      rw [hasContent_of_grows hbefore h.grows] at hafter
      exact (Except.ok.inj hafter).symm

theorem tracks_checkNative (h : Progress s d d₁) {name : String} {platform : Platform}
    (hpath : LookedAt s (nativePath name platform)) :
    Tracks (Improves (Mended s d d₁)) (checkNative s d name platform)
      (checkNative s d₁ name platform) := by
  refine (tracks_hasContent h hpath).bind fun wasThere isThere hkept => .ok ?_
  obtain ⟨hafter, hkept⟩ := hkept
  cases wasThere with
  | true =>
      obtain rfl := hkept rfl
      exact .same _
  | false =>
      cases isThere with
      | true => exact .mended _ (by simp) (.inr hafter)
      | false => exact .same _

theorem lookedAt_nativePath {name : String} (hkind : s.kind = .plugin) (hname : s.name = some name)
    {platform : Platform} (hplatform : platform ∈ s.platforms) :
    LookedAt s (nativePath name platform) := by
  by_cases hweb : platform = .web
  · subst hweb
    exact .web hkind hname hplatform
  · have hpath : Path.IsStep platform.text ∧ platform.text ≠ ".." := by cases platform <;> decide
    rw [nativePath_of_ne_web name hweb]
    exact .top hpath.1 hpath.2

theorem tracks_checkPlugin (h : Progress s d d₁) {name : String} (hkind : s.kind = .plugin)
    (hname : s.name = some name) :
    Tracks (ImproveAll (Mended s d d₁)) (checkPlugin s d name) (checkPlugin s d₁ name) := by
  have hnamed : s.name ≠ none := by simp [hname]
  unfold checkPlugin
  refine (tracks_checkThere h (.part hkind hnamed (.inl rfl)) (by simp)).bind fun _ _ hinterface =>
    (tracks_checkThere h (.part hkind hnamed (.inr rfl)) (by simp)).bind fun _ _ hchannel =>
      (Tracks.mapM fun platform hplatform =>
        tracks_checkNative h (lookedAt_nativePath hkind hname hplatform)).bind
          fun _ _ hnatives => .ok ?_
  exact .cons hinterface (.cons hchannel hnatives)

theorem tracks_checkLayout (h : Progress s d d₁) :
    Tracks (ImproveAll (Mended s d d₁)) (checkLayout s d) (checkLayout s d₁) := by
  have htest : Tracks (Improves (Mended s d d₁)) (checkDirectory s d "test" .warning (testRepair s))
      (checkDirectory s d₁ "test" .warning (testRepair s)) := by
    cases hname : s.name with
    | none => exact tracks_checkDirectory_of_eq (h.test hname)
    | some name =>
        exact tracks_checkDirectory h (.top (by decide) (by decide)) (by simp [testRepair, hname])
          (h.directory "test" (by simp))
  have hparts : Tracks (ImproveAll (Mended s d d₁)) (checkParts s d) (checkParts s d₁) := by
    unfold checkParts
    split
    · exact tracks_checkPlugin h ‹_› ‹_›
    · exact .ok .nil
  rw [checkLayout_eq, checkLayout_eq]
  refine (tracks_checkDirectory h (.top (by decide) (by decide)) (by simp)
    (h.directory "lib" (by simp))).bind fun _ _ hlib => (Tracks.mapM fun name hname =>
      tracks_checkThere h (.library (Option.mem_toList.mp hname)) (by simp [Layout.library])).bind
        fun _ _ hlibrary => htest.bind fun _ _ htest => hparts.bind fun _ _ hparts => .ok ?_
  exact List.rel_append (List.rel_append (List.rel_append (.cons hlib .nil) hlibrary)
    (.cons htest .nil)) hparts

theorem tracks_checkLint (h : Progress s d d₁) :
    Tracks (ImproveAll (Mended s d d₁)) (checkLint s d) (checkLint s d₁) := by
  rw [checkLint_eq, checkLint_eq]
  exact (tracks_checkThere h (.top (by decide) (by decide)) (by simp)).bind
    fun _ _ hcheck => .ok (.cons hcheck .nil)

/-- A rule fails on the grown package as it failed before, or its checks have improved.  The
documentation is left out: it is only looked at once there is some. -/
theorem tracks_checks (h : Progress s d d₁) {category : Category}
    (hcategory : category ≠ .documentation) :
    Tracks (ImproveAll (Mended s d d₁)) (category.checks s d) (category.checks s d₁) := by
  cases category with
  | requiredFiles => exact tracks_checkRequiredFiles h
  | metadata => exact .self (improveAll_refl _) _
  | version => exact .self (improveAll_refl _) _
  | publish => exact .self (improveAll_refl _) _
  | layout => exact tracks_checkLayout h
  | documentation => exact absurd rfl hcategory
  | lint => exact tracks_checkLint h

end PackageScaffold
