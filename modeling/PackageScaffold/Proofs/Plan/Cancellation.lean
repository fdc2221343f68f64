import PackageScaffold.Proofs.Files.Preservation
import PackageScaffold.Proofs.Plan.Order

/-!
# Plans that are cancelled

A plan asks whether it has been cancelled in front of every directory that it wants and in front of
every file, and once more when it is through.  Once the answer is yes it stays so.  So a
cancellation is known by the number of answers that are no, and a plan can be cancelled at each of
its directories and files, whether anything is written there or not.

* `Span`: for how many answers a plan is not cancelled;
* `carryOutUntil`: carries out a plan that is cancelled at any of these points, its files finished in
  any order;
* `carryOutUntil_eq_ok`: the two ways in which such a run comes to a ledger;
* `exists_span_carryOut`: what `carryOut` does until its allowance is spent is one of these runs.
-/

namespace PackageScaffold

open Disk FileM

variable {root : Path} {policy : Policy} {contents : Contents} {entries : List PlanEntry}

/-! ## Spans -/

/-- How often the answer to whether a plan has been cancelled is no before it is yes; without a
number, it is never yes. -/
abbrev Span := Option Nat

namespace Span

/-- What comes up before the plan is cancelled. -/
def front (span : Span) (xs : List String) : List String :=
  match span with
  | none => xs
  | some looks => xs.take looks

/-- What is left of a span behind a number of answers. -/
def behind (span : Span) (n : Nat) : Span :=
  span.map (· - n)

/-- Whether a plan is cancelled before a number of answers have been given. -/
def endsWithin (span : Span) (n : Nat) : Bool :=
  match span with
  | none => false
  | some looks => decide (looks < n)

@[simp] theorem front_none (xs : List String) : front none xs = xs := rfl

@[simp] theorem front_some (looks : Nat) (xs : List String) :
    front (some looks) xs = xs.take looks := rfl

@[simp] theorem behind_none (n : Nat) : behind none n = none := rfl

@[simp] theorem behind_some (looks n : Nat) : behind (some looks) n = some (looks - n) := rfl

@[simp] theorem endsWithin_none (n : Nat) : endsWithin none n = false := rfl

@[simp] theorem endsWithin_some (looks n : Nat) :
    endsWithin (some looks) n = decide (looks < n) := rfl

/-- A span that does not end within a list comes to all of it. -/
theorem front_of_not_endsWithin {span : Span} {xs : List String}
    (h : span.endsWithin xs.length = false) : span.front xs = xs := by
  cases span with
  | none => rfl
  | some looks =>
      rw [front_some, List.take_of_length_le]
      simpa using h

theorem front_prefix (span : Span) (xs : List String) : span.front xs <+: xs := by
  cases span with
  | none => exact List.prefix_refl xs
  | some looks => exact List.take_prefix looks xs

/-- A span that does not end within two numbers of answers ends neither within the first nor, behind
that, within the second. -/
theorem not_endsWithin_add {span : Span} {m n : Nat} (h : span.endsWithin (m + n) = false) :
    span.endsWithin m = false ∧ (span.behind m).endsWithin n = false := by
  cases span with
  | none => exact ⟨rfl, rfl⟩
  | some looks =>
      simp only [endsWithin_some, behind_some, decide_eq_false_iff_not] at h ⊢
      omega

/-- A span that begins with further answers. -/
def ahead (span : Span) (n : Nat) : Span :=
  span.map (· + n)

theorem behind_ahead (span : Span) (n : Nat) : (span.ahead n).behind n = span := by
  cases span <;> simp [ahead]

theorem endsWithin_ahead (span : Span) (n : Nat) : (span.ahead n).endsWithin n = false := by
  cases span <;> simp [ahead]

theorem front_ahead_cons (span : Span) (x : String) (xs : List String) :
    (span.ahead 1).front (x :: xs) = x :: span.front xs := by
  cases span <;> simp [ahead]

theorem behind_ahead_succ (span : Span) (n : Nat) :
    (span.ahead 1).behind (n + 1) = span.behind n := by
  cases span <;> simp [ahead]

end Span

/-! ## Runs within a span -/

/-- Carries out a plan under a root until it is cancelled.  The files that it comes to are written
in an order of their own. -/
def carryOutUntil (span : Span) (order : List String → List String) (entries : List PlanEntry)
    (root : Path) (contents : Contents) (policy : Policy) : FileM Ledger := do
  let wanted := wantedDirectories entries
  let files := plannedFiles entries
  let made ← makeMissing root (span.front wanted)
  if span.endsWithin wanted.length then
    return { directories := made.filter (plannedDirectories entries).contains, cancelled := true }
  let left := span.behind wanted.length
  let (marks, _) ← writeFiles root policy contents none (order (left.front files))
  return (ledgerOf entries made (marks, left.behind files.length)).1

theorem outcome_carryOutUntil (span : Span) (order : List String → List String)
    (entries : List PlanEntry) (root : Path) (contents : Contents) (policy : Policy) (d : Disk) :
    (carryOutUntil span order entries root contents policy).outcome d =
      match (makeMissing root (span.front (wantedDirectories entries))).outcome d with
      | (.error failure, middle) => (.error failure, middle)
      | (.ok made, middle) =>
        if span.endsWithin (wantedDirectories entries).length then
          (.ok { directories := made.filter (plannedDirectories entries).contains
                 cancelled := true }, middle)
        else
          (((writeFiles root policy contents none (order ((span.behind
              (wantedDirectories entries).length).front (plannedFiles entries)))).outcome
                middle).1.map
            fun marked => (ledgerOf entries made (marked.1, (span.behind
              (wantedDirectories entries).length).behind (plannedFiles entries).length)).1,
            ((writeFiles root policy contents none (order ((span.behind
              (wantedDirectories entries).length).front (plannedFiles entries)))).outcome
                middle).2) := by
  rw [carryOutUntil, outcome_bind]
  rcases (makeMissing root (span.front (wantedDirectories entries))).outcome d
    with ⟨_ | made, middle⟩
  · rfl
  · simp only
    split
    · rfl
    · rw [outcome_bind]
      rcases (writeFiles root policy contents none (order ((span.behind
        (wantedDirectories entries).length).front (plannedFiles entries)))).outcome middle
        with ⟨_ | _, _⟩ <;> rfl

/-- How a run within a span comes to a ledger, for any plan: it is cancelled among its directories,
or it makes all of them and goes on to the files in front of the end of its span. -/
inductive RunsWithin (span : Span) (order : List String → List String) (root : Path)
    (policy : Policy) (contents : Contents) (entries : List PlanEntry) (before after : Disk) :
    Ledger → Prop
  | early {made : List String}
      (hwithin : span.endsWithin (wantedDirectories entries).length = true)
      (hmake : (makeMissing root (span.front (wantedDirectories entries))).outcome before =
        (.ok made, after)) :
      RunsWithin span order root policy contents entries before after
        { directories := made.filter (plannedDirectories entries).contains, cancelled := true }
  | through {made : List String} {middle : Disk} {marked : List (String × Mark) × Allowance}
      (hwithin : span.endsWithin (wantedDirectories entries).length = false)
      (hmake : (makeMissing root (wantedDirectories entries)).outcome before = (.ok made, middle))
      (hwrite : (writeFiles root policy contents none (order ((span.behind
        (wantedDirectories entries).length).front (plannedFiles entries)))).outcome middle =
          (.ok marked, after)) :
      RunsWithin span order root policy contents entries before after
        (ledgerOf entries made (marked.1, (span.behind
          (wantedDirectories entries).length).behind (plannedFiles entries).length)).1

theorem carryOutUntil_eq_ok {span : Span} {order : List String → List String} {ledger : Ledger}
    {after : Disk}
    (hrun : (carryOutUntil span order entries root contents policy).outcome d =
      (.ok ledger, after)) :
    RunsWithin span order root policy contents entries d after ledger := by
  rw [outcome_carryOutUntil] at hrun
  rcases hmake : (makeMissing root (span.front (wantedDirectories entries))).outcome d
    with ⟨failure | made, middle⟩
  · simp [hmake] at hrun
  simp only [hmake] at hrun
  cases hwithin : span.endsWithin (wantedDirectories entries).length with
  | true =>
      rw [hwithin, if_pos rfl] at hrun
      obtain ⟨hledger, rfl⟩ := Prod.mk.injEq .. ▸ hrun
      obtain rfl := Except.ok.inj hledger
      exact .early hwithin hmake
  | false =>
      simp only [hwithin, Bool.false_eq_true, if_false] at hrun
      rw [Span.front_of_not_endsWithin hwithin] at hmake
      rcases hwrite : (writeFiles root policy contents none (order ((span.behind
        (wantedDirectories entries).length).front (plannedFiles entries)))).outcome middle
        with ⟨failure | marked, last⟩
      · simp [hwrite, Except.map] at hrun
      simp only [hwrite] at hrun
      obtain ⟨hledger, rfl⟩ := Prod.mk.injEq .. ▸ hrun
      obtain rfl := Except.ok.inj hledger
      exact .through hwithin hmake hwrite

/-- A plan keeps what its directories and its files keep, wherever it is cancelled. -/
theorem keeps_carryOutUntil {I : Disk → Prop} {span : Span} {order : List String → List String}
    (horder : ∀ files, (order files).Perm files)
    (hmake : ∀ directories ⊆ wantedDirectories entries, Keeps I (makeMissing root directories))
    (hwrite : ∀ files ⊆ plannedFiles entries,
      Keeps I (writeFiles root policy contents none files)) :
    Keeps I (carryOutUntil span order entries root contents policy) := by
  refine .bind (hmake _ (span.front_prefix _).subset) fun made => ?_
  dsimp only
  split
  · exact .pure _
  · refine .bind (hwrite _ fun file hfile => ?_) fun _ => .pure _
    exact (Span.front_prefix _ _).subset ((horder _).mem_iff.mp hfile)

/-! ## Allowances -/

/-- Files that are written until an allowance is spent are those in front of one of them. -/
theorem exists_span_writeFiles (root : Path) (policy : Policy) (contents : Contents)
    (allowance : Allowance) (files : List String) (d : Disk) :
    ∃ (span : Span) (left : Allowance), (allowance = none → span = none) ∧
      left.isSpent = Allowance.isSpent (span.behind files.length) ∧
      (writeFiles root policy contents allowance files).outcome d =
        (((writeFiles root policy contents none (span.front files)).outcome d).1.map
          (fun marked => (marked.1, left)),
          ((writeFiles root policy contents none (span.front files)).outcome d).2) := by
  induction files generalizing allowance d with
  | nil =>
      cases hspent : allowance.isSpent with
      | true =>
          refine ⟨some 0, allowance, ?_, hspent, rfl⟩
          rintro rfl
          simp [Allowance.isSpent] at hspent
      | false => exact ⟨none, allowance, fun _ => rfl, hspent, rfl⟩
  | cons file rest ih =>
      cases hspent : allowance.isSpent with
      | true =>
          refine ⟨some 0, allowance, ?_, ?_, outcome_writeFiles_of_spent hspent _ d⟩
          · rintro rfl
            simp [Allowance.isSpent] at hspent
          · simpa [Allowance.isSpent] using hspent
      | false =>
          -- a file that does not end the run makes the span of the rest one longer
          have hahead : ∀ {span : Span} {left : Allowance}, (allowance = none → span = none) →
              left.isSpent = Allowance.isSpent (span.behind rest.length) →
              (allowance = none → span.ahead 1 = none) ∧ left.isSpent =
                Allowance.isSpent ((span.ahead 1).behind (file :: rest).length) := by
            intro span left hnone hleft
            refine ⟨fun h => by rw [hnone h]; rfl, ?_⟩
            rw [List.length_cons, Span.behind_ahead_succ, hleft]
          simp only [outcome_writeFiles_cons hspent]
          cases hturn : turnOf root policy d file with
          | unseen failure =>
              obtain ⟨span, left, hnone, hleft, hrest⟩ := ih allowance d
              obtain ⟨hnone', hleft'⟩ := hahead hnone hleft
              refine ⟨span.ahead 1, left, hnone', hleft', ?_⟩
              rw [Span.front_ahead_cons, outcome_writeFiles_cons rfl, hturn, hrest]
              rfl
          | skip =>
              obtain ⟨span, left, hnone, hleft, hrest⟩ := ih allowance d
              obtain ⟨hnone', hleft'⟩ := hahead hnone hleft
              refine ⟨span.ahead 1, left, hnone', hleft', ?_⟩
              rw [Span.front_ahead_cons, outcome_writeFiles_cons rfl, hturn, hrest]
              rcases (writeFiles root policy contents none (span.front rest)).outcome d
                with ⟨_ | _, _⟩ <;> rfl
          | write =>
              rcases hwrite : (writeOne root policy contents file).outcome d
                with ⟨failure | _, middle⟩
              · refine ⟨none, none, fun _ => rfl, rfl, ?_⟩
                rw [Span.front_none, outcome_writeFiles_cons rfl, hturn]
                simp only [hwrite]
                rfl
              · have hspend : Allowance.spend none = none := rfl
                obtain ⟨span, left, hnone, hleft, hrest⟩ := ih allowance.spend middle
                obtain ⟨hnone', hleft'⟩ := hahead (fun h => hnone (by rw [h, hspend])) hleft
                refine ⟨span.ahead 1, left, hnone', hleft', ?_⟩
                rw [Span.front_ahead_cons, outcome_writeFiles_cons rfl, hturn]
                simp only [hwrite, hrest, hspend]
                rcases (writeFiles root policy contents none (span.front rest)).outcome middle
                  with ⟨_ | _, _⟩ <;> rfl

/-- A plan that is carried out until its allowance is spent is carried out within a span, its files
in their own order. -/
theorem exists_span_carryOut (allowance : Allowance) (entries : List PlanEntry) (root : Path)
    (contents : Contents) (policy : Policy) (d : Disk) :
    ∃ span : Span, (allowance = none → span = none) ∧
      (((carryOut entries root contents policy allowance).outcome d).1.map Prod.fst,
        ((carryOut entries root contents policy allowance).outcome d).2) =
      (carryOutUntil span id entries root contents policy).outcome d := by
  by_cases hrunning : allowance.isSpent = false ∨ wantedDirectories entries = []
  · rw [outcome_carryOut_of_running hrunning]
    rcases hmake : (makeMissing root (wantedDirectories entries)).outcome d
      with ⟨failure | made, middle⟩
    · exact ⟨none, fun _ => rfl, by rw [outcome_carryOutUntil, Span.front_none, hmake]; rfl⟩
    · -- the span ends behind the directories, with the file that spends the allowance
      obtain ⟨span, left, hnone, hleft, hwrite⟩ := exists_span_writeFiles root policy contents
        allowance (plannedFiles entries) middle
      have hwanted := span.endsWithin_ahead (wantedDirectories entries).length
      refine ⟨span.ahead (wantedDirectories entries).length, fun h => by rw [hnone h]; rfl, ?_⟩
      rw [outcome_carryOutUntil, Span.front_of_not_endsWithin hwanted, hmake]
      simp only [hwanted, Bool.false_eq_true, if_false, Span.behind_ahead, hwrite, id]
      rcases (writeFiles root policy contents none
        (span.front (plannedFiles entries))).outcome middle with ⟨_ | marked, _⟩
      · rfl
      · simp only [Except.map, ledgerOf, hleft]
  · simp only [not_or, Bool.not_eq_false] at hrunning
    obtain rfl := Allowance.isSpent_iff.mp hrunning.1
    have hwithin : Span.endsWithin (some 0) (wantedDirectories entries).length = true := by
      simpa using List.length_pos_iff.mpr hrunning.2
    refine ⟨some 0, by simp, ?_⟩
    rw [outcome_carryOut_of_spent hrunning.2, outcome_carryOutUntil]
    simp [hwithin, makeMissing, Except.map]

end PackageScaffold
