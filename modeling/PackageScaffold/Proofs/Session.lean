import PackageScaffold.Project.Creation
import PackageScaffold.Proofs.Files.Preservation
import PackageScaffold.Proofs.Retrofit.Course
import PackageScaffold.Review

/-!
# Sessions

A session is a sequence of what can be asked for: to create a project, to bring one up to the
conventions, to review one, or to carry out a plan.  An action that fails or is cancelled leaves the
disk as far as it came, and the session goes on from there.

Unless one of its actions has leave to overwrite, a session only ever adds to the disk
(`session_keeps`).

**Strategy.**  Whatever cuts an action short, the action is one within a span, so it is enough to see
that the runs within a span only add (`keeps_carryOutUntil_of_policy` and the lemmas behind it).
What they change comes down to two steps, a directory that is made and a file that is written where
nothing was, and both are known to keep what is there.
-/

namespace PackageScaffold

open Disk FileM

/-! ## Creations within a span -/

/-- Creates a project, until this is cancelled. -/
def createUntil (span : Span) (order : List String → List String) (settings : Settings)
    (today : Date) (m : Model) : FileM Creation := do
  if let some obstacle ← FileM.inspect m.obstacle? then throw (.occupied obstacle)
  let entries := (m.layout today).plan
  match renderPlan settings.strictTemplates entries with
  | .error fault => throw (.template fault)
  | .ok contents =>
    FileM.ensureDirectory m.outputRoot
    let policy := if m.force then Policy.overwrite else .fail
    let ledger ← carryOutUntil span order entries m.outputRoot contents policy
    return { root := m.outputRoot, directories := ledger.directories, files := ledger.files
             cancelled := ledger.cancelled }

/-- A creation that goes on until its allowance is spent is one within a span. -/
theorem exists_span_create (settings : Settings) (today : Date) (m : Model) (allowance : Allowance)
    (d : Disk) :
    ∃ span : Span, (allowance = none → span = none) ∧
      (create settings today m allowance).outcome d =
        (createUntil span id settings today m).outcome d := by
  simp only [create, createUntil, outcome_bind, outcome_inspect]
  rcases m.obstacle? d with failure | _ | obstacle
  · exact ⟨none, fun _ => rfl, rfl⟩
  · dsimp only
    cases renderPlan settings.strictTemplates (m.layout today).plan with
    | error fault => exact ⟨none, fun _ => rfl, rfl⟩
    | ok contents =>
        simp only [outcome_bind]
        rcases (ensureDirectory m.outputRoot).outcome d with ⟨failure | _, middle⟩
        · exact ⟨none, fun _ => rfl, rfl⟩
        · -- behind the root, a creation is a plan that is carried out
          obtain ⟨span, hnone, hspan⟩ := exists_span_carryOut allowance (m.layout today).plan
            m.outputRoot contents (if m.force then Policy.overwrite else .fail) middle
          refine ⟨span, hnone, ?_⟩
          simp only [← hspan]
          rcases (carryOut (m.layout today).plan m.outputRoot contents
            (if m.force then Policy.overwrite else .fail) allowance).outcome middle
            with ⟨_ | _, _⟩ <;> rfl
  · exact ⟨none, fun _ => rfl, rfl⟩

/-! ## Actions -/

/-- What may cut an action short.  Its allowance is spent, or it is cancelled where a span ends and
finishes its files in an order of its own. -/
inductive Cut where
  | allowed (allowance : Allowance)
  | spanned (span : Span) (order : List String → List String)

/-- Something that can be asked for. -/
inductive Action where
  | create (settings : Settings) (today : Date) (m : Model) (cut : Cut)
  | retrofit (settings : Settings) (today : Date) (wanted : Conventions) (force : Bool) (root : Path)
      (cut : Cut)
  | review (settings : Settings) (now : Moment) (strict autoFix : Bool) (root : Path)
  | carryOut (entries : List PlanEntry) (root : Path) (contents : Contents) (policy : Policy)
      (cut : Cut)

namespace Action

/-- Does what is asked for. -/
def run : Action → FileM Unit
  | create settings today m (.allowed allowance) =>
    discard (PackageScaffold.create settings today m allowance)
  | create settings today m (.spanned span order) => discard (createUntil span order settings today m)
  | retrofit settings today wanted force root (.allowed allowance) =>
    discard (PackageScaffold.retrofit settings today wanted force root allowance)
  | retrofit settings today wanted force root (.spanned span order) =>
    discard (retrofitUntil span order settings today wanted force root)
  | review settings now strict autoFix root =>
    discard (PackageScaffold.review settings now strict autoFix root)
  | carryOut entries root contents policy (.allowed allowance) =>
    discard (PackageScaffold.carryOut entries root contents policy allowance)
  | carryOut entries root contents policy (.spanned span order) =>
    discard (carryOutUntil span order entries root contents policy)

/-- Whether an action has leave to replace what is there. -/
def overwrites : Action → Bool
  | create _ _ m _ => m.force
  | retrofit _ _ _ force _ _ => force
  | review _ _ _ _ _ => false
  | carryOut _ _ _ policy _ => policy == .overwrite

end Action

/-- The disk after the actions of a session, whatever becomes of each. -/
def session (actions : List Action) (disk : Disk) : Disk :=
  actions.foldl (fun disk action => (action.run.outcome disk).2) disk

variable {base : Disk}

/-! ## Plans only add -/

theorem keeps_makeMissing (root : Path) (directories : List String) :
    Keeps (Grows base) (makeMissing root directories) := by
  induction directories with
  | nil => exact .pure _
  | cons directory rest ih =>
      refine .bind (.inspect _) fun isThere => ?_
      cases isThere with
      | true => exact ih
      | false => exact .bind (keeps_makeFor _ _) fun _ => .bind ih fun _ => .pure _

/-- Writing the files of a plan keeps what writing each of them keeps. -/
theorem keeps_writeFiles_of {I : Disk → Prop} {root : Path} {policy : Policy} {contents : Contents}
    {files : List String} (h : ∀ file ∈ files, ∀ text, contents.lookup file = some text →
      Keeps I (writeFile (root.extend file) (.text text) (policy == .overwrite)))
    (allowance : Allowance) : Keeps I (writeFiles root policy contents allowance files) := by
  induction files generalizing allowance with
  | nil => exact .pure _
  | cons file rest ih =>
      obtain ⟨hfirst, hrest⟩ := List.forall_mem_cons.mp h
      have ih := ih hrest
      rw [writeFiles]
      split
      · exact .pure _
      · refine .bind .get fun disk => ?_
        split
        · exact .bind (.tryCatch (.bind (ih _) fun _ => .pure _) fun _ => .pure _) fun _ => .throw _
        · exact .bind (ih _) fun _ => .pure _
        · split
          · exact .throw _
          · exact .bind (hfirst _ ‹_›) fun _ => .bind (ih _) fun _ => .pure _

theorem keeps_writeFiles (root : Path) {policy : Policy} (hpolicy : (policy == .overwrite) = false)
    (contents : Contents) (allowance : Allowance) (files : List String) :
    Keeps (Grows base) (writeFiles root policy contents allowance files) := by
  refine keeps_writeFiles_of (fun file _ text _ => ?_) allowance
  rw [hpolicy]
  exact keeps_writeFile _ _

/-- A plan that keeps existing files only adds to the disk, wherever it is cancelled and in whatever
order its files are finished. -/
theorem keeps_carryOutUntil_of_policy {policy : Policy} (hpolicy : (policy == .overwrite) = false)
    (span : Span) (order : List String → List String) (entries : List PlanEntry) (root : Path)
    (contents : Contents) :
    Keeps (Grows base) (carryOutUntil span order entries root contents policy) := by
  refine .bind (keeps_makeMissing root _) fun made => ?_
  dsimp only
  split
  · exact .pure _
  · exact .bind (keeps_writeFiles root hpolicy contents none _) fun _ => .pure _

theorem keeps_carryOut (entries : List PlanEntry) (root : Path) (contents : Contents)
    {policy : Policy} (hpolicy : (policy == .overwrite) = false) (allowance : Allowance) :
    Keeps (Grows base) (carryOut entries root contents policy allowance) := by
  intro d hgrows
  obtain ⟨span, -, hspan⟩ := exists_span_carryOut allowance entries root contents policy d
  have huntil := keeps_carryOutUntil_of_policy hpolicy span id entries root contents d hgrows
  rwa [← hspan] at huntil

/-! ## Actions only add -/

theorem keeps_createUntil (span : Span) (order : List String → List String) (settings : Settings)
    (today : Date) {m : Model} (hforce : m.force = false) :
    Keeps (Grows base) (createUntil span order settings today m) := by
  have hpolicy : ((if m.force then Policy.overwrite else .fail) == .overwrite) = false := by
    rw [hforce]
    rfl
  refine .bind (.inspect _) fun obstacle? => ?_
  cases obstacle? with
  | some obstacle => exact .throw_bind _ _
  | none =>
      dsimp only
      split
      · exact .throw _
      · exact .bind (keeps_makeFor _ _) fun _ =>
          .bind (keeps_carryOutUntil_of_policy hpolicy _ _ _ _ _) fun _ => .pure _

theorem keeps_create (settings : Settings) (today : Date) {m : Model} (hforce : m.force = false)
    (allowance : Allowance) : Keeps (Grows base) (create settings today m allowance) := by
  intro d hgrows
  obtain ⟨span, -, hspan⟩ := exists_span_create settings today m allowance d
  have huntil := keeps_createUntil span id settings today hforce d hgrows
  rwa [← hspan] at huntil

theorem keeps_retrofitUntil (span : Span) (order : List String → List String) (settings : Settings)
    (today : Date) (wanted : Conventions) (root : Path) :
    Keeps (Grows base) (retrofitUntil span order settings today wanted false root) := by
  refine .bind (.inspect _) fun prepared => ?_
  refine Retrofit.keeps_carryOutAllUntil span fun plan hplan span => ?_
  refine keeps_carryOutUntil_of_policy ?_ span order _ _ _
  simp only [Retrofit.batches, List.mem_cons, List.not_mem_nil, or_false] at hplan
  rcases hplan with rfl | rfl <;> rfl

theorem keeps_retrofit (settings : Settings) (today : Date) (wanted : Conventions) (root : Path)
    (allowance : Allowance) :
    Keeps (Grows base) (retrofit settings today wanted false root allowance) := by
  intro d hgrows
  obtain ⟨span, -, hspan⟩ := exists_span_retrofit settings today wanted false root allowance d
  have huntil := keeps_retrofitUntil span id settings today wanted root d hgrows
  rwa [← hspan] at huntil

theorem keeps_repairAll (settings : Settings) (root : Path) (log : RepairLog)
    (repairs : List (String × List PlanEntry)) :
    Keeps (Grows base) (repairAll settings root log repairs) := by
  induction repairs generalizing log with
  | nil => exact .pure _
  | cons named rest ih =>
      refine .bind (.tryCatch (.bind ?_ fun _ => .pure _) fun failure => ?_) fun log => ih log
      · unfold repair
        split
        · exact .throw _
        · exact .bind (keeps_carryOut _ _ _ rfl _) fun _ => .pure _
      · split
        · exact .pure _
        · exact .throw _

/-- A review keeps a property of disks if the repairs do, which are carried out only when asked
for. -/
theorem keeps_review {I : Disk → Prop} (settings : Settings) (now : Moment) (strict autoFix : Bool)
    (root : Path)
    (hrepairs : autoFix = true → ∀ log repairs, Keeps I (repairAll settings root log repairs)) :
    Keeps I (review settings now strict autoFix root) := by
  refine .bind (.inspect _) fun isDirectory => ?_
  cases isDirectory with
  | false => exact .throw_bind _ _
  | true =>
      refine .bind (.inspect _) fun subject => .bind (.look _) fun outcomes => ?_
      dsimp only
      split
      · exact .bind (hrepairs ‹_› _ _) fun log => .pure _
      · exact .pure _

theorem keeps_run {action : Action} (h : action.overwrites = false) :
    Keeps (Grows base) action.run := by
  cases action with
  | create settings today m cut =>
      cases cut with
      | allowed allowance => exact .bind (keeps_create settings today h _) fun _ => .pure _
      | spanned span order => exact .bind (keeps_createUntil _ _ settings today h) fun _ => .pure _
  | retrofit settings today wanted force root cut =>
      obtain rfl : force = false := h
      cases cut with
      | allowed allowance => exact .bind (keeps_retrofit _ _ _ _ _) fun _ => .pure _
      | spanned span order => exact .bind (keeps_retrofitUntil _ _ _ _ _ _) fun _ => .pure _
  | review settings now strict autoFix root =>
      exact .bind (keeps_review _ _ _ _ _ fun _ => keeps_repairAll settings root) fun _ => .pure _
  | carryOut entries root contents policy cut =>
      cases cut with
      | allowed allowance => exact .bind (keeps_carryOut _ _ _ h _) fun _ => .pure _
      | spanned span order =>
          exact .bind (keeps_carryOutUntil_of_policy h _ _ _ _ _) fun _ => .pure _

/-! ## Sessions -/

theorem grows_session {actions : List Action} (h : ∀ action ∈ actions, action.overwrites = false)
    (disk : Disk) : Grows disk (session actions disk) := by
  induction actions generalizing disk with
  | nil => exact Adds.refl _ disk
  | cons action rest ih =>
      obtain ⟨hfirst, hrest⟩ := List.forall_mem_cons.mp h
      have hstep : Grows disk (action.run.outcome disk).2 := keeps_run hfirst disk (.refl _ disk)
      exact hstep.trans (ih hrest _)

/-- A review that is not asked to mend leaves the disk as it is. -/
theorem session_review (before after : List Action) (settings : Settings) (now : Moment)
    (strict : Bool) (root : Path) (disk : Disk) :
    session (before ++ .review settings now strict false root :: after) disk =
      session (before ++ after) disk := by
  have hlooks := @keeps_review (· = session before disk) settings now strict false root (by simp)
  have hreview : Keeps (· = session before disk)
      (Action.review settings now strict false root).run := hlooks.bind fun _ => .pure _
  have hleft := hreview (session before disk) rfl
  simp only [session, List.foldl_append, List.foldl_cons] at hleft ⊢
  rw [hleft]

/-- A session without leave to overwrite keeps every file, with its content, and every directory,
however its actions end; and a review in it that is not asked to mend leaves the disk as it is. -/
theorem session_keeps {actions : List Action} (h : ∀ action ∈ actions, action.overwrites = false)
    (disk : Disk) :
    (∀ steps content, disk.tree.item? steps = some (.file content) →
      (session actions disk).tree.item? steps = some (.file content)) ∧
    (∀ steps, disk.tree.item? steps = some .directory →
      (session actions disk).tree.item? steps = some .directory) ∧
    ∀ before after settings now strict root,
      actions = before ++ .review settings now strict false root :: after →
        session actions disk = session (before ++ after) disk := by
  have hgrows := grows_session h disk
  refine ⟨fun steps content => hgrows.keeps, fun steps => hgrows.keeps, ?_⟩
  rintro before after settings now strict root rfl
  exact session_review before after settings now strict root disk

/-- A file that is in the way of a plan stays, while the session goes on.  The last plan is
cancelled in front of its third file, and the second one is finished before the first. -/
theorem session_keeps_in_the_way :
    let disk : Disk := { tree := .directory [("a", .directory [("x", .file (.text "old"))])] }
    let actions : List Action :=
      [.carryOut [.file "x" none] (Path.ofString "a") [("x", "new")] .fail (.allowed none),
        .review .standard { date := ⟨2024, 3, 5⟩ } true false (Path.ofString "a"),
        .carryOut [.file "x" none, .file "y" none, .file "z" none] (Path.ofString "a")
          [("x", "new"), ("y", "more"), ("z", "")] .skip (.spanned (some 2) List.reverse)]
    (session actions disk).tree.item? ["a", "x"] = some (.file (.text "old")) ∧
      (session actions disk).tree.item? ["a", "y"] = some (.file (.text "more")) ∧
      (session actions disk).tree.item? ["a", "z"] = none := by
  intro disk actions
  have hkeeps := @session_keeps actions (by decide) disk
  exact ⟨hkeeps.1 _ _ (by decide), by decide +kernel, by decide +kernel⟩

end PackageScaffold
