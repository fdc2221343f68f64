import PackageScaffold.Plan.Ledger
import PackageScaffold.Proofs.Except
import PackageScaffold.Proofs.Files.Computation
import PackageScaffold.Proofs.Path

/-!
# Carrying out a plan twice

A plan is carried out below a root that is there, and what is there already is left alone.  However
far that gets, a second attempt gets no further: what the first one made is skipped, and what was
refused is refused again.  In between, the disk may grow in any way.

* `makeMissing_cons`, `writeFiles_cons`: what becomes of the first directory and the first file;
* `makeMissing_spec`, `writeFiles_spec`: what the two halves of a run come to, each by induction
  along the plan;
* `carryOut_spec`: the same for a plan, whose files stand in directories that it makes;
* `carryOut_again`: carried out again, a plan changes nothing and reports nothing as written.
-/

namespace PackageScaffold

open Disk FileM

variable {d : Disk} {root : Path} {top : List String} {policy : Policy} {contents : Contents}

/-! ## Directories -/

/-- Directories on the way to one of the given paths. -/
def NewDirectory (top : List String) (directories : List String) (place : List String)
    (item : Item) : Prop :=
  item = .directory ∧ ∃ directory ∈ directories, ∃ made,
    made <+: (Path.ofString directory).steps ∧ place = top ++ made

theorem NewDirectory.mono {some more place : List String} {item : Item} (hsubset : some ⊆ more)
    (h : NewDirectory top some place item) : NewDirectory top more place item := by
  obtain ⟨hitem, directory, hmem, hmade⟩ := h
  exact ⟨hitem, directory, hsubset hmem, hmade⟩

/-- What making the missing directories of a plan comes to. -/
structure MakesMissing (root : Path) (top directories : List String) (before after : Disk)
    (result : Except Failure (List String)) : Prop where
  adds : Adds (NewDirectory top directories) before after
  present : result.isOk = true → ∀ directory ∈ directories,
    after.exists? (root.extend directory) = .ok true
  blocked : result.isOk = false → ∃ directory ∈ directories, Blocked after (root.extend directory)
  again : ∀ later, Grows after later → ∃ result',
    (makeMissing root directories).outcome later = (result', later) ∧
      ∀ made, result' = .ok made → made = [] ∧ result.isOk = true

/-- What becomes of a directory and of those behind it: its path cannot be looked at, it is there,
it cannot be made, or it is made. -/
inductive MakesFirst (root : Path) (directory : String) (rest : List String) (before after : Disk)
    (result : Except Failure (List String)) : Prop
  | unseen {failure : Failure} (hexists : before.exists? (root.extend directory) = .error failure)
      (hresult : result = .error failure) (hsame : after = before)
  | there (hexists : before.exists? (root.extend directory) = .ok true)
      (hrest : (makeMissing root rest).outcome before = (result, after))
  | refused {failure : Failure} (hexists : before.exists? (root.extend directory) = .ok false)
      (hensure : (ensureDirectory (root.extend directory)).outcome before = (.error failure, after))
      (hresult : result = .error failure)
  | made {middle : Disk} {more : Except Failure (List String)}
      (hexists : before.exists? (root.extend directory) = .ok false)
      (hensure : (ensureDirectory (root.extend directory)).outcome before = (.ok (), middle))
      (hrest : (makeMissing root rest).outcome middle = (more, after))
      (hresult : result = more.map (directory :: ·))

theorem makeMissing_cons {directory : String} {rest : List String}
    {result : Except Failure (List String)} {after : Disk}
    (hrun : (makeMissing root (directory :: rest)).outcome d = (result, after)) :
    MakesFirst root directory rest d after result := by
  rw [makeMissing, outcome_bind, outcome_inspect] at hrun
  cases hexists : d.exists? (root.extend directory) with
  | error failure =>
      rw [hexists] at hrun
      obtain ⟨hresult, hsame⟩ := Prod.mk.injEq .. ▸ hrun
      exact .unseen hexists hresult.symm hsame.symm
  | ok isThere =>
      cases isThere with
      | true => exact .there hexists (by simpa [hexists] using hrun)
      | false =>
          simp only [hexists, Bool.false_eq_true, if_false, outcome_bind] at hrun
          rcases hensure : (ensureDirectory (root.extend directory)).outcome d
            with ⟨failure | _, middle⟩ <;> rw [hensure] at hrun
          · obtain ⟨hresult, rfl⟩ := Prod.mk.injEq .. ▸ hrun
            exact .refused hexists hensure hresult.symm
          · rcases hrest : (makeMissing root rest).outcome middle with ⟨more, last⟩
            refine .made hexists hensure (hrest.trans (Prod.ext rfl ?_)) ?_ <;> cases more <;>
              simp only [hrest, outcome_pure] at hrun <;>
              obtain ⟨rfl, rfl⟩ := Prod.mk.injEq .. ▸ hrun <;> rfl

theorem makeMissing_of_there {directory : String} (rest : List String)
    (h : d.exists? (root.extend directory) = .ok true) :
    (makeMissing root (directory :: rest)).outcome d = (makeMissing root rest).outcome d := by
  rw [makeMissing, outcome_bind, outcome_inspect, h]
  rfl

/-- A blocked directory ends the run. -/
theorem makeMissing_of_blocked (h : Rooted d root top) {directory : String}
    (hinner : Path.IsInner directory) (rest : List String)
    (hblocked : Blocked d (root.extend directory)) :
    ∃ failure, (makeMissing root (directory :: rest)).outcome d = (.error failure, d) := by
  rw [makeMissing, outcome_bind, outcome_inspect]
  cases hexists : d.exists? (root.extend directory) with
  | error failure => exact ⟨failure, rfl⟩
  | ok isThere =>
      cases isThere with
      | true =>
          obtain ⟨refusal, -, hlocate⟩ := hblocked
          obtain ⟨-, item, hitem⟩ := exists?_true_iff.mp hexists
          simp [itemAt_eq, hlocate, Except.bind] at hitem
      | false =>
          rw [Path.extend_eq_below hinner] at hblocked ⊢
          obtain ⟨failure, hensure⟩ := ensureDirectory_of_blocked h hblocked
          simp only [Bool.false_eq_true, if_false, outcome_bind, hensure]
          exact ⟨failure, rfl⟩

theorem MakesMissing.nil (d : Disk) : MakesMissing root top [] d d (.ok []) where
  adds := .refl _ _
  present := by simp
  blocked := by simp [Except.isOk, Except.toBool]
  again later _ := ⟨.ok [], rfl, by simp [Except.isOk, Except.toBool]⟩

/-- A run that ends at a blocked directory ends there whenever it is repeated. -/
theorem MakesMissing.refused (h : Rooted d root top) {directory : String}
    (hinner : Path.IsInner directory) (rest : List String) {after : Disk}
    (hadds : Adds (NewDirectory top (directory :: rest)) d after)
    (hblocked : Blocked after (root.extend directory)) (failure : Failure) :
    MakesMissing root top (directory :: rest) d after (.error failure) where
  adds := hadds
  present := by simp [Except.isOk, Except.toBool]
  blocked _ := ⟨directory, List.mem_cons_self, hblocked⟩
  again later hgrows := by
    have hlater := (h.grows hadds.grows).grows hgrows
    obtain ⟨failure', hagain⟩ := makeMissing_of_blocked hlater hinner rest (hblocked.grows hgrows)
    exact ⟨_, hagain, by simp [Except.isOk, Except.toBool]⟩

/-- A directory that is there or has been made does not matter to the rest of the run. -/
theorem MakesMissing.cons {directory : String} {rest : List String} {middle after : Disk}
    {result more : Except Failure (List String)}
    (hadds : Adds (NewDirectory top (directory :: rest)) d middle)
    (hthere : middle.exists? (root.extend directory) = .ok true)
    (hrest : MakesMissing root top rest middle after more) (hresult : result.isOk = more.isOk) :
    MakesMissing root top (directory :: rest) d after result where
  adds := hadds.trans (hrest.adds.mono fun _ _ => .mono (List.subset_cons_self _ _))
  present hok := List.forall_mem_cons.mpr
    ⟨exists?_true_of_grows hthere hrest.adds.grows, hrest.present (hresult ▸ hok)⟩
  blocked hfailed := by
    obtain ⟨blocked, hmem, hblocked⟩ := hrest.blocked (hresult ▸ hfailed)
    exact ⟨blocked, List.mem_cons_of_mem _ hmem, hblocked⟩
  again later hgrows := by
    rw [makeMissing_of_there rest
      (exists?_true_of_grows (exists?_true_of_grows hthere hrest.adds.grows) hgrows), hresult]
    exact hrest.again later hgrows

theorem makeMissing_spec (h : Rooted d root top) {directories : List String}
    (hinner : ∀ directory ∈ directories, Path.IsInner directory)
    {result : Except Failure (List String)} {after : Disk}
    (hrun : (makeMissing root directories).outcome d = (result, after))
    (hdeliberate : Deliberate result) :
    MakesMissing root top directories d after result := by
  induction directories generalizing d result after with
  | nil =>
      obtain ⟨rfl, rfl⟩ := Prod.mk.injEq .. ▸ hrun
      exact .nil d
  | cons directory rest ih =>
      obtain ⟨hfirst, hrest⟩ := List.forall_mem_cons.mp hinner
      have hbelow := Path.extend_eq_below hfirst root
      have hmono : ∀ place item, (item = .directory ∧ ∃ made,
          made <+: (Path.ofString directory).steps ∧ place = top ++ made) →
            NewDirectory top (directory :: rest) place item := by
        rintro place item ⟨hitem, made, hmade⟩
        exact ⟨hitem, directory, by simp, made, hmade⟩
      cases makeMissing_cons hrun with
      -- a directory that cannot be looked for ends the run in an unexpected way
      | unseen hexists hresult =>
          obtain ⟨-, -, rfl⟩ := exists?_error hexists
          exact absurd (hdeliberate _ hresult) (by simp [Failure.isExpected])
      | there hexists hmissing =>
          exact .cons (.refl _ d) hexists (ih h hrest hmissing hdeliberate) rfl
      | @refused failure hexists hensure hresult =>
          subst hresult
          rw [hbelow] at hexists hensure
          obtain ⟨hadds, ⟨hok, -⟩ | ⟨-, hblocked⟩⟩ := ensureDirectory_below h hfirst.forward
            hexists hensure fun f hf => hdeliberate f (by simpa using hf)
          · simp at hok
          · rw [← hbelow] at hblocked
            exact .refused h hfirst rest (hadds.mono hmono) hblocked failure
      | @made middle more hexists hensure hmissing hresult =>
          subst hresult
          rw [hbelow] at hexists hensure
          obtain ⟨hadds, ⟨-, hmade⟩ | ⟨⟨_, herror⟩, -⟩⟩ := ensureDirectory_below h
            hfirst.forward hexists hensure (by simp [Deliberate])
          · rw [← hbelow] at hmade
            have hdeliberate' : Deliberate more := .of_map hdeliberate
            exact .cons (hadds.mono hmono) hmade
              (ih (h.grows hadds.grows) hrest hmissing hdeliberate') (isOk_map _ _)
          · simp at herror

/-! ## Files -/

/-- One of the given files, with its content. -/
def NewFile (top : List String) (contents : Contents) (files : List String) (place : List String)
    (item : Item) : Prop :=
  ∃ file ∈ files, ∃ text, contents.lookup file = some text ∧
    place = top ++ (Path.ofString file).steps ∧ item = .file (.text text)

theorem NewFile.mono {contents : Contents} {some more place : List String} {item : Item}
    (hsubset : some ⊆ more) (h : NewFile top contents some place item) :
    NewFile top contents more place item := by
  obtain ⟨file, hmem, hfile⟩ := h
  exact ⟨file, hsubset hmem, hfile⟩

/-- Something is there that a file stands in, or could stand in. -/
def HasParent (top : List String) (disk : Disk) (file : String) : Prop :=
  disk.tree.item? (top ++ (Path.ofString file).steps.dropLast) ≠ none

theorem HasParent.grows {file : String} {later : Disk} (h : HasParent top d file)
    (hgrows : Grows d later) : HasParent top later file := by
  obtain ⟨item, hitem⟩ := Option.ne_none_iff_exists'.mp h
  intro hnone
  rw [hgrows.keeps hitem] at hnone
  simp at hnone

section Inner

variable (h : Rooted d root top) {file : String} (hinner : Path.IsInner file)
  (hparent : HasParent top d file)

include h hinner hparent

theorem exists?_ok_of_hasParent {isThere : Bool}
    (hexists : d.exists? (root.extend file) = .ok isThere) {later : Disk}
    (hgrows : Grows d later) : ∃ isThere', later.exists? (root.extend file) = .ok isThere' := by
  have hsteps := List.dropLast_concat_getLast hinner.nonempty
  have hforward := hinner.forward
  rw [← hsteps] at hforward
  rw [Path.extend_eq_below hinner, ← hsteps] at hexists ⊢
  exact exists?_ok_of_grows h _ hforward hparent hexists hgrows

theorem writeFile_of_hasParent (hfree : d.exists? (root.extend file) = .ok false)
    {content : Content} {result : Except Failure Unit} {after : Disk}
    (hrun : (writeFile (root.extend file) content false).outcome d = (result, after))
    (hdeliberate : Deliberate result) :
    (result = .ok () ∧
      Adds (fun place item => place = top ++ (Path.ofString file).steps ∧ item = .file content)
        d after ∧
      after.exists? (root.extend file) = .ok true) ∨
    ((∃ failure, result = .error failure) ∧ after = d ∧
      ∀ later, Grows d later → later.exists? (root.extend file) = .ok false →
        ∃ failure, (writeFile (root.extend file) content false).outcome later =
          (.error failure, later)) := by
  have hsteps := List.dropLast_concat_getLast hinner.nonempty
  have hforward := hinner.forward
  rw [← hsteps] at hforward
  rw [Path.extend_eq_below hinner, ← hsteps] at hfree hrun ⊢
  exact writeFile_below h hforward hparent hfree hrun hdeliberate

end Inner

/-- What writing the files of a plan comes to. -/
structure WritesFiles (root : Path) (top : List String) (contents : Contents)
    (files : List String) (before after : Disk)
    (result : Except Failure (List (String × Mark) × Allowance)) : Prop where
  adds : Adds (NewFile top contents files) before after
  present : result.isOk = true → ∀ file ∈ files, after.exists? (root.extend file) = .ok true
  reached : ∀ file, files.head? = some file →
    ∃ isThere, after.exists? (root.extend file) = .ok isThere
  again : ∀ later, Grows after later →
    (∀ file ∈ files.dropLast, later.exists? (root.extend file) = .ok true →
      after.exists? (root.extend file) = .ok true) →
    ∃ result', (writeFiles root .skip contents none files).outcome later = (result', later) ∧
      ∀ marks allowance, result' = .ok (marks, allowance) → ∀ mark ∈ marks, mark.2 = .skipped

/-- A mark in front of those for the rest of the files. -/
def markFirst (mark : String × Mark) (rest : List (String × Mark) × Allowance) :
    List (String × Mark) × Allowance :=
  (mark :: rest.1, rest.2)

/-- What becomes of a file when its turn comes. -/
inductive Turn where
  | write
  | skip
  /-- The path of the file cannot be looked at. -/
  | unseen (failure : Failure)

namespace Turn

/-- Whether the file is written. -/
def isWrite : Turn → Bool
  | .write => true
  | .skip | .unseen _ => false

/-- Why the file cannot be looked at, if it cannot. -/
def failure? : Turn → Option Failure
  | .unseen failure => some failure
  | .write | .skip => none

/-- How the file is marked, if the run comes to an end. -/
def mark : Turn → Mark
  | .write => .written
  | .skip | .unseen _ => .skipped

end Turn

/-- The turn of a file on a disk. -/
def turnOf (root : Path) (policy : Policy) (disk : Disk) (file : String) : Turn :=
  match if policy == .skip then disk.exists? (root.extend file) else .ok false with
  | .error failure => .unseen failure
  | .ok true => .skip
  | .ok false => .write

/-- Writes one file of a plan. -/
def writeOne (root : Path) (policy : Policy) (contents : Contents) (file : String) : FileM Unit :=
  match contents.lookup file with
  | none => throw (.noContent file)
  | some text => writeFile (root.extend file) (.text text) (policy == .overwrite)

/-- A computation whose result and whose failure do not matter. -/
theorem FileM.outcome_swallow {α : Type} (x : FileM α) (d : Disk) :
    (tryCatch (discard x) fun _ => pure ()).outcome d = (.ok (), (x.outcome d).2) := by
  have hdiscard : (discard x).outcome d = ((x.outcome d).1.map fun _ => (), (x.outcome d).2) := by
    change (x >>= fun _ => pure ()).outcome d = _
    rw [outcome_bind]
    rcases x.outcome d with ⟨_ | _, _⟩ <;> rfl
  rw [outcome_tryCatch, hdiscard]
  rcases x.outcome d with ⟨_ | _, _⟩ <;> rfl

/-- A file in front of the others, unless the run is cancelled.  A file that cannot be looked at
does not keep the others from being written. -/
theorem outcome_writeFiles_cons {allowance : Allowance} (hspent : allowance.isSpent = false)
    (file : String) (rest : List String) (d : Disk) :
    (writeFiles root policy contents allowance (file :: rest)).outcome d =
      match turnOf root policy d file with
      | .unseen failure =>
        (.error failure, ((writeFiles root policy contents allowance rest).outcome d).2)
      | .skip =>
        (((writeFiles root policy contents allowance rest).outcome d).1.map
          (markFirst (file, .skipped)),
          ((writeFiles root policy contents allowance rest).outcome d).2)
      | .write =>
        match (writeOne root policy contents file).outcome d with
        | (.ok _, middle) =>
          (((writeFiles root policy contents allowance.spend rest).outcome middle).1.map
            (markFirst (file, .written)),
            ((writeFiles root policy contents allowance.spend rest).outcome middle).2)
        | (.error failure, middle) => (.error failure, middle) := by
  rw [writeFiles, hspent]
  simp only [Bool.false_eq_true, if_false, outcome_bind, outcome_get, turnOf]
  rcases (if policy == .skip then d.exists? (root.extend file) else .ok false)
    with failure | isThere
  · simp only [outcome_bind, outcome_throw, outcome_swallow]
  · cases isThere with
    | true =>
        simp only [outcome_bind]
        rcases (writeFiles root policy contents allowance rest).outcome d with ⟨_ | _, _⟩ <;> rfl
    | false =>
        simp only [writeOne]
        cases contents.lookup file with
        | none => rfl
        | some text =>
            simp only [outcome_bind]
            rcases (writeFile (root.extend file) (.text text) (policy == .overwrite)).outcome d
              with ⟨_ | _, middle⟩
            · rfl
            · simp only
              rcases (writeFiles root policy contents allowance.spend rest).outcome middle
                with ⟨_ | _, _⟩ <;> rfl

theorem outcome_writeFiles_of_spent {allowance : Allowance} (hspent : allowance.isSpent = true)
    (files : List String) (d : Disk) :
    (writeFiles root policy contents allowance files).outcome d = (.ok ([], allowance), d) := by
  cases files with
  | nil => rfl
  | cons file rest =>
      rw [writeFiles, hspent]
      rfl

theorem turnOf_skip (root : Path) (d : Disk) (file : String) :
    turnOf root .skip d file =
      match d.exists? (root.extend file) with
      | .error failure => .unseen failure
      | .ok true => .skip
      | .ok false => .write := rfl

theorem turnOf_of_ne_skip (hpolicy : policy ≠ .skip) (root : Path) (d : Disk) (file : String) :
    turnOf root policy d file = .write := by
  rw [turnOf, if_neg (by simpa using hpolicy)]

theorem writeFiles_of_there {file : String} (rest : List String)
    (h : d.exists? (root.extend file) = .ok true) :
    (writeFiles root .skip contents none (file :: rest)).outcome d =
      (((writeFiles root .skip contents none rest).outcome d).1.map (markFirst (file, .skipped)),
        ((writeFiles root .skip contents none rest).outcome d).2) := by
  rw [outcome_writeFiles_cons rfl, turnOf_skip, h]

theorem writeFiles_of_free {file text : String} (rest : List String)
    (h : d.exists? (root.extend file) = .ok false) (hlookup : contents.lookup file = some text) :
    (writeFiles root .skip contents none (file :: rest)).outcome d =
      match (writeFile (root.extend file) (.text text) false).outcome d with
      | (.ok _, middle) =>
        (((writeFiles root .skip contents none rest).outcome middle).1.map
          (markFirst (file, .written)),
          ((writeFiles root .skip contents none rest).outcome middle).2)
      | (.error failure, middle) => (.error failure, middle) := by
  rw [outcome_writeFiles_cons rfl, turnOf_skip, h]
  simp only [writeOne, hlookup]
  rfl

theorem writeFiles_of_noContent {file : String} (rest : List String)
    (h : d.exists? (root.extend file) = .ok false) (hlookup : contents.lookup file = none) :
    ((writeFiles root .skip contents none (file :: rest)).outcome d).1 =
      .error (.noContent file) := by
  rw [outcome_writeFiles_cons rfl, turnOf_skip, h]
  simp only [writeOne, hlookup, outcome_throw]

/-- A file that cannot be looked at makes the run fail, whatever becomes of the rest. -/
theorem writeFiles_of_error {file : String} (rest : List String)
    {failure : Failure} (h : d.exists? (root.extend file) = .error failure) :
    ((writeFiles root .skip contents none (file :: rest)).outcome d).1 = .error failure := by
  rw [outcome_writeFiles_cons rfl, turnOf_skip, h]

/-- What a run that writes does with the first of its files.  `passed` and `written` leave the rest
of the files to be written; after `refused` the file could only be written if it was there. -/
inductive WritesFirst (root : Path) (top : List String) (contents : Contents) (file : String)
    (rest : List String) (before after : Disk)
    (result : Except Failure (List (String × Mark) × Allowance)) : Prop
  | passed {more : Except Failure (List (String × Mark) × Allowance)}
      (hexists : before.exists? (root.extend file) = .ok true)
      (hrest : (writeFiles root .skip contents none rest).outcome before = (more, after))
      (hresult : result = more.map (markFirst (file, .skipped)))
  | written {text : String} {middle : Disk}
      {more : Except Failure (List (String × Mark) × Allowance)}
      (hexists : before.exists? (root.extend file) = .ok false)
      (hlookup : contents.lookup file = some text)
      (hadds : Adds (fun place item => place = top ++ (Path.ofString file).steps ∧
        item = .file (.text text)) before middle)
      (hthere : middle.exists? (root.extend file) = .ok true)
      (hrest : (writeFiles root .skip contents none rest).outcome middle = (more, after))
      (hresult : result = more.map (markFirst (file, .written)))
  | refused {text : String} {failure : Failure}
      (hexists : before.exists? (root.extend file) = .ok false)
      (hlookup : contents.lookup file = some text)
      (hagain : ∀ later, Grows before later → later.exists? (root.extend file) = .ok false →
        ∃ failure', (writeFile (root.extend file) (.text text) false).outcome later =
          (.error failure', later))
      (hresult : result = .error failure) (hsame : after = before)

theorem writeFiles_cons (h : Rooted d root top) {contents : Contents} {file : String}
    {rest : List String} (hinner : Path.IsInner file) (hparent : HasParent top d file)
    {result : Except Failure (List (String × Mark) × Allowance)} {after : Disk}
    (hrun : (writeFiles root .skip contents none (file :: rest)).outcome d = (result, after))
    (hdeliberate : Deliberate result) :
    WritesFirst root top contents file rest d after result := by
  cases hexists : d.exists? (root.extend file) with
  | error failure =>
      have hresult := (congrArg Prod.fst hrun).symm.trans (writeFiles_of_error rest hexists)
      obtain ⟨-, -, rfl⟩ := exists?_error hexists
      exact absurd (hdeliberate _ hresult) (by simp [Failure.isExpected])
  | ok isThere =>
      cases isThere with
      | true =>
          rw [writeFiles_of_there rest hexists] at hrun
          obtain ⟨hresult, hafter⟩ := Prod.mk.injEq .. ▸ hrun
          exact .passed hexists (Prod.ext rfl hafter) hresult.symm
      | false =>
          cases hlookup : contents.lookup file with
          | none =>
              have hresult := writeFiles_of_noContent rest hexists hlookup
              rw [hrun] at hresult
              exact absurd (hdeliberate _ hresult) (by simp [Failure.isExpected])
          | some text =>
              rw [writeFiles_of_free rest hexists hlookup] at hrun
              rcases hwrite : (writeFile (root.extend file) (.text text) false).outcome d
                with ⟨written?, middle⟩
              rw [hwrite] at hrun
              have hdeliberate' : Deliberate written? := by
                rintro failure rfl
                obtain ⟨rfl, -⟩ := Prod.mk.injEq .. ▸ hrun
                exact hdeliberate failure rfl
              rcases writeFile_of_hasParent h hinner hparent hexists hwrite hdeliberate' with
                ⟨rfl, hadds, hthere⟩ | ⟨⟨failure, rfl⟩, rfl, hagain⟩
              · obtain ⟨hresult, hafter⟩ := Prod.mk.injEq .. ▸ hrun
                exact .written hexists hlookup hadds hthere (Prod.ext rfl hafter) hresult.symm
              · obtain ⟨hresult, hafter⟩ := Prod.mk.injEq .. ▸ hrun
                exact .refused hexists hlookup hagain hresult.symm hafter.symm

/-- What was written for one file is new content of that file. -/
theorem newFile_singleton {contents : Contents} {file text : String}
    (hlookup : contents.lookup file = some text) {place : List String} {item : Item}
    (h : place = top ++ (Path.ofString file).steps ∧ item = .file (.text text)) :
    NewFile top contents [file] place item :=
  ⟨file, by simp, text, hlookup, h.1, h.2⟩

theorem WritesFiles.nil (contents : Contents) (d : Disk) :
    WritesFiles root top contents [] d d (.ok ([], none)) where
  adds := .refl _ _
  present := by simp
  reached := by simp
  again later _ _ := by
    refine ⟨.ok ([], none), rfl, fun marks allowance hmarks mark hmark => ?_⟩
    obtain ⟨rfl, rfl⟩ : [] = marks ∧ none = allowance := by simpa using hmarks
    simp at hmark

/-- A run that ends at a file that cannot be written ends there whenever it is repeated.  Only if
the file is the last one, it may have turned up meanwhile. -/
theorem WritesFiles.refused (h : Rooted d root top) {contents : Contents} {file text : String}
    (hinner : Path.IsInner file) (hparent : HasParent top d file)
    (hlookup : contents.lookup file = some text) (hfree : d.exists? (root.extend file) = .ok false)
    (hrefused : ∀ later, Grows d later → later.exists? (root.extend file) = .ok false →
      ∃ failure, (writeFile (root.extend file) (.text text) false).outcome later =
        (.error failure, later)) (rest : List String) (failure : Failure) :
    WritesFiles root top contents (file :: rest) d d (.error failure) where
  adds := .refl _ _
  present := by simp [Except.isOk, Except.toBool]
  reached first hhead := by
    obtain rfl : file = first := by simpa using hhead
    exact ⟨false, hfree⟩
  again later hgrows hdropLast := by
    obtain ⟨isThere, hlater⟩ := exists?_ok_of_hasParent h hinner hparent hfree hgrows
    cases isThere with
    | false =>
        obtain ⟨failure', hagain⟩ := hrefused later hgrows hlater
        rw [writeFiles_of_free rest hlater hlookup, hagain]
        exact ⟨_, rfl, by simp⟩
    | true =>
        cases rest with
        | cons second rest =>
            have hnow := hdropLast file (by simp) hlater
            rw [hfree] at hnow
            simp at hnow
        | nil =>
            rw [writeFiles_of_there [] hlater]
            refine ⟨_, rfl, fun marks allowance hmarks mark hmark => ?_⟩
            obtain ⟨rfl, -⟩ : [(file, .skipped)] = marks ∧ none = allowance := by
              simpa [writeFiles, Except.map, markFirst] using hmarks
            rw [List.mem_singleton.mp hmark]

/-- A file that is there or has been written does not matter to the rest of the run. -/
theorem WritesFiles.cons {contents : Contents} {file : String} {rest : List String}
    {middle after : Disk} {result more : Except Failure (List (String × Mark) × Allowance)}
    (hadds : Adds (NewFile top contents (file :: rest)) d middle)
    (hthere : middle.exists? (root.extend file) = .ok true)
    (hrest : WritesFiles root top contents rest middle after more)
    (hresult : result.isOk = more.isOk) :
    WritesFiles root top contents (file :: rest) d after result where
  adds := hadds.trans (hrest.adds.mono fun _ _ => .mono (List.subset_cons_self _ _))
  present hok := List.forall_mem_cons.mpr
    ⟨exists?_true_of_grows hthere hrest.adds.grows, hrest.present (hresult ▸ hok)⟩
  reached first hfirst := by
    obtain rfl : file = first := by simpa using hfirst
    exact ⟨true, exists?_true_of_grows hthere hrest.adds.grows⟩
  again later hgrows hdropLast := by
    have hthere' := exists?_true_of_grows (exists?_true_of_grows hthere hrest.adds.grows) hgrows
    obtain ⟨result', hagain, hskipped⟩ := hrest.again later hgrows fun other hother => by
      refine hdropLast other ?_
      cases rest with
      | nil => simp at hother
      | cons second rest => exact List.mem_cons_of_mem _ hother
    rw [writeFiles_of_there rest hthere', hagain]
    refine ⟨_, rfl, fun marks allowance hmarks mark hmark => ?_⟩
    cases result' with
    | error failure => simp [Except.map] at hmarks
    | ok pair =>
        obtain ⟨rfl, rfl⟩ : (file, .skipped) :: pair.1 = marks ∧ pair.2 = allowance := by
          simpa [Except.map, markFirst] using hmarks
        rcases List.mem_cons.mp hmark with rfl | hmark
        · rfl
        · exact hskipped _ _ rfl mark hmark

theorem writeFiles_spec (h : Rooted d root top) {contents : Contents} {files : List String}
    (hinner : ∀ file ∈ files, Path.IsInner file) (hparents : ∀ file ∈ files, HasParent top d file)
    {result : Except Failure (List (String × Mark) × Allowance)} {after : Disk}
    (hrun : (writeFiles root .skip contents none files).outcome d = (result, after))
    (hdeliberate : Deliberate result) :
    WritesFiles root top contents files d after result := by
  induction files generalizing d result after with
  | nil =>
      obtain ⟨rfl, rfl⟩ := Prod.mk.injEq .. ▸ hrun
      exact .nil contents d
  | cons file rest ih =>
      obtain ⟨hfirst, hrest⟩ := List.forall_mem_cons.mp hinner
      obtain ⟨hparent, hparents'⟩ := List.forall_mem_cons.mp hparents
      -- behind the first file the result is that of the rest, with one more mark
      cases writeFiles_cons h hfirst hparent hrun hdeliberate with
      | passed hexists hmore hresult =>
          subst hresult
          exact .cons (.refl _ d) hexists
            (ih h hrest hparents' hmore (Deliberate.of_map hdeliberate)) (isOk_map _ _)
      | written _ hlookup hadds hthere hmore hresult =>
          subst hresult
          -- the rest of the files still have their parents on the disk that has grown
          have hgrown : ∀ other ∈ rest, HasParent top _ other :=
            fun other hother => (hparents' other hother).grows hadds.grows
          have hnew : Adds (NewFile top contents (file :: rest)) d _ :=
            hadds.mono fun _ _ hitem => (newFile_singleton hlookup hitem).mono (by simp)
          exact .cons hnew hthere
            (ih (h.grows hadds.grows) hrest hgrown hmore (Deliberate.of_map hdeliberate))
            (isOk_map _ _)
      | refused hexists hlookup hagain hresult hsame =>
          subst hresult hsame
          exact .refused h hfirst hparent hlookup hexists hagain rest _

/-! ## Plans -/

/-- The directories that carrying out a plan makes sure of. -/
def wantedDirectories (entries : List PlanEntry) : List String :=
  plannedDirectories entries ++
    impliedDirectories (plannedDirectories entries) (plannedFiles entries)

/-- All paths of a plan stay inside the root. -/
structure IsInnerPlan (entries : List PlanEntry) : Prop where
  directories : ∀ directory ∈ plannedDirectories entries, Path.IsInner directory
  files : ∀ file ∈ plannedFiles entries, Path.IsInner file

theorem mem_wantedDirectories_of_parent {entries : List PlanEntry} {file : String}
    (hfile : file ∈ plannedFiles entries) (hparent : (Path.ofString file).parent.text ≠ ".") :
    (Path.ofString file).parent.text ∈ wantedDirectories entries := by
  by_cases hmem : (Path.ofString file).parent.text ∈ plannedDirectories entries
  · exact List.mem_append_left _ hmem
  · refine List.mem_append_right _ ?_
    simp only [impliedDirectories, List.mem_mergeSort, List.mem_filter, List.mem_eraseDups,
      List.mem_map]
    exact ⟨⟨⟨file, hfile, rfl⟩, by simpa using hparent⟩, by simpa using hmem⟩

theorem plannedFiles_subset {part entries : List PlanEntry} (h : part ⊆ entries) :
    plannedFiles part ⊆ plannedFiles entries :=
  List.map_subset _ (List.filter_subset _ h)

/-- Every directory that a part of a plan needs is one that the plan needs. -/
theorem wantedDirectories_subset {part entries : List PlanEntry} (h : part ⊆ entries) :
    wantedDirectories part ⊆ wantedDirectories entries := by
  refine List.append_subset.mpr ⟨fun directory hmem => List.mem_append_left _ ?_,
    fun directory hmem => ?_⟩
  · exact List.map_subset _ (List.filter_subset _ h) hmem
  · simp only [impliedDirectories, List.mem_mergeSort, List.mem_filter, List.mem_eraseDups,
      List.mem_map] at hmem
    obtain ⟨⟨⟨file, hfile, rfl⟩, hdot⟩, -⟩ := hmem
    exact mem_wantedDirectories_of_parent (plannedFiles_subset h hfile) (by simpa using hdot)

theorem IsInnerPlan.wanted {entries : List PlanEntry} (h : IsInnerPlan entries) :
    ∀ directory ∈ wantedDirectories entries, Path.IsInner directory := by
  intro directory hmem
  rcases List.mem_append.mp hmem with hmem | hmem
  · exact h.directories directory hmem
  · simp only [impliedDirectories, List.mem_mergeSort, List.mem_filter, List.mem_eraseDups,
      List.mem_map] at hmem
    obtain ⟨⟨⟨file, hfile, rfl⟩, hdot⟩, -⟩ := hmem
    rcases (h.files file hfile).parent with ⟨hparent, -⟩ | ⟨hparent, -⟩
    · simp [hparent] at hdot
    · exact hparent

/-- The files of a plan stand in directories that the plan makes sure of. -/
theorem IsInnerPlan.hasParent {entries : List PlanEntry} (hinner : IsInnerPlan entries)
    (h : Rooted d root top)
    (hthere : ∀ directory ∈ wantedDirectories entries,
      d.exists? (root.extend directory) = .ok true) :
    ∀ file ∈ plannedFiles entries, HasParent top d file := by
  intro file hfile
  unfold HasParent
  rcases (hinner.files file hfile).parent with ⟨-, hsteps⟩ | ⟨hparent, hsteps⟩
  · simp [hsteps, h.isDirectory]
  · have hdot : (Path.ofString file).parent.text ≠ "." := by
      intro heq
      have hnonempty := hparent.nonempty
      rw [heq] at hnonempty
      exact hnonempty (by decide)
    have hexists := hthere _ (mem_wantedDirectories_of_parent hfile hdot)
    rw [Path.extend_eq_below hparent] at hexists
    obtain ⟨-, item, hitem⟩ := exists?_true_iff.mp hexists
    rw [← hsteps, h.item?_of_itemAt hparent.forward hitem]
    simp

/-- What is new once a plan has been carried out. -/
def NewPlanned (top : List String) (entries : List PlanEntry) (contents : Contents)
    (place : List String) (item : Item) : Prop :=
  NewDirectory top (wantedDirectories entries) place item ∨
    NewFile top contents (plannedFiles entries) place item

/-- A directory that is wanted is one of the plan, or a file of the plan stands in it. -/
theorem IsInnerPlan.cases_of_mem_wantedDirectories {entries : List PlanEntry}
    (hinner : IsInnerPlan entries) {directory : String}
    (h : directory ∈ wantedDirectories entries) :
    directory ∈ plannedDirectories entries ∨ ∃ file ∈ plannedFiles entries,
      (Path.ofString directory).steps = (Path.ofString file).steps.dropLast := by
  rcases List.mem_append.mp h with hmem | hmem
  · exact .inl hmem
  · simp only [impliedDirectories, List.mem_mergeSort, List.mem_filter, List.mem_eraseDups,
      List.mem_map] at hmem
    obtain ⟨⟨⟨file, hfile, rfl⟩, hdot⟩, -⟩ := hmem
    refine .inr ⟨file, hfile, ?_⟩
    rcases (hinner.files file hfile).parent with ⟨hparent, -⟩ | ⟨-, hsteps⟩
    · simp [hparent] at hdot
    · exact hsteps

/-- The new directories are those of the plan and those above its files. -/
theorem NewPlanned.cases {entries : List PlanEntry} {contents : Contents} {place : List String}
    {item : Item} (hinner : IsInnerPlan entries) (h : NewPlanned top entries contents place item) :
    (item = .directory ∧
      ((∃ directory ∈ plannedDirectories entries, ∃ made,
        made <+: (Path.ofString directory).steps ∧ place = top ++ made) ∨
      ∃ file ∈ plannedFiles entries, ∃ made,
        made <+: (Path.ofString file).steps.dropLast ∧ place = top ++ made)) ∨
    NewFile top contents (plannedFiles entries) place item := by
  rcases h with ⟨hitem, directory, hmem, made, hmade, hplace⟩ | hfile
  · refine .inl ⟨hitem, ?_⟩
    rcases hinner.cases_of_mem_wantedDirectories hmem with hplanned | ⟨file, hfile, hsteps⟩
    · exact .inl ⟨directory, hplanned, made, hmade, hplace⟩
    · exact .inr ⟨file, hfile, made, hsteps ▸ hmade, hplace⟩
  · exact .inr hfile

/-- What carrying out a plan comes to. -/
structure CarriesOut (root : Path) (top : List String) (entries : List PlanEntry)
    (contents : Contents) (before after : Disk) (result : Except Failure (Ledger × Allowance)) :
    Prop where
  adds : Adds (NewPlanned top entries contents) before after
  present : result.isOk = true → ∀ path ∈ plannedDirectories entries ++ plannedFiles entries,
    after.exists? (root.extend path) = .ok true
  reached : (∃ directory ∈ wantedDirectories entries, Blocked after (root.extend directory)) ∨
    ∀ file, (plannedFiles entries).head? = some file → HasParent top after file ∧
      ∃ isThere, after.exists? (root.extend file) = .ok isThere
  again : ∀ later, Grows after later →
    (∀ file ∈ (plannedFiles entries).dropLast, later.exists? (root.extend file) = .ok true →
      after.exists? (root.extend file) = .ok true) →
    ∃ result', (carryOut entries root contents .skip none).outcome later = (result', later) ∧
      ∀ ledger allowance, result' = .ok (ledger, allowance) → ledger.written = []

/-- The ledger of a run, from the directories that were made and the marks of the files. -/
def ledgerOf (entries : List PlanEntry) (made : List String)
    (marked : List (String × Mark) × Allowance) : Ledger × Allowance :=
  ({ directories := made.filter (plannedDirectories entries).contains
     files := (plannedFiles entries).filter fun file => markOf? marked.1 file == some .written
     skipped := (plannedFiles entries).filter fun file => markOf? marked.1 file == some .skipped
     cancelled := marked.2.isSpent &&
       decide ((marked.1.map (·.1)).eraseDups.length < (plannedFiles entries).length) }, marked.2)

/-- Unless a run is cancelled before its first directory, a plan is carried out in two halves. -/
theorem outcome_carryOut_of_running {entries : List PlanEntry} {allowance : Allowance}
    (h : allowance.isSpent = false ∨ wantedDirectories entries = []) (root : Path)
    (contents : Contents) (policy : Policy) (d : Disk) :
    (carryOut entries root contents policy allowance).outcome d =
      match (makeMissing root (wantedDirectories entries)).outcome d with
      | (.ok made, middle) =>
        (((writeFiles root policy contents allowance (plannedFiles entries)).outcome middle).1.map
          (ledgerOf entries made),
          ((writeFiles root policy contents allowance (plannedFiles entries)).outcome middle).2)
      | (.error failure, middle) => (.error failure, middle) := by
  have hrunning : (allowance.isSpent && !(wantedDirectories entries).isEmpty) = false := by
    rcases h with h | h <;> simp [h]
  rw [wantedDirectories] at hrunning
  rw [carryOut]
  simp only [hrunning, Bool.false_eq_true, if_false, outcome_bind]
  rw [← wantedDirectories]
  rcases (makeMissing root (wantedDirectories entries)).outcome d with ⟨_ | made, middle⟩
  · rfl
  · simp only
    rcases (writeFiles root policy contents allowance (plannedFiles entries)).outcome middle
      with ⟨_ | _, _⟩ <;> rfl

theorem outcome_carryOut (entries : List PlanEntry) (root : Path) (contents : Contents)
    (policy : Policy) (d : Disk) :
    (carryOut entries root contents policy none).outcome d =
      match (makeMissing root (wantedDirectories entries)).outcome d with
      | (.ok made, middle) =>
        (((writeFiles root policy contents none (plannedFiles entries)).outcome middle).1.map
          (ledgerOf entries made),
          ((writeFiles root policy contents none (plannedFiles entries)).outcome middle).2)
      | (.error failure, middle) => (.error failure, middle) :=
  outcome_carryOut_of_running (.inl rfl) root contents policy d

/-- A plan ends with the directory that it could not make, or its files decide what it comes to. -/
theorem carryOut_cases {entries : List PlanEntry} {result : Except Failure (Ledger × Allowance)}
    {after : Disk}
    (hrun : (carryOut entries root contents policy none).outcome d = (result, after)) :
    (∃ failure, (makeMissing root (wantedDirectories entries)).outcome d = (.error failure, after) ∧
      result = .error failure) ∨
    ∃ made middle marked?,
      (makeMissing root (wantedDirectories entries)).outcome d = (.ok made, middle) ∧
      (writeFiles root policy contents none (plannedFiles entries)).outcome middle =
        (marked?, after) ∧
      result = marked?.map (ledgerOf entries made) := by
  rw [outcome_carryOut] at hrun
  rcases hmake : (makeMissing root (wantedDirectories entries)).outcome d
    with ⟨failure | made, middle⟩
  · rw [hmake] at hrun
    obtain ⟨rfl, rfl⟩ := Prod.mk.injEq .. ▸ hrun
    exact .inl ⟨failure, rfl, rfl⟩
  · rw [hmake] at hrun
    obtain ⟨hresult, hafter⟩ := Prod.mk.injEq .. ▸ hrun
    exact .inr ⟨made, middle, _, rfl, Prod.ext rfl hafter, hresult.symm⟩

/-- A plan that was carried out made its directories, and then wrote its files. -/
theorem carryOut_eq_ok {entries : List PlanEntry} {done : Ledger × Allowance} {after : Disk}
    (h : (carryOut entries root contents policy none).outcome d = (.ok done, after)) :
    ∃ made middle marked,
      (makeMissing root (wantedDirectories entries)).outcome d = (.ok made, middle) ∧
      (writeFiles root policy contents none (plannedFiles entries)).outcome middle =
        (.ok marked, after) ∧
      done = ledgerOf entries made marked := by
  rcases carryOut_cases h with
    ⟨failure, -, hresult⟩ | ⟨made, middle, marked?, hmake, hwrite, hresult⟩
  · simp at hresult
  · obtain ⟨marked, rfl, rfl⟩ := map_eq_ok hresult.symm
    exact ⟨made, middle, marked, hmake, hwrite, rfl⟩

/-- Where nothing was made and every file was skipped, nothing was written. -/
theorem written_ledgerOf {entries : List PlanEntry} {marked : List (String × Mark) × Allowance}
    (h : ∀ mark ∈ marked.1, mark.2 = .skipped) : (ledgerOf entries [] marked).1.written = [] := by
  have hfiles : (plannedFiles entries).filter
      (fun file => markOf? marked.1 file == some .written) = [] := by
    rw [List.filter_eq_nil_iff]
    intro file _ hwritten
    have hlookup : markOf? marked.1 file = some .written := by simpa using hwritten
    obtain ⟨before, after, hsplit, -⟩ := List.lookup_eq_some_iff.mp hlookup
    have hmem : (file, Mark.written) ∈ marked.1 := by
      rw [← List.mem_reverse, hsplit]
      simp
    simpa using h _ hmem
  simp [ledgerOf, Ledger.written, hfiles]

theorem carryOut_spec (h : Rooted d root top) {entries : List PlanEntry}
    (hinner : IsInnerPlan entries) {contents : Contents}
    {result : Except Failure (Ledger × Allowance)} {after : Disk}
    (hrun : (carryOut entries root contents .skip none).outcome d = (result, after))
    (hdeliberate : Deliberate result) :
    CarriesOut root top entries contents d after result := by
  rcases carryOut_cases hrun with
    ⟨failure, hmake, rfl⟩ | ⟨made, middle, marked?, hmake, hwrite, rfl⟩
  · have hspec := makeMissing_spec h hinner.wanted hmake
      fun f hf => hdeliberate f (by simpa using hf)
    refine ⟨hspec.adds.mono fun _ _ => .inl, by simp [Except.isOk, Except.toBool],
      .inl (hspec.blocked rfl), fun later hgrows _ => ?_⟩
    obtain ⟨result', hagain, hok⟩ := hspec.again later hgrows
    rw [outcome_carryOut, hagain]
    cases result' with
    | error failure' => exact ⟨_, rfl, by simp⟩
    | ok made => simpa [Except.isOk, Except.toBool] using (hok made rfl).2
  · have hspec := makeMissing_spec h hinner.wanted hmake (by simp [Deliberate])
    have hroot := h.grows hspec.adds.grows
    have hparents := hinner.hasParent hroot (hspec.present rfl)
    have hfiles :=
      writeFiles_spec hroot hinner.files hparents hwrite (Deliberate.of_map hdeliberate)
    refine ⟨(hspec.adds.mono fun _ _ => .inl).trans (hfiles.adds.mono fun _ _ => .inr), ?_, ?_, ?_⟩
    · intro hok
      have hok' : marked?.isOk = true := isOk_map marked? _ ▸ hok
      refine List.forall_mem_append.mpr ⟨fun directory hmem => ?_, hfiles.present hok'⟩
      exact exists?_true_of_grows (hspec.present rfl directory (List.mem_append_left _ hmem))
        hfiles.adds.grows
    · refine .inr fun file hhead => ⟨?_, hfiles.reached file hhead⟩
      exact (hparents file (List.mem_of_mem_head? hhead)).grows hfiles.adds.grows
    · intro later hgrows hdropLast
      -- once more, the plan fails or has nothing left to make
      obtain ⟨made', hagain, hmade⟩ := hspec.again later (hfiles.adds.grows.trans hgrows)
      rw [outcome_carryOut, hagain]
      cases made' with
      | error failure => exact ⟨_, rfl, by simp⟩
      | ok made' =>
          obtain ⟨rfl, -⟩ := hmade made' rfl
          obtain ⟨marked', hagain', hskipped⟩ := hfiles.again later hgrows hdropLast
          simp only [hagain']
          refine ⟨_, rfl, fun ledger allowance hledger => ?_⟩
          obtain ⟨marked, rfl, hledgerOf⟩ := map_eq_ok hledger
          obtain rfl : (ledgerOf entries [] marked).1 = ledger := congrArg Prod.fst hledgerOf
          exact written_ledgerOf (hskipped _ _ rfl)

end PackageScaffold
