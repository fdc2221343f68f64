import PackageScaffold.Project.Creation
import PackageScaffold.Proofs.Files.Writing
import PackageScaffold.Proofs.Plan.Completion
import PackageScaffold.Proofs.Plan.Places

/-!
# What creating a project leaves

Where nothing was, a creation makes the directories that its path passes, and then all that its plan
says.  Leave to overwrite makes no difference there: no file takes the place of another.

* `writeFiles_fresh`: files that are written where none of them was;
* `carryOut_of_isFileless`: a plan that is carried out where there are only directories;
* `create_holds`: a project that is created where nothing was holds all that its plan says;
* `create_spec`: it holds nothing else if its path does not pass through anything inside.
-/

namespace PackageScaffold

open Disk FileM

/-! ## Writing with leave to overwrite -/

variable {d : Disk} {root : Path} {top : List String}

/-- A file that is written where nothing stands but the same file is all that is new. -/
theorem adds_of_rewrite {tree : FileTree} {content : Content} {place : List String}
    (hwrite : d.tree.write content place = .ok tree)
    (hsame : ∀ old, d.tree.item? place = some (.file old) → old = content) :
    Adds (fun new item => new = place ∧ item = .file content) d { d with tree } := by
  cases hitem : d.tree.item? place with
  | none => exact adds_of_write hwrite hitem
  | some item =>
      have hfile : item = .file content := by
        cases item with
        | directory => exact absurd hitem (FileTree.item?_ne_directory_of_write hwrite)
        | file old => rw [hsame old hitem]
      have hview : ∀ steps, tree.item? steps = d.tree.item? steps := by
        intro steps
        rw [FileTree.item?_write hwrite]
        split
        · rename_i heq
          rw [heq, hitem, hfile]
        · rfl
      refine ⟨rfl, fun {steps item} hbefore => ?_, fun {steps item} hnone hsome => ?_⟩
      · exact (hview steps).trans hbefore
      · rw [show ({ d with tree } : Disk).tree = tree from rfl, hview, hnone] at hsome
        simp at hsome

/-- What writing a file leaves where nothing stands but the same file. -/
theorem writeFile_spec (h : Rooted d root top) {contents : Contents} {file text : String}
    (hinner : Path.IsInner file) (hlookup : contents.lookup file = some text) {overwrite : Bool}
    {after : Disk}
    (hrun : (writeFile (root.extend file) (.text text) overwrite).outcome d = (.ok (), after))
    (hsame : ∀ old, d.tree.item? (top ++ (Path.ofString file).steps) = some (.file old) →
      old = .text text) :
    Adds (NewFile top contents [file]) d after ∧ HoldsFile after root contents file := by
  obtain ⟨-, hdraft, hnull, hmove⟩ := writeFile_eq_ok hrun
  obtain ⟨-, hlocate, tree, hwrite, rfl⟩ := moveTo_eq_ok hmove
  have hplace : d.place (root.extend file) = top ++ (Path.ofString file).steps := by
    rw [place_extend hinner, ← h.eq_place]
  rw [← hplace] at hsame
  have hadds := adds_of_rewrite hwrite hsame
  have hsteps := List.dropLast_concat_getLast hinner.nonempty
  have hforward : ".." ∉ (Path.ofString file).steps.dropLast ++
      [(Path.ofString file).steps.getLast hinner.nonempty] := by
    rw [hsteps]
    exact hinner.forward
  have hpath := Path.extend_eq_below hinner root
  -- the place of the file was found, so the directory above it is there
  have hparent : d.tree.item? (top ++ (Path.ofString file).steps.dropLast) ≠ none := by
    rw [hpath, ← hsteps] at hlocate
    rw [isDirectory_above h hforward hlocate]
    simp
  refine ⟨hadds.mono ?_, hinner, hnull, ⟨text, hlookup, ?_⟩, ?_⟩
  · rintro new item ⟨hnew, hitem⟩
    exact ⟨file, List.mem_singleton.mpr rfl, text, hlookup, hnew.trans hplace, hitem⟩
  · refine itemAt_of_locate (locate_of_grows hadds.grows hlocate (by simp)) ?_
    rw [FileTree.item?_write hwrite, if_pos rfl]
  · rw [hpath, ← hsteps] at hdraft ⊢
    rw [outcome_checkDraft_of_grows h hforward hparent hadds.grows]
    exact hdraft

/-- A file that stands on a disk still stands there when the disk has grown. -/
theorem HoldsFile.grows (h : Rooted d root top) {contents : Contents} {file : String}
    (hfile : HoldsFile d root contents file) {later : Disk} (hgrows : Grows d later) :
    HoldsFile later root contents file := by
  obtain ⟨hinner, hnull, ⟨text, hlookup, hitem⟩, hdraft⟩ := hfile
  refine ⟨hinner, hnull, ⟨text, hlookup, itemAt_of_grows hgrows hitem (by simp)⟩, ?_⟩
  have hsteps := List.dropLast_concat_getLast hinner.nonempty
  have hforward := hinner.forward
  rw [Path.extend_eq_below hinner] at hitem hdraft ⊢
  have hplace := h.item?_of_itemAt hforward hitem
  rw [← hsteps] at hforward hdraft hplace ⊢
  rw [← List.append_assoc] at hplace
  have hparent : d.tree.item? (top ++ (Path.ofString file).steps.dropLast) ≠ none := by
    rw [FileTree.item?_of_item?_append (List.cons_ne_nil _ _) (by rw [hplace]; simp)]
    simp
  rw [outcome_checkDraft_of_grows h hforward hparent hgrows]
  exact hdraft

/-! ## Writing the files of a plan -/

theorem writeFiles_cons_eq_ok {policy : Policy} (hpolicy : policy ≠ .skip) {contents : Contents}
    {file : String} {rest : List String} {marks : List (String × Mark) × Allowance} {after : Disk}
    (h : (writeFiles root policy contents none (file :: rest)).outcome d = (.ok marks, after)) :
    ∃ text middle marks', contents.lookup file = some text ∧
      (writeFile (root.extend file) (.text text) (policy == .overwrite)).outcome d =
        (.ok (), middle) ∧
      (writeFiles root policy contents none rest).outcome middle = (.ok marks', after) := by
  rw [outcome_writeFiles_cons rfl, turnOf_of_ne_skip hpolicy] at h
  rcases hwrite : (writeOne root policy contents file).outcome d with ⟨failure | _, middle⟩
  · simp [hwrite] at h
  · simp only [hwrite] at h
    obtain ⟨hresult, hafter⟩ := Prod.mk.injEq .. ▸ h
    obtain ⟨marks', hrest, -⟩ := map_eq_ok hresult
    rw [writeOne] at hwrite
    cases hlookup : contents.lookup file with
    | none => simp [hlookup] at hwrite
    | some text =>
        exact ⟨text, middle, marks', rfl, by simpa [hlookup] using hwrite, Prod.ext hrest hafter⟩

/-- Files that do not take each other's places are all there once they have been written. -/
theorem writeFiles_fresh {policy : Policy} (hpolicy : policy ≠ .skip) (h : Rooted d root top)
    {contents : Contents} {files : List String} (hinner : ∀ file ∈ files, Path.IsInner file)
    (hapart : ∀ file ∈ files, ∀ other ∈ files,
      (Path.ofString file).steps = (Path.ofString other).steps → file = other)
    (hsame : ∀ file ∈ files, ∀ old,
      d.tree.item? (top ++ (Path.ofString file).steps) = some (.file old) →
        ∃ text, contents.lookup file = some text ∧ old = .text text)
    {marks : List (String × Mark) × Allowance} {after : Disk}
    (hrun : (writeFiles root policy contents none files).outcome d = (.ok marks, after)) :
    Adds (NewFile top contents files) d after ∧
      ∀ file ∈ files, HoldsFile after root contents file := by
  induction files generalizing d marks with
  | nil =>
      obtain ⟨-, rfl⟩ := Prod.mk.injEq .. ▸ hrun
      exact ⟨.refl _ d, by simp⟩
  | cons file rest ih =>
      obtain ⟨text, middle, marks', hlookup, hwrite, hrest⟩ := writeFiles_cons_eq_ok hpolicy hrun
      obtain ⟨hadds, hfile⟩ := writeFile_spec h (hinner file List.mem_cons_self) hlookup
          hwrite <| by
        intro old hold
        obtain ⟨text', hlookup', rfl⟩ := hsame file List.mem_cons_self old hold
        rw [Option.some.inj (hlookup'.symm.trans hlookup)]
      have hmiddle := h.grows hadds.grows
      have hmore := ih hmiddle (fun other hother => hinner other (List.mem_cons_of_mem _ hother))
        (fun first hfirst second hsecond =>
          hapart first (List.mem_cons_of_mem _ hfirst) second (List.mem_cons_of_mem _ hsecond))
            ?_ hrest
      · obtain ⟨haddsRest, hholds⟩ := hmore
        refine ⟨(hadds.mono fun _ _ => .mono (by simp)).trans
          (haddsRest.mono fun _ _ => .mono (List.subset_cons_self _ _)), ?_⟩
        exact List.forall_mem_cons.mpr ⟨hfile.grows hmiddle haddsRest.grows, hholds⟩
      · -- what the first file takes is its own place
        intro other hother old hold
        rcases hadds.item?_cases hold with hbefore |
          ⟨-, first, hfirst, text', hlookup', hplace, hitem⟩
        · exact hsame other (List.mem_cons_of_mem _ hother) old hbefore
        · obtain rfl := List.mem_singleton.mp hfirst
          have hsteps := List.append_cancel_left hplace
          obtain rfl := hapart other (List.mem_cons_of_mem _ hother) first List.mem_cons_self hsteps
          exact ⟨text', hlookup', Item.file.inj hitem⟩

/-! ## Carrying out a plan in a new directory -/

/-- No file stands below a place. -/
def Disk.IsFileless (disk : Disk) (place : List String) : Prop :=
  ∀ step more content, disk.tree.item? (place ++ step :: more) ≠ some (.file content)

/-- Where there are no files yet, a plan makes all it says, and nothing else. -/
theorem carryOut_of_isFileless (h : Rooted d root top) (hfileless : d.IsFileless top)
    {policy : Policy}
    (hpolicy : policy ≠ .skip) {entries : List PlanEntry} (hinner : IsInnerPlan entries)
    (hapart : ∀ file ∈ plannedFiles entries, ∀ other ∈ plannedFiles entries,
      (Path.ofString file).steps = (Path.ofString other).steps → file = other)
    {contents : Contents} {done : Ledger × Allowance} {after : Disk}
    (hrun : (carryOut entries root contents policy none).outcome d = (.ok done, after)) :
    Adds (NewPlanned top entries contents) d after ∧ HoldsPlan after root entries contents := by
  obtain ⟨made, middle, marks, hmake, hwrite, -⟩ := carryOut_eq_ok hrun
  have hmakes := makeMissing_spec h hinner.wanted hmake (by simp [Deliberate])
  have hmiddle := h.grows hmakes.adds.grows
  -- whatever is inside so far is a directory
  have hbelow : ∀ {steps item}, steps ≠ [] → middle.tree.item? (top ++ steps) = some item →
      item = .directory := by
    intro steps item hsteps hitem
    obtain ⟨step, more, rfl⟩ := List.exists_cons_of_ne_nil hsteps
    rcases hmakes.adds.item?_cases hitem with hold | ⟨-, rfl, -⟩
    · cases item with
      | directory => rfl
      | file content => exact absurd hold (hfileless step more content)
    · rfl
  have hdirectory : ∀ directory ∈ wantedDirectories entries,
      middle.isDirectory (root.extend directory) = .ok true := by
    intro directory hmem
    have hwanted := hinner.wanted directory hmem
    obtain ⟨hnull, item, hitem⟩ := exists?_true_iff.mp (hmakes.present rfl directory hmem)
    refine isDirectory_true_iff.mpr ⟨hnull, ?_⟩
    have hplace := hitem
    rw [Path.extend_eq_below hwanted] at hplace
    obtain rfl := hbelow hwanted.nonempty (hmiddle.item?_of_itemAt hwanted.forward hplace)
    exact hitem
  obtain ⟨hadds, hholds⟩ := writeFiles_fresh hpolicy hmiddle hinner.files hapart (by
    intro file hfile old hold
    have hitem := hbelow (hinner.files file hfile).nonempty hold
    simp at hitem) hwrite
  refine ⟨(hmakes.adds.mono fun _ _ => .inl).trans (hadds.mono fun _ _ => .inr),
    fun directory hmem => ⟨hinner.wanted directory hmem, ?_⟩, hholds⟩
  obtain ⟨hnull, hthere⟩ := isDirectory_true_iff.mp (hdirectory directory hmem)
  exact isDirectory_true_iff.mpr ⟨hnull, itemAt_of_grows hadds.grows hthere (by simp)⟩

/-! ## Creating a project -/

/-- Where the way to a root is missing from its start, no plan with directories is carried out. -/
theorem makeMissing_of_missing_start (hstart : d.tree.item? (d.start root) = none)
    {directories : List String} (hne : directories ≠ [])
    (hinner : ∀ directory ∈ directories, Path.IsInner directory) :
    ∃ failure, (makeMissing root directories).outcome d = (.error failure, d) := by
  obtain ⟨directory, rest, rfl⟩ := List.exists_cons_of_ne_nil hne
  have hfirst := hinner directory List.mem_cons_self
  have hbelow := Path.extend_eq_below hfirst root
  have hsteps : (root.below (Path.ofString directory).steps).steps ≠ [] := by
    simp [Path.below, hfirst.nonempty]
  rw [makeMissing, outcome_bind, outcome_inspect]
  cases hexists : d.exists? (root.extend directory) with
  | error failure => exact ⟨failure, rfl⟩
  | ok isThere =>
      cases isThere with
      | true =>
          -- nothing can be found below a start that is missing
          exfalso
          obtain ⟨-, item, hitem⟩ := exists?_true_iff.mp hexists
          obtain ⟨refusal, hlocate⟩ :=
            @exists_locate_eq_error d (root.below (Path.ofString directory).steps) hstart hsteps
          obtain ⟨place, hfollowed, -⟩ := exists_locate_of_itemAt (hbelow ▸ hitem)
          simp [hlocate] at hfollowed
      | false =>
          simp only [Bool.false_eq_true, if_false, outcome_bind]
          rw [hbelow]
          by_cases hnull : (root.below (Path.ofString directory).steps).hasNull = true
          · rw [outcome_ensureDirectory_of_hasNull hnull]
            exact ⟨_, rfl⟩
          · obtain ⟨refusal, hmake⟩ := @makeFrom_of_missing_start d root.anchor hstart _
              (List.reverse_ne_nil_iff.mpr hsteps)
            rw [outcome_ensureDirectory (by simpa using hnull), makeDirectory,
              show (root.below (Path.ofString directory).steps).anchor = root.anchor from rfl,
                hmake]
            exact ⟨_, rfl⟩

/-- A computation in two steps that came to a result came to one at each step. -/
theorem FileM.outcome_bind_eq_ok {α β : Type} {x : FileM α} {f : α → FileM β} {b : β} {after : Disk}
    (h : (x >>= f).outcome d = (.ok b, after)) :
    ∃ a middle, x.outcome d = (.ok a, middle) ∧ (f a).outcome middle = (.ok b, after) := by
  rw [outcome_bind] at h
  rcases hx : x.outcome d with ⟨failure | a, middle⟩
  · simp [hx] at h
  · rw [hx] at h
    exact ⟨a, middle, rfl, h⟩

/-- The steps of a creation that came to an end. -/
theorem create_eq_ok {settings : Settings} {today : Date} {m : Model} {allowance : Allowance}
    {creation : Creation} {after : Disk}
    (h : (create settings today m allowance).outcome d = (.ok creation, after)) :
    ∃ contents middle done,
      renderPlan settings.strictTemplates (m.layout today).plan = .ok contents ∧
      (ensureDirectory m.outputRoot).outcome d = (.ok (), middle) ∧
      (carryOut (m.layout today).plan m.outputRoot contents
        (if m.force then Policy.overwrite else .fail) allowance).outcome middle =
          (.ok done, after) ∧
      creation = ⟨m.outputRoot, done.1.directories, done.1.files, done.1.cancelled⟩ := by
  unfold create at h
  obtain ⟨obstacle?, same, hlook, h⟩ := outcome_bind_eq_ok h
  obtain rfl : d = same := by
    rw [outcome_inspect] at hlook
    exact congrArg Prod.snd hlook
  cases obstacle? with
  | some obstacle =>
      obtain ⟨_, _, hthrow, -⟩ := outcome_bind_eq_ok h
      simp at hthrow
  | none =>
      simp only at h
      cases hcontents : renderPlan settings.strictTemplates (m.layout today).plan with
      | error fault => simp [hcontents] at h
      | ok contents =>
          simp only [hcontents] at h
          obtain ⟨_, middle, hensure, h⟩ := outcome_bind_eq_ok h
          obtain ⟨done, last, hcarry, h⟩ := outcome_bind_eq_ok h
          obtain ⟨hcreation, rfl⟩ := Prod.mk.injEq .. ▸ h
          exact ⟨contents, middle, done, rfl, hensure, hcarry, (Except.ok.inj hcreation).symm⟩

section Plan

variable {l : Layout} (hname : Name.isPackageName l.model.name = true)

include hname

theorem eq_of_mem_plannedFiles_plan :
    ∀ file ∈ plannedFiles l.plan, ∀ other ∈ plannedFiles l.plan,
      (Path.ofString file).steps = (Path.ofString other).steps → file = other := by
  intro file hfile other hother hsteps
  rw [Layout.plannedFiles_plan hname] at hfile hother
  obtain ⟨entry, hentry, rfl⟩ := List.mem_map.mp hfile
  obtain ⟨entry', hentry', rfl⟩ := List.mem_map.mp hother
  exact Layout.path_of_steps_eq hname hentry hentry' hsteps

theorem wantedDirectories_plan_ne_nil : wantedDirectories l.plan ≠ [] := by
  have hworkflow : l.file ".github/workflows/ci.yml" "config/ci_workflow" ∈ l.files :=
    Layout.mem_files_iff.mpr (.inl ⟨[".github", "workflows", "ci.yml"], List.mem_append_left _ (by
      simp [Layout.spelledCommonFiles])⟩)
  have hmem : ".github/workflows/ci.yml" ∈ plannedFiles l.plan := by
    rw [Layout.plannedFiles_plan hname]
    exact List.mem_map_of_mem hworkflow
  exact List.ne_nil_of_mem (mem_wantedDirectories_of_parent hmem (by decide))

end Plan

/-- A plan with directories is not carried out where the way to its root is missing
from its start. -/
theorem exists_carryOut_eq_error (hstart : d.tree.item? (d.start root) = none)
    {entries : List PlanEntry} (hinner : IsInnerPlan entries) (hne : wantedDirectories entries ≠ [])
    (contents : Contents) (policy : Policy) :
    ∃ failure, (carryOut entries root contents policy none).outcome d = (.error failure, d) := by
  obtain ⟨failure, hmissing⟩ := makeMissing_of_missing_start hstart hne hinner.wanted
  refine ⟨failure, ?_⟩
  rw [outcome_carryOut, hmissing]

/-- Making a root where nothing was makes a directory there.  All that is inside so far are
directories that its path passes. -/
theorem ensureDirectory_spec (habsent : d.tree.item? (d.place root) = none)
    (hsteps : root.steps ≠ [])
    {after : Disk} (h : (ensureDirectory root).outcome d = (.ok (), after)) :
    Rooted after root (d.place root) ∧ after.working = d.working ∧
      ∀ step more item, after.tree.item? (d.place root ++ step :: more) = some item →
        item = .directory ∧ d.Passes root (d.place root ++ step :: more) := by
  obtain ⟨hadds, hdone⟩ := ensureDirectory_passes h
  obtain ⟨hnull, hitem⟩ := hdone rfl
  have hthere := hitem hsteps
  obtain ⟨top, hlocate, hdirectory⟩ := exists_locate_of_itemAt hthere
  have htop : top = d.place root := by
    rw [eq_place_of_locate hlocate, place_of_working hadds.working]
  subst htop
  refine ⟨⟨hnull, hlocate, hdirectory⟩, hadds.working, fun step more item hfound => ?_⟩
  rcases hadds.item?_cases hfound with hold | ⟨-, hnew, hpasses⟩
  · rw [FileTree.item?_of_item?_append (List.cons_ne_nil _ _) (by rw [hold]; simp)] at habsent
    simp at habsent
  · exact ⟨hnew, hpasses⟩

/-- A project that is created where nothing was holds all that its plan says.  Whatever else is
inside is a directory that its path passes. -/
theorem create_holds {settings : Settings} {today : Date} {m : Model}
    (hname : Name.isPackageName m.name = true)
    (habsent : d.tree.item? (d.place m.outputRoot) = none) {creation : Creation} {after : Disk}
    (h : (create settings today m none).outcome d = (.ok creation, after)) :
    ∃ contents, renderPlan settings.strictTemplates (m.layout today).plan = .ok contents ∧
      Rooted after m.outputRoot (d.place m.outputRoot) ∧
      HoldsPlan after m.outputRoot (m.layout today).plan contents ∧ after.working = d.working ∧
      ∀ step more item, after.tree.item? (d.place m.outputRoot ++ step :: more) = some item →
        d.Passes m.outputRoot (d.place m.outputRoot ++ step :: more) ∨
        NewPlanned (d.place m.outputRoot) (m.layout today).plan contents
          (d.place m.outputRoot ++ step :: more) item := by
  obtain ⟨contents, made, done, hcontents, hensure, hcarry, -⟩ := create_eq_ok h
  have hname : Name.isPackageName (m.layout today).model.name = true := hname
  have hinner := Layout.isInnerPlan_plan hname
  have hsteps : m.outputRoot.steps ≠ [] := by
    -- without steps nothing is made, and the plan has nowhere to go
    intro hnil
    have hstart : d.tree.item? (d.start m.outputRoot) = none := by
      rwa [place, hnil] at habsent
    have hsame : d.makeDirectory m.outputRoot = (d, none) := by
      rw [makeDirectory, hnil]
      rfl
    have hnull : m.outputRoot.hasNull = false := by
      rw [Path.hasNull, hnil]
      rfl
    rw [outcome_ensureDirectory hnull, hsame] at hensure
    obtain rfl : d = made := congrArg Prod.snd hensure
    obtain ⟨failure, hfailed⟩ := exists_carryOut_eq_error hstart hinner
      (wantedDirectories_plan_ne_nil hname) contents (if m.force then Policy.overwrite else .fail)
    rw [hfailed] at hcarry
    simp at hcarry
  obtain ⟨hrooted, hworking, hbelow⟩ := ensureDirectory_spec habsent hsteps hensure
  have hpolicy : (if m.force then Policy.overwrite else .fail) ≠ Policy.skip := by
    split <;> simp
  obtain ⟨hplanned, hholds⟩ := carryOut_of_isFileless hrooted
    (fun step more content hfile => by simpa using (hbelow step more _ hfile).1) hpolicy hinner
    (eq_of_mem_plannedFiles_plan hname) hcarry
  refine ⟨contents, hcontents, hrooted.grows hplanned.grows, hholds,
    hplanned.grows.working.trans hworking, fun step more item hfound => ?_⟩
  rcases hplanned.item?_cases hfound with hold | ⟨-, hnew⟩
  · exact .inl (hbelow step more item hold).2
  · exact .inr hnew

/-- What a creation has made where nothing was. -/
structure Fresh (disk : Disk) (root : Path) (top : List String) (entries : List PlanEntry)
    (contents : Contents) : Prop where
  rooted : Rooted disk root top
  holds : HoldsPlan disk root entries contents
  inside : ∀ {step more item}, disk.tree.item? (top ++ step :: more) = some item →
    NewPlanned top entries contents (top ++ step :: more) item

/-- If its path does not pass through anything inside, nothing else is in a new project. -/
theorem create_spec {settings : Settings} {today : Date} {m : Model}
    (hname : Name.isPackageName m.name = true)
    (habsent : d.tree.item? (d.place m.outputRoot) = none) (hdirect : IsDirect d m.outputRoot)
    {creation : Creation} {after : Disk}
    (h : (create settings today m none).outcome d = (.ok creation, after)) :
    ∃ contents, renderPlan settings.strictTemplates (m.layout today).plan = .ok contents ∧
      Fresh after m.outputRoot (d.place m.outputRoot) (m.layout today).plan contents ∧
      IsDirect after m.outputRoot := by
  obtain ⟨contents, hcontents, hrooted, hholds, hworking, hinside⟩ := create_holds hname habsent h
  refine ⟨contents, hcontents, ⟨hrooted, hholds, fun {step more item} hitem => ?_⟩,
    hdirect.of_working hworking⟩
  exact (hinside step more item hitem).resolve_left (hdirect step more)

end PackageScaffold
