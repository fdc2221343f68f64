import PackageScaffold.Proofs.Plan.CarryOut
import PackageScaffold.Review

/-!
# Repairs in turn

A review carries out its repairs one after another, each on the disk that those before it left.  A
repair that fails on purpose is noted down and the next one follows; any other failure ends the
review.

* `repairResults`: what the repairs come to, one result for each, and `errors_of_repairAll`, which
  finds the failed ones in the log;
* `repairAll_spec`: a run of repairs adds what their plans say, and each of them was carried out
  somewhere on the way;
* `repairAll_again`: repairs that have nothing left to do leave the disk as it is.
-/

namespace PackageScaffold

open Disk FileM

variable {settings : Settings} {d : Disk} {root : Path} {top : List String}
  {entries : List PlanEntry}

/-! ## One repair -/

/-- What the plan of a repair may add. -/
def NewMended (settings : Settings) (top : List String) (entries : List PlanEntry)
    (place : List String) (item : Item) : Prop :=
  ∃ contents, renderPlan settings.strictTemplates entries = .ok contents ∧
    NewPlanned top entries contents place item

/-- What one repair comes to. -/
structure Repaired (settings : Settings) (root : Path) (top : List String)
    (entries : List PlanEntry) (before after : Disk) (result : Except Failure (List String)) :
    Prop where
  adds : Adds (NewMended settings top entries) before after
  present : result.isOk = true → ∀ path ∈ plannedDirectories entries ++ plannedFiles entries,
    after.exists? (root.extend path) = .ok true
  reached : (renderPlan settings.strictTemplates entries).isOk = true →
    (∃ directory ∈ wantedDirectories entries, Blocked after (root.extend directory)) ∨
      ∀ file, (plannedFiles entries).head? = some file → HasParent top after file ∧
        ∃ isThere, after.exists? (root.extend file) = .ok isThere
  again : ∀ later, Grows after later →
    (∀ file ∈ (plannedFiles entries).dropLast, later.exists? (root.extend file) = .ok true →
      after.exists? (root.extend file) = .ok true) →
    ∃ result', (repair settings root entries).outcome later = (result', later) ∧
      ∀ written, result' = .ok written → written = []

theorem outcome_repair (settings : Settings) (root : Path) (entries : List PlanEntry) (d : Disk) :
    (repair settings root entries).outcome d =
      match renderPlan settings.strictTemplates entries with
      | .error fault => (.error (.template fault), d)
      | .ok contents =>
        (((carryOut entries root contents .skip none).outcome d).1.map fun done => done.1.written,
          ((carryOut entries root contents .skip none).outcome d).2) := by
  unfold repair
  cases renderPlan settings.strictTemplates entries with
  | error fault => rfl
  | ok contents =>
      simp only [outcome_bind]
      rcases (carryOut entries root contents .skip none).outcome d with ⟨_ | _, _⟩ <;> rfl

/-- A repair fails before it touches the disk, or its plan is carried out. -/
theorem repair_cases {result : Except Failure (List String)} {after : Disk}
    (hrun : (repair settings root entries).outcome d = (result, after)) :
    (∃ fault, renderPlan settings.strictTemplates entries = .error fault ∧
      result = .error (.template fault) ∧ after = d) ∨
    ∃ contents done?, renderPlan settings.strictTemplates entries = .ok contents ∧
      (carryOut entries root contents .skip none).outcome d = (done?, after) ∧
      result = done?.map fun done => done.1.written := by
  rw [outcome_repair] at hrun
  cases hcontents : renderPlan settings.strictTemplates entries with
  | error fault =>
      simp only [hcontents] at hrun
      obtain ⟨rfl, rfl⟩ := Prod.mk.injEq .. ▸ hrun
      exact .inl ⟨fault, rfl, rfl, rfl⟩
  | ok contents =>
      simp only [hcontents] at hrun
      obtain ⟨hresult, hafter⟩ := Prod.mk.injEq .. ▸ hrun
      exact .inr ⟨contents, _, rfl, Prod.ext rfl hafter, hresult.symm⟩

theorem repair_spec (h : Rooted d root top) (hinner : IsInnerPlan entries)
    {result : Except Failure (List String)} {after : Disk}
    (hrun : (repair settings root entries).outcome d = (result, after))
    (hdeliberate : Deliberate result) : Repaired settings root top entries d after result := by
  rcases repair_cases hrun with
    ⟨fault, hcontents, rfl, rfl⟩ | ⟨contents, done?, hcontents, hcarry, rfl⟩
  · refine ⟨.refl _ _, by simp [Except.isOk, Except.toBool],
      by simp [hcontents, Except.isOk, Except.toBool], fun later _ _ => ?_⟩
    rw [outcome_repair, hcontents]
    exact ⟨_, rfl, by simp⟩
  · have hspec := carryOut_spec h hinner hcarry hdeliberate.of_map
    refine ⟨hspec.adds.mono fun _ _ hnew => ⟨contents, hcontents, hnew⟩,
      fun hok => hspec.present (isOk_map done? _ ▸ hok), fun _ => hspec.reached,
      fun later hgrows hdropLast => ?_⟩
    obtain ⟨result', hagain, hwritten⟩ := hspec.again later hgrows hdropLast
    rw [outcome_repair, hcontents]
    simp only [hagain]
    refine ⟨_, rfl, fun written hok => ?_⟩
    obtain ⟨done, rfl, rfl⟩ := map_eq_ok hok
    exact hwritten _ _ rfl

theorem outcome_repairOne (settings : Settings) (root : Path) (log : RepairLog) (subject : String)
    (entries : List PlanEntry) (d : Disk) :
    (repairOne settings root log subject entries).outcome d =
      match (repair settings root entries).outcome d with
      | (.ok paths, after) => (.ok (log.addWritten paths), after)
      | (.error failure, after) =>
        if failure.isExpected then
          (.ok { log with errors := log.errors ++ [subject ++ ": " ++ failure.message] }, after)
        else (.error failure, after) := by
  unfold repairOne
  rw [outcome_tryCatch, outcome_bind]
  rcases (repair settings root entries).outcome d with ⟨failure | paths, after⟩
  · simp only
    split <;> rfl
  · rfl

/-! ## Repairs in turn -/

/-- What repairs come to in turn, one result for each. -/
def repairResults (settings : Settings) (root : Path) :
    Disk → List (String × List PlanEntry) → List (Except Failure (List String))
  | _, [] => []
  | disk, (_, entries) :: rest =>
    ((repair settings root entries).outcome disk).1 ::
      repairResults settings root ((repair settings root entries).outcome disk).2 rest

theorem length_repairResults (settings : Settings) (root : Path) (d : Disk)
    (repairs : List (String × List PlanEntry)) :
    (repairResults settings root d repairs).length = repairs.length := by
  induction repairs generalizing d with
  | nil => rfl
  | cons repair rest ih => simp [repairResults, ih]

/-- What is noted down of a repair that came to a result. -/
def notedError? (subject : String) : Except Failure (List String) → Option String
  | .ok _ => none
  | .error failure => some (subject ++ ": " ++ failure.message)

/-- The log with what one more repair came to. -/
def RepairLog.note (log : RepairLog) (subject : String) : Except Failure (List String) → RepairLog
  | .ok paths => log.addWritten paths
  | .error failure => { log with errors := log.errors ++ [subject ++ ": " ++ failure.message] }

theorem RepairLog.errors_note (log : RepairLog) (subject : String)
    (result : Except Failure (List String)) :
    (log.note subject result).errors = log.errors ++ (notedError? subject result).toList := by
  cases result with
  | ok paths => exact (List.append_nil _).symm
  | error failure => rfl

/-- A repair that wrote nothing adds nothing to what was written. -/
theorem RepairLog.written_note {result : Except Failure (List String)}
    (h : ∀ paths, result = .ok paths → paths = []) (log : RepairLog) (subject : String) :
    (log.note subject result).written = log.written := by
  cases result with
  | ok paths =>
      obtain rfl := h paths rfl
      rfl
  | error failure => rfl

/-- A run of repairs that comes to an end goes on after its first one. -/
theorem repairAll_cons {log log' : RepairLog} {subject : String}
    {rest : List (String × List PlanEntry)}
    {after : Disk}
    (h : (repairAll settings root log ((subject, entries) :: rest)).outcome d = (.ok log', after)) :
    ∃ result middle, (repair settings root entries).outcome d = (result, middle) ∧
      Deliberate result ∧
      (repairAll settings root (log.note subject result) rest).outcome middle =
        (.ok log', after) := by
  rw [repairAll, outcome_bind, outcome_repairOne] at h
  rcases hrepair : (repair settings root entries).outcome d with ⟨failure | paths, middle⟩
  · rw [hrepair] at h
    by_cases hexpected : failure.isExpected
    · simp only [if_pos hexpected] at h
      refine ⟨_, _, rfl, ?_, h⟩
      rintro failure' hfailure
      obtain rfl := Except.error.inj hfailure
      exact hexpected
    · simp [if_neg hexpected] at h
  · rw [hrepair] at h
    exact ⟨_, _, rfl, by simp [Deliberate], h⟩

/-- The errors in the log of a run are those that its repairs came to. -/
theorem errors_of_repairAll {repairs : List (String × List PlanEntry)} {log log' : RepairLog}
    {after : Disk} (h : (repairAll settings root log repairs).outcome d = (.ok log', after)) :
    log'.errors = log.errors ++ (repairs.zip (repairResults settings root d repairs)).filterMap
      fun pair => notedError? pair.1.1 pair.2 := by
  induction repairs generalizing d log with
  | nil =>
      obtain ⟨hlog, -⟩ := Prod.mk.injEq .. ▸ h
      obtain rfl := Except.ok.inj hlog
      simp
  | cons repair rest ih =>
      obtain ⟨subject, entries⟩ := repair
      obtain ⟨result, middle, hrepair, -, hmore⟩ := repairAll_cons h
      rw [ih hmore, RepairLog.errors_note, repairResults, hrepair, List.zip_cons_cons,
        List.filterMap_cons]
      cases hnoted : notedError? subject result <;> simp

/-- A run of repairs adds what their plans say, and each repair was carried out on the way. -/
theorem repairAll_spec (h : Rooted d root top) {repairs : List (String × List PlanEntry)}
    (hinner : ∀ repair ∈ repairs, IsInnerPlan repair.2) {log log' : RepairLog} {after : Disk}
    (hrun : (repairAll settings root log repairs).outcome d = (.ok log', after)) :
    Adds (fun place item => ∃ repair ∈ repairs, NewMended settings top repair.2 place item)
      d after ∧ ∀ pair ∈ repairs.zip (repairResults settings root d repairs), ∃ before last,
        Grows d before ∧ Repaired settings root top pair.1.2 before last pair.2 ∧
          Grows last after := by
  induction repairs generalizing d log with
  | nil =>
      obtain ⟨-, rfl⟩ := Prod.mk.injEq .. ▸ hrun
      exact ⟨.refl _ _, by simp⟩
  | cons repair rest ih =>
      obtain ⟨subject, entries⟩ := repair
      obtain ⟨hfirst, hrest⟩ := List.forall_mem_cons.mp hinner
      obtain ⟨result, middle, hrepair, hdeliberate, hmore⟩ := repairAll_cons hrun
      have hspec := repair_spec h hfirst hrepair hdeliberate
      obtain ⟨hadds, hpairs⟩ := ih (h.grows hspec.adds.grows) hrest hmore
      refine ⟨?_, ?_⟩
      · refine (hspec.adds.mono fun place item hnew => ?_).trans
          (hadds.mono fun place item hnew => ?_)
        · exact ⟨_, List.mem_cons_self, hnew⟩
        · obtain ⟨repair, hmem, hnew⟩ := hnew
          exact ⟨repair, List.mem_cons_of_mem _ hmem, hnew⟩
      · rw [repairResults, hrepair, List.zip_cons_cons]
        refine List.forall_mem_cons.mpr ⟨⟨d, middle, .refl _ d, hspec, hadds.grows⟩,
          fun pair hmem => ?_⟩
        obtain ⟨before, last, hbefore, hrepaired, hlast⟩ := hpairs pair hmem
        exact ⟨before, last, hspec.adds.grows.trans hbefore, hrepaired, hlast⟩

/-- Repairs that have nothing left to do leave the disk as it is, and write nothing. -/
theorem repairAll_again {repairs : List (String × List PlanEntry)}
    (h : ∀ pair ∈ repairs, ∃ result, (repair settings root pair.2).outcome d = (result, d) ∧
      ∀ written, result = .ok written → written = []) {log log' : RepairLog} {after : Disk}
    (hrun : (repairAll settings root log repairs).outcome d = (.ok log', after)) :
    after = d ∧ log'.written = log.written := by
  induction repairs generalizing log with
  | nil =>
      obtain ⟨hlog, rfl⟩ := Prod.mk.injEq .. ▸ hrun
      obtain rfl := Except.ok.inj hlog
      exact ⟨rfl, rfl⟩
  | cons pair rest ih =>
      obtain ⟨subject, entries⟩ := pair
      obtain ⟨⟨result, hsettled, hnothing⟩, hrest⟩ := List.forall_mem_cons.mp h
      obtain ⟨result', middle, hrepair, -, hmore⟩ := repairAll_cons hrun
      obtain ⟨rfl, rfl⟩ := Prod.mk.injEq .. ▸ hsettled.symm.trans hrepair
      obtain ⟨rfl, hwritten⟩ := ih hrest hmore
      exact ⟨rfl, hwritten.trans (RepairLog.written_note hnothing _ _)⟩

end PackageScaffold
