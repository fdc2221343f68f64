import PackageScaffold.Proofs.Except
import PackageScaffold.Proofs.Files.Computation
import PackageScaffold.Review.Rule

/-!
# What single checks say

Every check looks at one path.  This file reads off each kind of check what was found there.

* `checkThere`: the check of whether there is anything at a path, which most rules make;
* `checkThere_eq_ok`, `checkDirectory_eq_ok`, `hasContent_eq_ok`: what was found if a check was
  made;
* `checkLayout_eq_ok`: the checks of the layout, one after another.
-/

namespace PackageScaffold

open Disk

variable {d d₁ : Disk} {s : Subject}

/-! ## Whether something is there -/

/-- The check that is passed where there is something. -/
def checkThere (disk : Disk) (path : Path) (success : String) (otherwise : Check) :
    Except Failure Check := do
  return .of (← disk.exists? path) success otherwise

theorem checkThere_eq_ok {path : Path} {success : String} {otherwise check : Check}
    (h : checkThere d path success otherwise = .ok check) :
    (d.exists? path = .ok true ∧ check = .passed success) ∨
      (d.exists? path = .ok false ∧ check = otherwise) := by
  obtain ⟨isThere, hexists, h⟩ := bind_eq_ok h
  cases isThere with
  | true => exact .inl ⟨hexists, (Except.ok.inj h).symm⟩
  | false => exact .inr ⟨hexists, (Except.ok.inj h).symm⟩

theorem exists_checkThere {path : Path} {isThere : Bool} (h : d.exists? path = .ok isThere)
    {success : String} {otherwise : Check} :
    ∃ check, checkThere d path success otherwise = .ok check :=
  ⟨_, by rw [checkThere, h]; rfl⟩

theorem checkThere_of_there {path : Path} (h : d.exists? path = .ok true) (success : String)
    (otherwise : Check) : checkThere d path success otherwise = .ok (.passed success) := by
  rw [checkThere, h]
  rfl

theorem checkThere_of_missing {path : Path} (h : d.exists? path = .ok false) (success : String)
    (otherwise : Check) : checkThere d path success otherwise = .ok otherwise := by
  rw [checkThere, h]
  rfl

/-- The check of a required file. -/
theorem checkRequiredFiles_eq (s : Subject) (disk : Disk) :
    checkRequiredFiles s disk = requiredFiles.mapM fun required =>
      checkThere disk (s.inside required.1) (required.1 ++ " present")
        (.failed .error ("Missing required file: " ++ required.1) required.1
          (required.2.toList.map fun template => s.layout.file required.1 template)) := rfl

theorem checkLint_eq (s : Subject) (disk : Disk) :
    checkLint s disk = do
      let check ← checkThere disk (s.inside analysisFile) (analysisFile ++ " present") <|
        .failed .warning ("Missing " ++ analysisFile) analysisFile
          [s.layout.file analysisFile "config/analysis_options"]
      return [check] := by
  unfold checkLint checkThere
  cases disk.exists? (s.inside analysisFile) <;> rfl

/-! ## What a directory holds -/

theorem look?_of_ok {path : Path} {found : Option FileTree} (h : d.look? path = .ok found) :
    d.exists? path = .ok found.isSome ∧
      ∀ tree, found = some tree → path.hasNull = false ∧ d.find path = .ok tree := by
  refine ⟨by simp [exists?, h, bind, Except.bind, pure, Except.pure], ?_⟩
  rintro tree rfl
  unfold look? at h
  split at h
  · simp at h
  · refine ⟨by simpa using ‹¬ path.hasNull = true›, ?_⟩
    split at h
    · rename_i tree' hfind
      obtain rfl : tree' = tree := by simpa using h
      exact hfind
    · simp at h
    · simp at h

theorem locate_of_find {path : Path} {tree : FileTree} (h : d.find path = .ok tree) :
    ∃ place, d.locate path = .ok place ∧ d.tree.get? place = some tree := by
  unfold find at h
  cases hlocate : d.locate path with
  | error refusal => simp [hlocate, bind, Except.bind] at h
  | ok place =>
      refine ⟨place, rfl, ?_⟩
      cases hget : d.tree.get? place with
      | none => simp [hlocate, hget, bind, Except.bind] at h
      | some found => simpa [hlocate, hget, bind, Except.bind, pure, Except.pure] using h

/-- What the check of a directory says, from what stands there. -/
theorem checkDirectory_eq (s : Subject) (disk : Disk) (name : String) (severity : Severity)
    (repair : List PlanEntry) :
    checkDirectory s disk name severity repair =
      if (s.inside name).hasNull then
        .ok (.failed severity ("Missing " ++ name ++ "/ directory") name repair)
      else
        match disk.itemAt (s.inside name) with
        | .ok .directory => .ok (.passed (name ++ "/ directory present"))
        | .ok (.file _) => .ok (.failed severity (name ++ " exists but is not a directory") name [])
        | .error .tooLong => .error (.unreachable (described (s.inside name) .tooLong))
        | .error _ => .ok (.failed severity ("Missing " ++ name ++ "/ directory") name repair) := by
  unfold checkDirectory look? itemAt
  by_cases hnull : (s.inside name).hasNull
  · simp [hnull, bind, Except.bind, pure, Except.pure]
  · simp only [hnull]
    cases disk.find (s.inside name) with
    | ok tree => cases tree <;> rfl
    | error refusal => cases refusal <;> rfl

/-- What the check of a directory found. -/
theorem checkDirectory_eq_ok {name : String} {severity : Severity} {repair : List PlanEntry}
    {check : Check} (h : checkDirectory s d name severity repair = .ok check) :
    ((s.inside name).hasNull = false ∧ d.itemAt (s.inside name) = .ok .directory ∧
        check = .passed (name ++ "/ directory present")) ∨
      ((s.inside name).hasNull = false ∧
        (∃ content, d.itemAt (s.inside name) = .ok (.file content)) ∧
        check = .failed severity (name ++ " exists but is not a directory") name []) ∨
      (d.exists? (s.inside name) = .ok false ∧
        check = .failed severity ("Missing " ++ name ++ "/ directory") name repair) := by
  rw [checkDirectory_eq] at h
  rw [exists?_eq]
  split at h
  · exact .inr (.inr ⟨if_pos ‹_›, (Except.ok.inj h).symm⟩)
  · rename_i hnull
    have hnull' : (s.inside name).hasNull = false := by simpa using hnull
    split at h
    · exact .inl ⟨hnull', ‹_›, (Except.ok.inj h).symm⟩
    · exact .inr (.inl ⟨hnull', ⟨_, ‹_›⟩, (Except.ok.inj h).symm⟩)
    · simp at h
    · rename_i refusal hrefusal hitem
      refine .inr (.inr ⟨?_, (Except.ok.inj h).symm⟩)
      rw [if_neg hnull, hitem]
      cases refusal with
      | tooLong => exact absurd rfl hrefusal
      | _ => rfl

/-- A directory is checked wherever something can be looked at. -/
theorem exists_checkDirectory {name : String} (severity : Severity) (repair : List PlanEntry)
    {isThere : Bool} (h : d.exists? (s.inside name) = .ok isThere) :
    ∃ check, checkDirectory s d name severity repair = .ok check := by
  unfold checkDirectory
  cases hlook : d.look? (s.inside name) with
  | error failure => simp [exists?, hlook, bind, Except.bind] at h
  | ok found => rcases found with _ | content | entries <;> exact ⟨_, rfl⟩

/-- What was found where content is looked for. -/
theorem hasContent_eq_ok {path : Path} {isThere : Bool} (h : hasContent d path = .ok isThere) :
    (d.exists? path = .ok false ∧ isThere = false) ∨
      (path.hasNull = false ∧ (∃ content, d.itemAt path = .ok (.file content)) ∧ isThere = true) ∨
      (path.hasNull = false ∧ ∃ place, d.locate path = .ok place ∧
        d.tree.item? place = some .directory ∧
        (isThere = false ↔ ∀ step, d.tree.item? (place ++ [step]) = none)) := by
  obtain ⟨found, hlook, h⟩ := bind_eq_ok h
  obtain ⟨hexists, hfound⟩ := look?_of_ok hlook
  cases found with
  | none => exact .inl ⟨hexists, (Except.ok.inj h).symm⟩
  | some tree =>
      obtain ⟨hnull, hfind⟩ := hfound tree rfl
      obtain ⟨place, hlocate, hget⟩ := locate_of_find hfind
      cases tree with
      | file content =>
          exact .inr (.inl ⟨hnull, ⟨content, itemAt_of_locate hlocate
            (FileTree.item?_eq_file_iff.mpr hget)⟩, (Except.ok.inj h).symm⟩)
      | directory entries =>
          refine .inr (.inr ⟨hnull, place, hlocate,
            FileTree.item?_eq_directory_iff.mpr ⟨entries, hget⟩, ?_⟩)
          obtain rfl : (!entries.isEmpty) = isThere := Except.ok.inj h
          rw [← FileTree.entries_eq_nil_iff hget]
          simp

/-- Content can be looked for wherever something can. -/
theorem hasContent_of_exists {path : Path} {isThere : Bool} (h : d.exists? path = .ok isThere) :
    ∃ isThere', hasContent d path = .ok isThere' := by
  unfold hasContent
  cases hlook : d.look? path with
  | error failure => simp [exists?, hlook, bind, Except.bind] at h
  | ok found =>
      rcases found with _ | content | entries <;> exact ⟨_, rfl⟩

theorem exists_of_hasContent {path : Path} {isThere : Bool} (h : hasContent d path = .ok isThere) :
    ∃ isThere', d.exists? path = .ok isThere' := by
  rcases hasContent_eq_ok h with ⟨hexists, -⟩ | ⟨hnull, ⟨content, hitem⟩, -⟩ |
    ⟨hnull, place, hlocate, hitem, -⟩
  · exact ⟨_, hexists⟩
  · exact ⟨_, exists?_true_iff.mpr ⟨hnull, _, hitem⟩⟩
  · exact ⟨_, exists?_true_iff.mpr ⟨hnull, _, itemAt_of_locate hlocate hitem⟩⟩

theorem hasContent_eq_error_iff {path : Path} {failure : Failure} :
    hasContent d path = .error failure ↔ d.exists? path = .error failure := by
  unfold hasContent exists?
  rcases d.look? path with failure' | _ | content |
    entries <;> simp [bind, Except.bind, pure, Except.pure]

/-- Where nothing is, there is no content. -/
theorem hasContent_of_missing {path : Path} (h : d.exists? path = .ok false) :
    hasContent d path = .ok false := by
  obtain ⟨isThere, hcontent⟩ := hasContent_of_exists h
  rw [hcontent]
  rcases hasContent_eq_ok hcontent with ⟨-, rfl⟩ | ⟨hnull, ⟨content, hitem⟩, -⟩ |
    ⟨hnull, place, hlocate, hitem, -⟩
  · rfl
  · simp [exists?_true_iff.mpr ⟨hnull, _, hitem⟩] at h
  · simp [exists?_true_iff.mpr ⟨hnull, _, itemAt_of_locate hlocate hitem⟩] at h

/-- Content stays. -/
theorem hasContent_of_grows {path : Path} (h : hasContent d path = .ok true) (hgrows : Grows d d₁) :
    hasContent d₁ path = .ok true := by
  obtain ⟨item, hnull, hitem, hchild⟩ : ∃ item, path.hasNull = false ∧ d.itemAt path = .ok item ∧
      (item = .directory → ∃ place step, d.locate path = .ok place ∧
        d.tree.item? (place ++ [step]) ≠ none) := by
    rcases hasContent_eq_ok h with ⟨-, hfalse⟩ | ⟨hnull, ⟨content, hitem⟩, -⟩ |
      ⟨hnull, place, hlocate, hitem, hempty⟩
    · simp at hfalse
    · exact ⟨_, hnull, hitem, by simp⟩
    · refine ⟨_, hnull, itemAt_of_locate hlocate hitem, fun _ => ⟨place, ?_⟩⟩
      simpa [hlocate] using hempty
  -- a file is content by itself and a directory by something in it, and both stay
  have hafter := itemAt_of_grows hgrows hitem (by simp)
  have hexists := exists?_true_iff.mpr ⟨hnull, item, hafter⟩
  obtain ⟨isThere, hlater⟩ := hasContent_of_exists hexists
  rw [hlater]
  rcases hasContent_eq_ok hlater with ⟨hfree, -⟩ | ⟨-, -, rfl⟩ |
    ⟨-, place, hlocate, hdirectory, hempty⟩
  · simp [hexists] at hfree
  · rfl
  · obtain rfl : item = .directory := by
      simpa [itemAt_of_locate hlocate hdirectory] using hafter.symm
    obtain ⟨place', step, hlocate', hstep⟩ := hchild rfl
    obtain ⟨child, hchild⟩ := Option.ne_none_iff_exists'.mp hstep
    obtain rfl : place' = place := by
      simpa [hlocate] using (locate_of_grows hgrows hlocate' (by simp)).symm
    cases isThere with
    | true => rfl
    | false =>
        have hnone := hempty.mp rfl step
        rw [hgrows.keeps hchild] at hnone
        simp at hnone

/-- The message for a native part that is there. -/
def partMessage (name : String) (platform : Platform) : String :=
  platform.text ++ " platform present (" ++ nativePath name platform ++ ")"

/-- The check of a native part that is missing. -/
def partMissed (l : Layout) (name : String) (platform : Platform) : Check :=
  .failed .warning
    ("Missing native code for declared platform '" ++ platform.text ++ "': " ++ nativePath name platform)
    (nativePath name platform) [l.pluginStub platform]

theorem checkNative_of_hasContent {name : String} {platform : Platform} {isThere : Bool}
    (h : hasContent d (s.inside (nativePath name platform)) = .ok isThere) :
    checkNative s d name platform =
      .ok (.of isThere (partMessage name platform) (partMissed s.layout name platform)) := by
  simp only [checkNative, h]
  rfl

/-- The native part of a plugin is a directory, except on the web. -/
theorem nativePath_of_ne_web (name : String) {platform : Platform} (h : platform ≠ .web) :
    nativePath name platform = platform.text := by
  cases platform with
  | web => exact absurd rfl h
  | android | ios | windows | linux | macos => rfl

/-- A native part is never a directory of another name. -/
theorem nativePath_ne {name directory : String}
    (hplatform : ∀ platform : Platform, platform.text ≠ directory)
    (hslash : '/' ∉ directory.toList) (platform : Platform) :
    nativePath name platform ≠ directory := by
  rintro rfl
  by_cases hweb : platform = .web
  · subst hweb
    simp [nativePath] at hslash
  · exact hplatform platform (nativePath_of_ne_web name hweb).symm

/-- Where content is missing, nothing stands below. -/
theorem item?_eq_none_of_hasContent {root : Path} {top : List String} (h : Rooted d root top)
    {name : String} (hfits : Fits name) (hnull : Path.isNullStep name = false)
    (hempty : hasContent d (root.below [name]) = .ok false) (step : String) (more : List String) :
    d.tree.item? (top ++ name :: step :: more) = none := by
  by_contra hitem
  have hnext : d.tree.item? (top ++ [name] ++ [step]) ≠ none :=
    FileTree.item?_next_ne_none more (by simpa using hitem)
  have hdirectory := FileTree.item?_of_item?_append (by simp) hnext
  have hnull : (root.below [name]).hasNull = false := by
    change (root.steps ++ [name]).any Path.isNullStep = false
    rw [List.any_append, show root.steps.any Path.isNullStep = false from h.noNull]
    simpa using hnull
  have hsize := size_le_of_exists? hnull (exists_of_hasContent hempty).choose_spec
  have hlocate : d.locate (root.below [name]) = .ok (top ++ [name]) := by
    rw [h.locate_below, if_neg (by omega)]
    exact follow_eq_ok (by simpa using hfits) (by simp [h.isDirectory])
  have hfound := itemAt_of_locate hlocate hdirectory
  rcases hasContent_eq_ok hempty with ⟨hfree, -⟩ | ⟨-, -, hfalse⟩ | ⟨-, place, hplace, -, hnone⟩
  · simp [exists?_true_iff.mpr ⟨hnull, _, hfound⟩] at hfree
  · simp at hfalse
  · obtain rfl : top ++ [name] = place := by simpa [hlocate] using hplace
    exact hnext (hnone.mp rfl step)

/-! ## The checks of the layout -/

/-- The plan for the tests; without a name there is none. -/
def testRepair (s : Subject) : List PlanEntry :=
  match s.name with
  | some _ => [directoryEntry "test", s.layout.test true]
  | none => []

/-- The checks of the parts of a plugin; other packages have none. -/
def checkParts (s : Subject) (disk : Disk) : Except Failure (List Check) :=
  match s.kind, s.name with
  | .plugin, some name => checkPlugin s disk name
  | _, _ => .ok []

theorem checkLayout_eq (s : Subject) (disk : Disk) :
    checkLayout s disk = do
      let lib ← checkDirectory s disk "lib" .error [directoryEntry "lib"]
      let library ← s.name.toList.mapM (checkLibrary s disk)
      let test ← checkDirectory s disk "test" .warning (testRepair s)
      let parts ← checkParts s disk
      return [lib] ++ library ++ [test] ++ parts := by
  unfold checkLayout testRepair checkParts
  cases s.kind <;> cases s.name <;> rfl

theorem checkLayout_eq_ok {checks : List Check} (h : checkLayout s d = .ok checks) :
    ∃ lib library test parts,
      checkDirectory s d "lib" .error [directoryEntry "lib"] = .ok lib ∧
      s.name.toList.mapM (checkLibrary s d) = .ok library ∧
      checkDirectory s d "test" .warning (testRepair s) = .ok test ∧
      checkParts s d = .ok parts ∧
      checks = [lib] ++ library ++ [test] ++ parts := by
  rw [checkLayout_eq] at h
  obtain ⟨lib, hlib, h⟩ := bind_eq_ok h
  obtain ⟨library, hlibrary, h⟩ := bind_eq_ok h
  obtain ⟨test, htest, h⟩ := bind_eq_ok h
  obtain ⟨parts, hparts, h⟩ := bind_eq_ok h
  exact ⟨lib, library, test, parts, hlib, hlibrary, htest, hparts, (Except.ok.inj h).symm⟩

theorem checkPlugin_eq_ok {name : String} {checks : List Check}
    (h : checkPlugin s d name = .ok checks) :
    ∃ interface channel natives,
      checkPart s d "platform interface" s.layout.platformInterface = .ok interface ∧
      checkPart s d "method channel implementation" s.layout.methodChannel = .ok channel ∧
      s.platforms.mapM (checkNative s d name) = .ok natives ∧
      checks = [interface, channel] ++ natives := by
  unfold checkPlugin at h
  obtain ⟨interface, hinterface, h⟩ := bind_eq_ok h
  obtain ⟨channel, hchannel, h⟩ := bind_eq_ok h
  obtain ⟨natives, hnatives, h⟩ := bind_eq_ok h
  exact ⟨interface, channel, natives, hinterface, hchannel, hnatives, (Except.ok.inj h).symm⟩

theorem checkPlugin_of_checkParts {name : String} {checks : List Check} (hkind : s.kind = .plugin)
    (hname : s.name = some name) (h : checkParts s d = .ok checks) :
    checkPlugin s d name = .ok checks := by
  simpa [checkParts, hkind, hname] using h

/-- For each platform of a plugin there is a check. -/
theorem exists_checkNative {name : String} (hkind : s.kind = .plugin) (hname : s.name = some name)
    {platform : Platform} (hplatform : platform ∈ s.platforms) {checks : List Check}
    (h : checkLayout s d = .ok checks) :
    ∃ check ∈ checks, checkNative s d name platform = .ok check := by
  obtain ⟨lib, library, test, parts, -, -, -, hparts, rfl⟩ := checkLayout_eq_ok h
  obtain ⟨interface, channel, natives, -, -, hnatives, rfl⟩ :=
    checkPlugin_eq_ok (checkPlugin_of_checkParts hkind hname hparts)
  obtain ⟨check, hmem, hcheck⟩ := exists_mem_of_mapM hnatives hplatform
  exact ⟨check, by simp [hmem], hcheck⟩

end PackageScaffold
