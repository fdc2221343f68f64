import PackageScaffold.Proofs.Review.Fix
import PackageScaffold.Proofs.Review.Rereading

/-!
# Paths without null characters

No file system takes a path with a null character.  The paths that repairs plan are made from names
and organizations, which have none in them.

* `Path.hasNull_extend`: a path has no null character if none was written;
* `Fix.null_not_mem`: no path of a repair has one.
-/

namespace PackageScaffold

open Text

/-! ## Names -/

namespace Name

theorem ne_null_of_isNameChar {c : Char} (h : isNameChar c = true) : c ≠ '\x00' := by
  rintro rfl
  revert h
  decide

theorem null_not_mem_of_isIdentifier {cs : List Char} (h : isIdentifier cs = true) :
    '\x00' ∉ cs := by
  cases cs with
  | nil => simp
  | cons first rest =>
      simp only [isIdentifier, Bool.and_eq_true, List.all_eq_true] at h
      have hfirst : isNameChar first = true := by simp [isNameChar, h.1]
      intro hmem
      rcases List.mem_cons.mp hmem with heq | hmem
      · exact ne_null_of_isNameChar hfirst heq.symm
      · exact ne_null_of_isNameChar (h.2 _ hmem) rfl

/-- A line break at the end of a text makes no difference. -/
theorem null_not_mem_of_withoutLineBreak {cs : List Char} (h : '\x00' ∉ withoutLineBreak cs) :
    '\x00' ∉ cs := by
  unfold withoutLineBreak at h
  split at h
  · rename_i hbreak
    obtain ⟨front, rfl⟩ := List.getLast?_eq_some_iff.mp (beq_iff_eq.mp hbreak)
    simpa using h
  · exact h

theorem null_not_mem_of_isPackageName {s : String} (h : isPackageName s = true) :
    '\x00' ∉ s.toList := by
  simp only [isPackageName, Bool.and_eq_true] at h
  exact null_not_mem_of_withoutLineBreak (null_not_mem_of_isIdentifier h.1.1)

theorem null_not_mem_of_isOrganization {s : String} (h : isOrganization s = true) :
    '\x00' ∉ s.toList := by
  simp only [isOrganization, Bool.and_eq_true, List.all_eq_true] at h
  refine null_not_mem_of_withoutLineBreak fun hmem => ?_
  obtain ⟨segment, hsegment, hin⟩ := exists_mem_splitOn hmem (show '\x00' ≠ '.' by decide)
  exact null_not_mem_of_isIdentifier (h.2 segment hsegment) hin

end Name

/-! ## Paths -/

namespace Path

theorem hasNull_ofString {s : String} (h : '\x00' ∉ s.toList) : (ofString s).hasNull = false := by
  rw [hasNull, List.any_eq_false]
  intro step hstep
  simp only [ofString, split, List.mem_filter, List.mem_map] at hstep
  obtain ⟨⟨piece, hpiece, rfl⟩, -⟩ := hstep
  have hnot : '\x00' ∉ piece := fun hmem => h ((infix_of_mem_splitOn hpiece).mem hmem)
  simpa [isNullStep] using hnot

theorem hasNull_extend {root : Path} (hroot : root.hasNull = false) {s : String}
    (h : '\x00' ∉ s.toList) :
    (root.extend s).hasNull = false := by
  have hinner := hasNull_ofString h
  change (append root (ofString s)).hasNull = false
  unfold append
  split
  · change (root.steps ++ (ofString s).steps).any isNullStep = false
    rw [List.any_append, show root.steps.any isNullStep = false from hroot,
      show (ofString s).steps.any isNullStep = false from hinner]
    rfl
  · exact hinner

end Path

theorem Layout.null_not_mem_pluginStubPath {m : Model} (h : m.IsValid) (platform : Platform) :
    '\x00' ∉ (pluginStubPath m platform).toList := by
  have hname := Name.null_not_mem_of_isPackageName h.name
  have horganization := Name.null_not_mem_of_isOrganization h.organization
  have hpascal : '\x00' ∉ m.pascalName.toList := Name.not_mem_pascalCase h.name (by decide) hname
  have hpackage : '\x00' ∉ m.androidPackagePath.toList := by
    have hplain : '\x00' ∉ m.androidPackage.toList := by
      simp [Model.androidPackage, hname, horganization]
    simp only [Model.androidPackagePath, String.toList_ofList, List.mem_map, not_exists, not_and]
    intro c hc
    split
    · decide
    · exact fun heq => hplain (heq ▸ hc)
  unfold pluginStubPath
  cases platform <;> simp [hname, hpascal, hpackage]

/-! ## Repairs -/

theorem Subject.isValid_of_ofDisk {settings : Settings} {today : Date} {strict : Bool} {root : Path}
    {d : Disk} {s : Subject} (h : ofDisk settings today strict root d = .ok s) :
    s.layout.model.IsValid := by
  obtain ⟨found, model, -, hmodel, -, -, -, hlayout⟩ := ofDisk_eq_ok h
  rw [hlayout]
  exact isValid_of_modelFor hmodel

theorem Fix.null_not_mem {s : Subject} {d : Disk} {subject : String} {entries : List PlanEntry}
    (h : Fix s d subject entries) (hvalid : s.layout.model.IsValid) :
    ∀ path ∈ plannedDirectories entries ++ plannedFiles entries, '\x00' ∉ path.toList := by
  have hname := Name.null_not_mem_of_isPackageName hvalid.name
  cases h with
  | document hdocument hmissing =>
      have hplain : '\x00' ∉ subject.toList := by
        simp only [documentFiles, List.mem_cons, Prod.mk.injEq, List.not_mem_nil, or_false]
          at hdocument
        rcases hdocument with ⟨rfl, -⟩ | ⟨rfl, -⟩ | ⟨rfl, -⟩ | ⟨rfl, -⟩ <;> decide
      simpa using hplain
  | sources hmissing => simp [directoryEntry_lib]
  | library hmissing => simp [Layout.library, Layout.libraryPath, hname]
  | tests hnamed hmissing => simp [directoryEntry_test, Layout.test, hname]
  | part hentry hmissing =>
      rcases hentry with rfl | rfl
      · simp [Layout.platformInterface, hname]
      · simp [Layout.methodChannel, hname]
  | native platform hmissing =>
      simpa [Layout.pluginStub] using Layout.null_not_mem_pluginStubPath hvalid platform

end PackageScaffold
