import PackageScaffold.Plan.Bindings
import PackageScaffold.Proofs.Project.Request

/-!
# The characters of names

A valid name has neither slashes nor dots in it, and neither has the class name made from it, so
that files can be named after a project.

* `isPackageName_chars`: the characters of a valid name;
* `not_mem_pascalCase`, `dot_not_mem_androidPackagePath`: characters that are not in what is made from
  a name;
* `name_of_ofRequest`: a model has the name that was asked for, and it is valid.
-/

namespace PackageScaffold

namespace Name

open Text

theorem isNameChar_ne {c : Char} (h : isNameChar c = true) :
    c ≠ '.' ∧ c ≠ '/' ∧ c.toNat < 128 := by
  refine ⟨?_, ?_, ?_⟩
  · rintro rfl
    revert h
    decide
  · rintro rfl
    revert h
    decide
  · simp only [isNameChar, isLowerLetter, Char.isDigit, Bool.or_eq_true, Bool.and_eq_true,
      decide_eq_true_eq, beq_iff_eq, ge_iff_le, UInt32.le_iff_toNat_le] at h
    rcases h with (⟨-, h⟩ | ⟨-, h⟩) | rfl
    · have hle : c.toNat ≤ 'z'.toNat := h
      have hz : 'z'.toNat = 122 := rfl
      omega
    · have hcode : c.toNat = c.val.toNat := rfl
      have hnine : '9'.val.toNat = 57 := rfl
      omega
    · decide

/-- A valid name consists of the characters of a name, and at most a line break. -/
theorem isPackageName_chars {s : String} (h : isPackageName s = true) :
    ∀ c ∈ s.toList, c ≠ '.' ∧ c ≠ '/' ∧ c.toNat < 128 := by
  simp only [isPackageName, Bool.and_eq_true] at h
  have hidentifier : ∀ c ∈ withoutLineBreak s.toList, isNameChar c = true := by
    intro c hc
    have hall := h.1.1
    cases hcs : withoutLineBreak s.toList with
    | nil => simp [hcs] at hc
    | cons first rest =>
        rw [hcs] at hall hc
        simp only [isIdentifier, Bool.and_eq_true, List.all_eq_true] at hall
        rcases List.mem_cons.mp hc with rfl | hc
        · simp [isNameChar, hall.1]
        · exact hall.2 c hc
  intro c hc
  -- the check leaves out one line break at the end
  by_cases hbreak : s.toList.getLast? = some '\n'
  · obtain ⟨front, hfront⟩ := List.getLast?_eq_some_iff.mp hbreak
    have hwithout : withoutLineBreak s.toList = front := by
      simp [withoutLineBreak, hfront]
    rw [hfront] at hc
    rcases List.mem_append.mp hc with hc | hc
    · exact isNameChar_ne (hidentifier c (hwithout ▸ hc))
    · obtain rfl := List.mem_singleton.mp hc
      decide
  · have hwithout : withoutLineBreak s.toList = s.toList := by
      simp [withoutLineBreak, hbreak]
    rw [hwithout] at hidentifier
    exact isNameChar_ne (hidentifier c hc)

theorem ne_empty_of_isPackageName {s : String} (h : isPackageName s = true) : s ≠ "" := by
  rintro rfl
  revert h
  decide

theorem ne_empty_of_isOrganization {s : String} (h : isOrganization s = true) : s ≠ "" := by
  rintro rfl
  revert h
  decide

/-! ## Class names -/

theorem mem_of_mem_wordsBy {isBreak : Char → Bool} {cs word : List Char} {c : Char}
    (hword : word ∈ wordsBy isBreak cs) (hc : c ∈ word) : c ∈ cs := by
  fun_induction wordsBy isBreak cs generalizing word with
  | case1 => simp at hword
  | case2 first rest hbreak ih => exact List.mem_cons_of_mem _ (ih hword hc)
  | case3 first hbreak =>
      obtain rfl := List.mem_singleton.mp hword
      exact hc
  | case4 first hbreak next rest hnext ih =>
      rcases List.mem_cons.mp hword with rfl | hword
      · exact List.mem_cons.mpr (.inl (by simpa using hc))
      · exact List.mem_cons_of_mem _ (ih hword hc)
  | case5 first hbreak next rest hnext hwords ih =>
      rw [hwords] at hword
      obtain rfl := List.mem_singleton.mp hword
      exact List.mem_cons.mpr (.inl (by simpa using hc))
  | case6 first hbreak next rest hnext word' words hwords ih =>
      rw [hwords] at ih hword
      rcases List.mem_cons.mp hword with rfl | hword
      · rcases List.mem_cons.mp hc with rfl | hc
        · exact List.mem_cons_self
        · exact List.mem_cons_of_mem _ (ih List.mem_cons_self hc)
      · exact List.mem_cons_of_mem _ (ih (List.mem_cons_of_mem _ hword) hc)

/-- What becomes an upper-case letter was a letter, and everything else stays as it is. -/
theorem toUpper_ne {c other : Char} (hlt : c.toNat < 128) (hother : other.isUpper = false)
    (h : c ≠ other) : c.toUpper ≠ other := by
  have hall : ∀ code < 128, (Char.ofNat code).toUpper = Char.ofNat code ∨
      (Char.ofNat code).toUpper.isUpper = true := by decide
  have hc := hall c.toNat hlt
  rw [Char.ofNat_toNat] at hc
  rcases hc with hsame | hupper
  · rwa [hsame]
  · rintro rfl
    simp [hother] at hupper

/-- Upper-case letters apart, all that is in a class name is in the name that it is made from. -/
theorem not_mem_pascalCase {s : String} {other : Char} (h : isPackageName s = true)
    (hother : other.isUpper = false) (hnot : other ∉ s.toList) :
    other ∉ (pascalCase s).toList := by
  intro hmem
  simp only [pascalCase, String.toList_ofList, List.mem_flatMap] at hmem
  obtain ⟨word, hword, hc⟩ := hmem
  have hchars : ∀ c ∈ word, c ≠ other ∧ c.toNat < 128 := fun c hc =>
    have hin := mem_of_mem_wordsBy hword hc
    ⟨fun heq => hnot (heq ▸ hin), (isPackageName_chars h c hin).2.2⟩
  cases word with
  | nil => simp [capitalize] at hc
  | cons first rest =>
      obtain ⟨hfirst, hrest⟩ := List.forall_mem_cons.mp hchars
      rcases List.mem_append.mp hc with hc | hc
      · rw [upperChar, if_pos hfirst.2] at hc
        exact toUpper_ne hfirst.2 hother hfirst.1 (List.mem_singleton.mp hc).symm
      · exact (hrest _ hc).1 rfl

end Name

namespace Model

theorem dot_not_mem_androidPackagePath (m : Model) : '.' ∉ m.androidPackagePath.toList := by
  simp only [androidPackagePath, String.toList_ofList, List.mem_map, not_exists, not_and]
  intro c _
  split
  · decide
  · rename_i hne
    simpa using hne

theorem validName_eq_ok {request : Request} {name : String} (h : request.validName = .ok name) :
    request.name = .text name ∧ Name.isPackageName name = true := by
  unfold Request.validName at h
  split at h
  · rename_i asked hasked
    split at h
    · obtain rfl : asked = name := by simpa using h
      exact ⟨hasked, ‹_›⟩
    · simp at h
  all_goals simp at h

/-- A model has the name that was asked for, and it is valid. -/
theorem name_of_ofRequest {settings : Settings} {request : Request} {m : Model}
    (h : ofRequest settings request = .ok m) :
    request.name = .text m.name ∧ Name.isPackageName m.name = true :=
  validName_eq_ok (ofRequest_eq_ok_iff.mp h).name

end Model

end PackageScaffold
