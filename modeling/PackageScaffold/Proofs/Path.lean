import PackageScaffold.Path

/-!
# Written paths

How the steps of a path are read from its text, and which written paths stay inside the directory
that they start from.

* `steps_append`: the steps of two texts with a slash between them;
* `ofString_text`: a path is read back from its text;
* `IsInner`: a written path that leads to something below the directory it starts from, and
  `isInner_of_count`, by which a path with at most one dot in it is one.
-/

namespace PackageScaffold

namespace Text

/-! ## Splitting -/

theorem splitOn_of_not_mem {separator : Char} {cs : List Char} (h : separator ∉ cs) :
    splitOn separator cs = [cs] := by
  induction cs with
  | nil => rfl
  | cons c cs ih =>
      simp only [List.mem_cons, not_or] at h
      have hc : (c == separator) = false := beq_false_of_ne (Ne.symm h.1)
      simp [splitOn, hc, ih h.2]

theorem splitOn_append_cons (separator : Char) (first second : List Char) :
    splitOn separator (first ++ separator :: second) =
      splitOn separator first ++ splitOn separator second := by
  induction first with
  | nil => simp [splitOn]
  | cons c first ih =>
      by_cases hc : c == separator
      · simp [splitOn, hc, ih]
      · cases hsplit : splitOn separator first with
        | nil => exact absurd hsplit (splitOn_ne_nil _ _)
        | cons piece pieces => simp [splitOn, hc, ih, hsplit]

theorem infix_joinWith (separator : Char) {pieces : List (List Char)} {piece : List Char}
    (h : piece ∈ pieces) : piece <:+: joinWith separator pieces := by
  induction pieces with
  | nil => simp at h
  | cons first pieces ih =>
      cases pieces with
      | nil =>
          obtain rfl := List.mem_singleton.mp h
          exact List.infix_refl _
      | cons second pieces =>
          rw [joinWith]
          · rcases List.mem_cons.mp h with rfl | h
            · exact ⟨[], _, rfl⟩
            · obtain ⟨front, back, heq⟩ := ih h
              exact ⟨first ++ separator :: front, back, by simp [← heq]⟩
          · simp

/-- Every piece of a text stands in it as a whole. -/
theorem infix_of_mem_splitOn {separator : Char} {cs piece : List Char}
    (h : piece ∈ splitOn separator cs) : piece <:+: cs := by
  have hinfix := infix_joinWith separator h
  rwa [joinWith_splitOn] at hinfix

/-- Every character of a text other than the separator is in one of its pieces. -/
theorem exists_mem_splitOn {separator c : Char} {cs : List Char} (hmem : c ∈ cs)
    (hc : c ≠ separator) : ∃ piece ∈ splitOn separator cs, c ∈ piece := by
  induction cs with
  | nil => simp at hmem
  | cons d cs ih =>
      by_cases hd : d == separator
      · have hmem' : c ∈ cs := by
          rcases List.mem_cons.mp hmem with rfl | hmem'
          · exact absurd (by simpa using hd) hc
          · exact hmem'
        obtain ⟨piece, hpiece, hin⟩ := ih hmem'
        exact ⟨piece, by simp [splitOn, hd, hpiece], hin⟩
      · cases hsplit : splitOn separator cs with
        | nil => exact absurd hsplit (splitOn_ne_nil _ _)
        | cons first pieces =>
            simp only [splitOn, hd, hsplit, Bool.false_eq_true, if_false]
            rcases List.mem_cons.mp hmem with rfl | hmem'
            · exact ⟨_, List.mem_cons_self, List.mem_cons_self⟩
            · obtain ⟨piece, hpiece, hin⟩ := ih hmem'
              rw [hsplit] at hpiece
              rcases List.mem_cons.mp hpiece with rfl | hpiece
              · exact ⟨_, List.mem_cons_self, List.mem_cons_of_mem _ hin⟩
              · exact ⟨piece, List.mem_cons_of_mem _ hpiece, hin⟩

theorem split_of_not_mem {separator : Char} {s : String} (h : separator ∉ s.toList) :
    split separator s = [s] := by
  rw [split, splitOn_of_not_mem h, List.map_singleton, String.ofList_toList]

section Joined

variable {separator : Char} {mark : String} (hmark : mark.toList = [separator])

include hmark

theorem split_append (first second : String) :
    split separator (first ++ mark ++ second) = split separator first ++
      split separator second := by
  have htext : (first ++ mark ++ second).toList = first.toList ++ separator :: second.toList := by
    simp [hmark]
  rw [split, htext, splitOn_append_cons, List.map_append]
  rfl

/-- Texts without a separator are read back from between the separators that join them. -/
theorem split_join {texts : List String} (hne : texts ≠ [])
    (h : ∀ text ∈ texts, separator ∉ text.toList) : split separator (join mark texts) = texts := by
  induction texts with
  | nil => exact absurd rfl hne
  | cons first texts ih =>
      obtain ⟨hfirst, hrest⟩ := List.forall_mem_cons.mp h
      cases texts with
      | nil => simpa [join] using split_of_not_mem hfirst
      | cons second texts =>
          have hjoin : join mark (first :: second :: texts) =
              first ++ mark ++ join mark (second :: texts) := by
            rw [join, String.intercalate_cons_of_ne_nil (by simp)]
            rfl
          rw [hjoin, split_append hmark, ih (by simp) hrest, split_of_not_mem hfirst]
          rfl

end Joined

end Text

namespace Path

open Text

/-! ## Steps -/

/-- A text that stands for one step of a path. -/
def IsStep (step : String) : Prop :=
  step ≠ "" ∧ step ≠ "." ∧ '/' ∉ step.toList

theorem isStep_of_mem_steps {s step : String} (h : step ∈ (ofString s).steps) : IsStep step := by
  simp only [ofString, split, List.mem_filter, List.mem_map, Bool.and_eq_true, bne_iff_ne] at h
  obtain ⟨⟨piece, hpiece, rfl⟩, hempty, hdot⟩ := h
  exact ⟨hempty, hdot, by simpa using not_mem_of_mem_splitOn hpiece⟩

theorem toList_slash : "/".toList = ['/'] := rfl

theorem steps_append (first second : String) :
    (ofString (first ++ "/" ++ second)).steps =
      (ofString first).steps ++ (ofString second).steps := by
  simp only [ofString, split_append toList_slash, List.filter_append]

theorem steps_of_isStep {step : String} (h : IsStep step) : (ofString step).steps = [step] := by
  simp [ofString, split_of_not_mem h.2.2, h.1, h.2.1]

/-- A path from the working directory is read back from its text. -/
theorem ofString_text {steps : List String} (h : ∀ step ∈ steps, IsStep step) :
    ofString (⟨.working, steps⟩ : Path).text = ⟨.working, steps⟩ := by
  cases steps with
  | nil => decide
  | cons first rest =>
      have htext : (⟨.working, first :: rest⟩ : Path).text = join "/" (first :: rest) := by
        simp [text, Anchor.text]
      -- the text begins with a character of the first step, which is no slash
      have hanchor : anchorOf (join "/" (first :: rest)).toList = .working := by
        obtain ⟨hne, -, hslash⟩ := h first List.mem_cons_self
        obtain ⟨c, cs, hcs⟩ : ∃ c cs, first.toList = c :: cs :=
          List.exists_cons_of_ne_nil (by simpa using hne)
        obtain ⟨more, hmore⟩ : ∃ more, (join "/" (first :: rest)).toList = c :: more := by
          cases rest with
          | nil => exact ⟨cs, by simpa [join] using hcs⟩
          | cons second rest =>
              rw [join, String.intercalate_cons_of_ne_nil (by simp)]
              simp [hcs]
        have hc : c ≠ '/' := by
          rintro rfl
          simp [hcs] at hslash
        rw [hmore]
        unfold anchorOf
        split <;> simp_all
      have hsteps : (split '/' (join "/" (first :: rest))).filter
          (fun step => step != "" && step != ".") = first :: rest := by
        rw [split_join toList_slash (by simp) fun step hstep => (h step hstep).2.2,
          List.filter_eq_self]
        intro step hstep
        obtain ⟨hempty, hdot, -⟩ := h step hstep
        simp [hempty, hdot]
      rw [htext, ofString, hanchor, hsteps]

/-! ## Inner paths -/

/-- A written path that leads to something below the directory it starts from. -/
structure IsInner (s : String) : Prop where
  anchor : (ofString s).anchor = .working
  nonempty : (ofString s).steps ≠ []
  forward : ".." ∉ (ofString s).steps

/-- A path of one step that does not lead back. -/
theorem IsStep.isInner {step : String} (h : IsStep step) (hback : step ≠ "..") : IsInner step where
  anchor := by
    have hslash := h.2.2
    change anchorOf step.toList = .working
    unfold anchorOf
    split <;> simp_all
  nonempty := by simp [steps_of_isStep h]
  forward := by simpa [steps_of_isStep h] using hback.symm

/-- A path with a character other than slashes and dots has steps. -/
theorem steps_ne_nil {s : String} (hletter : ∃ c ∈ s.toList, c ≠ '/' ∧ c ≠ '.') :
    (ofString s).steps ≠ [] := by
  obtain ⟨c, hmem, hslash, hdot⟩ := hletter
  obtain ⟨piece, hpiece, hin⟩ := exists_mem_splitOn hmem hslash
  refine List.ne_nil_of_mem (a := String.ofList piece) ?_
  simp only [ofString, split, List.mem_filter, List.mem_map, Bool.and_eq_true, bne_iff_ne]
  refine ⟨⟨piece, hpiece, rfl⟩, ?_, ?_⟩
  · intro heq
    have hnil := congrArg String.toList heq
    simp only [String.toList_ofList] at hnil
    simp [hnil] at hin
  · intro heq
    have hone := congrArg String.toList heq
    simp only [String.toList_ofList] at hone
    exact hdot (by simpa [hone] using hin)

/-- A path with at most one dot never leads back. -/
theorem isInner_of_count {s : String} (hhead : s.toList.head? ≠ some '/')
    (hdots : s.toList.count '.' ≤ 1) (hletter : ∃ c ∈ s.toList, c ≠ '/' ∧ c ≠ '.') :
    IsInner s where
  anchor := by
    change anchorOf s.toList = .working
    unfold anchorOf
    split <;> simp_all
  nonempty := steps_ne_nil hletter
  forward := by
    intro hmem
    simp only [ofString, split, List.mem_filter, List.mem_map] at hmem
    obtain ⟨⟨piece, hpiece, heq⟩, -⟩ := hmem
    have hcount := (infix_of_mem_splitOn hpiece).sublist.count_le '.'
    have htwo := congrArg String.toList heq
    simp only [String.toList_ofList] at htwo
    rw [htwo] at hcount
    have hlen : ("..".toList).count '.' = 2 := by decide
    omega

/-- What stands directly above an inner path is the directory it starts from, or inner itself. -/
theorem IsInner.parent {s : String} (h : IsInner s) :
    ((ofString s).parent.text = "." ∧ (ofString s).steps.dropLast = []) ∨
      (IsInner (ofString s).parent.text ∧
        (ofString (ofString s).parent.text).steps = (ofString s).steps.dropLast) := by
  have hparent : (ofString s).parent = ⟨.working, (ofString s).steps.dropLast⟩ := by
    rw [Path.parent, h.anchor]
  have hread : ofString (⟨.working, (ofString s).steps.dropLast⟩ : Path).text =
      ⟨.working, (ofString s).steps.dropLast⟩ :=
    ofString_text fun _ hstep => isStep_of_mem_steps ((List.dropLast_sublist _).mem hstep)
  rw [hparent]
  by_cases hnil : (ofString s).steps.dropLast = []
  · exact .inl ⟨by rw [hnil]; decide, hnil⟩
  · refine .inr ⟨⟨?_, ?_, ?_⟩, ?_⟩
    · rw [hread]
    · rw [hread]
      exact hnil
    · rw [hread]
      exact fun hmem => h.forward ((List.dropLast_sublist _).mem hmem)
    · rw [hread]

end Path

end PackageScaffold
