import PackageScaffold.Project.Name
import PackageScaffold.Proofs.Path

/-!
# The grammar of names

What a name looks like is said here without the checks: a segment is a lower-case ASCII letter with
letters, digits and underscores behind it; a package is named by one segment in which no two
underscores meet and none comes last; an organization is two or more segments with single dots
between them.

The checks say yes to exactly these and to one thing more: they do not look at a line break at the
very end.  For a package it also hides what it stands behind, so an underscore may come in front of
it.

* `IsSegment`, `IsPackage`, `IsDotted`: the grammar;
* `isIdentifier_iff`, `hasPair_iff`, `splits_iff_isDotted`: the parts of the checks, read as parts of it;
* `name_checks_accept_exactly`: what the checks accept.
-/

namespace PackageScaffold.Name

open Text

/-! ## The grammar -/

/-- The lower-case ASCII letters. -/
def IsLetter (c : Char) : Prop :=
  'a' ≤ c ∧ c ≤ 'z'

/-- What a name is made of: lower-case ASCII letters, digits and underscores. -/
def IsMark (c : Char) : Prop :=
  IsLetter c ∨ ('0' ≤ c ∧ c ≤ '9') ∨ c = '_'

/-- A letter, with letters, digits and underscores behind it. -/
structure IsSegment (cs : List Char) : Prop where
  first : ∃ c ∈ cs.head?, IsLetter c
  marks : ∀ c ∈ cs, IsMark c

/-- The name of a package: no two underscores meet, and none comes last. -/
structure IsPackage (cs : List Char) : Prop extends IsSegment cs where
  single : ¬ ['_', '_'] <:+: cs
  last : cs.getLast? ≠ some '_'

/-- Two or more segments with single dots between them. -/
inductive IsDotted : List Char → Prop
  | two {first second : List Char} (hfirst : IsSegment first) (hsecond : IsSegment second) :
      IsDotted (first ++ '.' :: second)
  | more {first rest : List Char} (hfirst : IsSegment first) (hrest : IsDotted rest) :
      IsDotted (first ++ '.' :: rest)

variable {cs : List Char}

/-! ## Segments -/

theorem isLowerLetter_iff {c : Char} : isLowerLetter c = true ↔ IsLetter c := by
  simp [isLowerLetter, IsLetter]

theorem isNameChar_iff {c : Char} : isNameChar c = true ↔ IsMark c := by
  simp [isNameChar, IsMark, isLowerLetter_iff, Char.isDigit, Char.le_def, or_assoc]

theorem isIdentifier_iff : isIdentifier cs = true ↔ IsSegment cs := by
  cases cs with
  | nil => exact ⟨by simp [isIdentifier], fun h => by simpa using h.first⟩
  | cons c cs =>
      simp only [isIdentifier, Bool.and_eq_true, List.all_eq_true, isLowerLetter_iff,
        isNameChar_iff]
      constructor
      · intro ⟨hfirst, hrest⟩
        exact ⟨⟨c, rfl, hfirst⟩, List.forall_mem_cons.mpr ⟨.inl hfirst, hrest⟩⟩
      · intro h
        obtain ⟨d, hd, hfirst⟩ := h.first
        obtain rfl := Option.some.inj hd
        exact ⟨hfirst, (List.forall_mem_cons.mp h.marks).2⟩

theorem IsSegment.not_mem (h : IsSegment cs) {c : Char} (hc : isNameChar c = false) : c ∉ cs := by
  intro hmem
  rw [isNameChar_iff.mpr (h.marks c hmem)] at hc
  exact Bool.noConfusion hc

theorem hasPair_iff (x : Char) (cs : List Char) : hasPair x cs = true ↔ [x, x] <:+: cs := by
  induction cs with
  | nil => simp [hasPair]
  | cons c cs ih =>
      rw [hasPair, Bool.or_eq_true, ih, List.infix_cons_iff]
      cases cs with
      | nil => simp
      | cons d cs => simp [@eq_comm _ x]

/-! ## Organizations -/

theorem IsDotted.not_mem (h : IsDotted cs) {c : Char} (hc : isNameChar c = false) (hdot : c ≠ '.') :
    c ∉ cs := by
  induction h with
  | two hfirst hsecond => simp [hfirst.not_mem hc, hsecond.not_mem hc, hdot]
  | more hfirst _ ih => simp [hfirst.not_mem hc, ih, hdot]

theorem splitOn_of_isSegment {first : List Char} (h : IsSegment first) (rest : List Char) :
    splitOn '.' (first ++ '.' :: rest) = first :: splitOn '.' rest := by
  rw [splitOn_append_cons, splitOn_of_not_mem (h.not_mem (by decide)), List.singleton_append]

/-- Segments are put together with dots between them. -/
theorem isDotted_joinWith {pieces : List (List Char)} (hlength : 2 ≤ pieces.length)
    (h : ∀ piece ∈ pieces, IsSegment piece) : IsDotted (joinWith '.' pieces) := by
  induction pieces with
  | nil => simp at hlength
  | cons first pieces ih =>
      obtain ⟨hfirst, hrest⟩ := List.forall_mem_cons.mp h
      match pieces, hlength with
      | [second], _ => exact .two hfirst (by simpa [joinWith] using hrest)
      | second :: third :: more, _ => exact .more hfirst (ih (by simp) hrest)

theorem splits_iff_isDotted :
    (2 ≤ (splitOn '.' cs).length ∧ ∀ piece ∈ splitOn '.' cs, IsSegment piece) ↔ IsDotted cs := by
  constructor
  · intro ⟨hlength, hpieces⟩
    have hdotted := isDotted_joinWith hlength hpieces
    rwa [joinWith_splitOn] at hdotted
  · intro h
    induction h with
    | two hfirst hsecond =>
        rw [splitOn_of_isSegment hfirst, splitOn_of_not_mem (hsecond.not_mem (by decide))]
        simp [hfirst, hsecond]
    | more hfirst _ ih =>
        rw [splitOn_of_isSegment hfirst]
        exact ⟨by simp only [List.length_cons]; omega, List.forall_mem_cons.mpr ⟨hfirst, ih.2⟩⟩

/-! ## The checks -/

/-- A line break at the end is the only thing that is left out of sight. -/
theorem withoutLineBreak_cases (cs : List Char) :
    (∃ front, cs = front ++ ['\n'] ∧ withoutLineBreak cs = front) ∨
      (cs.getLast? ≠ some '\n' ∧ withoutLineBreak cs = cs) := by
  by_cases hbreak : cs.getLast? = some '\n'
  · obtain ⟨front, rfl⟩ := List.getLast?_eq_some_iff.mp hbreak
    exact .inl ⟨front, rfl, by simp [withoutLineBreak]⟩
  · exact .inr ⟨hbreak, by simp [withoutLineBreak, hbreak]⟩

theorem pair_infix_concat {x c : Char} (h : c ≠ x) : [x, x] <:+: cs ++ [c] ↔ [x, x] <:+: cs := by
  rw [List.infix_concat_iff, or_iff_right]
  intro hsuffix
  have hlast := hsuffix.getLast (by simp)
  simp at hlast
  exact h hlast.symm

/-- A package may be called by every name of the grammar, and an organization by every one of its
own; and each check lets through a line break at the end, the first one also behind an
underscore. -/
theorem name_checks_accept_exactly (s : String) :
    (isPackageName s = true ↔ IsPackage s.toList ∨
      ∃ front, s.toList = front ++ ['\n'] ∧ IsSegment front ∧ ¬ ['_', '_'] <:+: front) ∧
    (isOrganization s = true ↔ IsDotted s.toList ∨
      ∃ front, s.toList = front ++ ['\n'] ∧ IsDotted front) := by
  have hbreak : isNameChar '\n' = false := by decide
  have hpackage : isPackageName s = true ↔ IsSegment (withoutLineBreak s.toList) ∧
      s.toList.getLast? ≠ some '_' ∧ ¬ ['_', '_'] <:+: s.toList := by
    rw [isPackageName, Bool.and_eq_true, Bool.and_eq_true, and_assoc, isIdentifier_iff, bne_iff_ne,
      Bool.not_eq_true', ← Bool.not_eq_true, hasPair_iff]
  have horganization : isOrganization s = true ↔ IsDotted (withoutLineBreak s.toList) := by
    rw [isOrganization, Bool.and_eq_true, decide_eq_true_eq, List.all_eq_true,
      ← splits_iff_isDotted]
    simp only [isIdentifier_iff]
  rw [hpackage, horganization]
  rcases withoutLineBreak_cases s.toList with ⟨front, hs, hfront⟩ | ⟨hlast, hsame⟩
  · -- nothing in the grammar ends in a line break
    have hin : '\n' ∈ front ++ ['\n'] := by simp
    rw [hfront, hs]
    constructor
    · have hnot : ¬ IsPackage (front ++ ['\n']) := fun h => h.not_mem hbreak hin
      simp [hnot, pair_infix_concat]
    · have hnot : ¬ IsDotted (front ++ ['\n']) := fun h => h.not_mem hbreak (by decide) hin
      simp [hnot]
  · have hno : ∀ front, s.toList ≠ front ++ ['\n'] := by
      rintro front hs
      simp [hs] at hlast
    rw [hsame]
    constructor
    · simp only [hno, false_and, exists_false, or_false]
      exact ⟨fun ⟨hsegment, hlast, hsingle⟩ => ⟨hsegment, hsingle, hlast⟩,
        fun h => ⟨h.toIsSegment, h.last, h.single⟩⟩
    · simp [hno]

/-- Both checks let a line break through, behind which the grammar has nothing. -/
theorem name_checks_accept_break :
    isPackageName "pkg_\n" = true ∧ ¬ IsPackage "pkg_\n".toList ∧
      isOrganization "com.example\n" = true ∧ ¬ IsDotted "com.example\n".toList := by
  have hbreak : isNameChar '\n' = false := by decide
  refine ⟨(name_checks_accept_exactly _).1.mpr (.inr ⟨"pkg_".toList, by decide, ?_, by decide⟩),
    fun h => h.not_mem hbreak (by decide),
    (name_checks_accept_exactly _).2.mpr (.inr ⟨"com.example".toList, by decide, ?_⟩),
    fun h => h.not_mem hbreak (by decide) (by decide)⟩
  · exact isIdentifier_iff.mp (by decide)
  · exact splits_iff_isDotted.mp ⟨by decide, fun piece hpiece => isIdentifier_iff.mp <|
      List.all_eq_true.mp (show (splitOn '.' "com.example".toList).all isIdentifier =
        true by decide) piece
        hpiece⟩

end PackageScaffold.Name
