import PackageScaffold.Proofs.Metadata.Address
import PackageScaffold.Proofs.Project.Grammar

/-!
# Class names

The class of a project is named after it: the words between the underscores are put together, each
with a capital in front.  A word need not begin with a letter, so there can be fewer capitals than
words, but the first word always does.  The capitals are all that is new: in lower case the name of
the class is the name of the project without its underscores.

* `flatten_wordsBy`: the words of a text are all of it but what stands between them;
* `lower_of_ascii`, `map_toLower_capitalize`: lower-casing takes the capitals back;
* `classNames_wellFormed`: the names of classes and variables.
-/

namespace PackageScaffold

namespace Text

/-! ## Words -/

/-- Nothing is lost but what stands between the words. -/
theorem flatten_wordsBy (isBreak : Char → Bool) (cs : List Char) :
    (wordsBy isBreak cs).flatten = cs.filter fun c => !isBreak c := by
  fun_induction wordsBy isBreak cs with
  | case1 => rfl
  | case2 first rest hbreak ih => simp [hbreak, ih]
  | case3 first hbreak => simp [hbreak]
  | case4 first hbreak next rest hnext ih => simp [hbreak, ih]
  | case5 first hbreak next rest hnext hwords ih =>
      rw [List.filter_cons_of_pos (by simpa using hbreak), ← ih, hwords]
      rfl
  | case6 first hbreak next rest hnext word words hwords ih =>
      rw [List.filter_cons_of_pos (by simpa using hbreak), ← ih, hwords]
      rfl

/-! ## Lower case -/

theorem lowerAfter_of_ascii {cs : List Char} (h : ∀ c ∈ cs, c.toNat < 128) (before : List Char) :
    lowerAfter before cs = cs.map Char.toLower := by
  induction cs generalizing before with
  | nil => rfl
  | cons c cs ih =>
      obtain ⟨hc, hcs⟩ := List.forall_mem_cons.mp h
      have hsigma : (c == 'Σ') = false := by
        rw [beq_eq_false_iff_ne]
        rintro rfl
        exact absurd hc (by decide)
      rw [lowerAfter, hsigma, ih hcs]
      simp [lowerChar, hc]

/-- ASCII letters become small one by one, whatever stands beside them. -/
theorem lower_of_ascii {s : String} (h : ∀ c ∈ s.toList, c.toNat < 128) :
    (lower s).toList = s.toList.map Char.toLower := by
  rw [lower, String.toList_ofList, lowerAfter_of_ascii h]

end Text

namespace Name

open Text Yaml

/-! ## The words of a name -/

/-- What the words of a name are made of: lower-case ASCII letters and digits. -/
def isWordChar (c : Char) : Bool :=
  isLowerLetter c || c.isDigit

theorem isWordChar_ascii {c : Char} (h : isWordChar c = true) : c.toNat < 128 := by
  have hname : isNameChar c = true := by
    rw [isWordChar] at h
    rw [isNameChar, h, Bool.true_or]
  exact (isNameChar_ne hname).2.2

/-- Underscores alone stand between the words. -/
theorem isWordBreak_of_isNameChar {c : Char} (h : isNameChar c = true) :
    (!isWordBreak c) = (c != '_') ∧ (isWordBreak c = false → isWordChar c = true) :=
  char_of_forall (P := fun c => isNameChar c = true →
      (!isWordBreak c) = (c != '_') ∧ (isWordBreak c = false → isWordChar c = true))
    (by decide) (isNameChar_ne h).2.2 h

theorem isAlphanum_of_isWordChar {c : Char} (h : isWordChar c = true) : c.isAlphanum = true :=
  char_of_forall (P := fun c => isWordChar c = true → c.isAlphanum = true) (by decide)
    (isWordChar_ascii h) h

theorem toUpper_of_isWordChar {c : Char} (h : isWordChar c = true) :
    c.toUpper.toNat < 128 ∧ c.toUpper.isAlphanum = true ∧ c.toUpper.toLower = c ∧ c.toLower = c :=
  char_of_forall (P := fun c => isWordChar c = true → c.toUpper.toNat < 128 ∧
      c.toUpper.isAlphanum = true ∧ c.toUpper.toLower = c ∧ c.toLower = c)
    (by decide) (isWordChar_ascii h) h

theorem toUpper_of_isLowerLetter {c : Char} (h : isLowerLetter c = true) :
    'A' ≤ c.toUpper ∧ c.toUpper ≤ 'Z' :=
  have hword : isWordChar c = true := by rw [isWordChar, h, Bool.true_or]
  char_of_forall (P := fun c => isLowerLetter c = true → 'A' ≤ c.toUpper ∧ c.toUpper ≤ 'Z')
    (by decide) (isWordChar_ascii hword) h

variable {s : String} {word : List Char}

/-- The characters between the underscores, in their order; a line break at the end is
none of them. -/
theorem flatten_words (h : IsSegment (withoutLineBreak s.toList)) :
    (wordsBy isWordBreak s.toList).flatten = (withoutLineBreak s.toList).filter (· != '_') := by
  have hfilter : (withoutLineBreak s.toList).filter (fun c => !isWordBreak c) =
      (withoutLineBreak s.toList).filter (· != '_') :=
    List.filter_congr fun c hc => (isWordBreak_of_isNameChar (isNameChar_iff.mpr (h.marks c hc))).1
  rw [flatten_wordsBy, ← hfilter]
  rcases withoutLineBreak_cases s.toList with ⟨front, hs, hfront⟩ | ⟨-, hsame⟩
  · have hbreak : isWordBreak '\n' = true := by decide
    rw [hfront, hs]
    simp [hbreak]
  · rw [hsame]

theorem isWordChar_of_mem_words (h : IsSegment (withoutLineBreak s.toList))
    (hword : word ∈ wordsBy isWordBreak s.toList) : ∀ c ∈ word, isWordChar c = true := by
  intro c hc
  have hin : c ∈ (wordsBy isWordBreak s.toList).flatten := List.mem_flatten.mpr ⟨word, hword, hc⟩
  rw [flatten_words h, List.mem_filter] at hin
  obtain ⟨hmark, hline⟩ := hin
  obtain ⟨hbreak, hchar⟩ := isWordBreak_of_isNameChar (isNameChar_iff.mpr (h.marks c hmark))
  exact hchar (by simpa [hline] using hbreak)

/-! ## Capitals -/

theorem capitalize_chars (h : ∀ c ∈ word, isWordChar c = true) :
    ∀ c ∈ capitalize word, c.toNat < 128 ∧ c.isAlphanum = true := by
  cases word with
  | nil => simp [capitalize]
  | cons c word =>
      obtain ⟨hc, hword⟩ := List.forall_mem_cons.mp h
      obtain ⟨hascii, halphanum, -⟩ := toUpper_of_isWordChar hc
      rw [capitalize, upperChar, if_pos (isWordChar_ascii hc), List.singleton_append,
        List.forall_mem_cons]
      exact ⟨⟨hascii, halphanum⟩,
        fun d hd => ⟨isWordChar_ascii (hword d hd), isAlphanum_of_isWordChar (hword d hd)⟩⟩

/-- A word in lower case is the word as it stands in the name. -/
theorem map_toLower_capitalize (h : ∀ c ∈ word, isWordChar c = true) :
    (capitalize word).map Char.toLower = word := by
  cases word with
  | nil => rfl
  | cons c word =>
      obtain ⟨hc, hword⟩ := List.forall_mem_cons.mp h
      obtain ⟨-, -, hback, -⟩ := toUpper_of_isWordChar hc
      rw [capitalize, upperChar, if_pos (isWordChar_ascii hc), List.singleton_append, List.map_cons,
        hback, List.map_congr_left fun d hd => (toUpper_of_isWordChar (hword d hd)).2.2.2,
          List.map_id']

theorem toList_pascalCase (s : String) :
    (pascalCase s).toList = (wordsBy isWordBreak s.toList).flatMap capitalize := by
  rw [pascalCase, String.toList_ofList]

theorem isSegment_of_isPackageName (h : isPackageName s = true) :
    IsSegment (withoutLineBreak s.toList) := by
  rw [isPackageName, Bool.and_eq_true, Bool.and_eq_true] at h
  exact isIdentifier_iff.mp h.1.1

theorem alphanum_pascalCase (h : IsSegment (withoutLineBreak s.toList)) :
    ∀ c ∈ (pascalCase s).toList, c.toNat < 128 ∧ c.isAlphanum = true := by
  intro c hc
  rw [toList_pascalCase] at hc
  obtain ⟨word, hword, hc⟩ := List.mem_flatMap.mp hc
  exact capitalize_chars (isWordChar_of_mem_words h hword) c hc

/-- The first word of a name begins with the letter that the name begins with. -/
theorem exists_pascalCase (h : IsSegment (withoutLineBreak s.toList)) :
    ∃ c rest, isLowerLetter c = true ∧ (pascalCase s).toList = c.toUpper :: rest := by
  obtain ⟨c, hc, hletter⟩ := h.first
  have hlower := isLowerLetter_iff.mpr hletter
  have hname : isNameChar c = true := isNameChar_iff.mpr (.inl hletter)
  have hbreak : isWordBreak c = false :=
    char_of_forall (P := fun c => isLowerLetter c = true → isWordBreak c = false) (by decide)
      (isNameChar_ne hname).2.2 hlower
  obtain ⟨rest, hs⟩ : ∃ rest, s.toList = c :: rest := by
    rcases withoutLineBreak_cases s.toList with ⟨front, hs, hfront⟩ | ⟨-, hsame⟩
    · obtain ⟨more, rfl⟩ := List.head?_eq_some_iff.mp (hfront ▸ hc)
      exact ⟨more ++ ['\n'], hs⟩
    · exact List.head?_eq_some_iff.mp (hsame ▸ hc)
  obtain ⟨word, words, hwords⟩ := exists_wordsBy hbreak rest
  refine ⟨c, word ++ words.flatMap capitalize, hlower, ?_⟩
  rw [toList_pascalCase, hs, hwords, List.flatMap_cons, capitalize, upperChar,
    if_pos (isNameChar_ne hname).2.2]
  rfl

theorem toList_camelCase {capital : Char} {rest : List Char} (hcapital : capital.toNat < 128)
    (h : (pascalCase s).toList = capital :: rest) :
    (camelCase s).toList = capital.toLower :: rest := by
  simp [camelCase, h, lowerChar, hcapital]

/-- The class of a package is named by ASCII letters and digits, with a capital letter in front; in
lower case its name is the name of the package without underscores and without a line break at the
end.  Variables have the same name with a small letter in front. -/
theorem classNames_wellFormed (h : isPackageName s = true) :
    (∀ c ∈ (pascalCase s).toList, c.isAlphanum = true) ∧
    (lower (pascalCase s)).toList = (withoutLineBreak s.toList).filter (· != '_') ∧
    ∃ capital rest, (pascalCase s).toList = capital :: rest ∧ 'A' ≤ capital ∧ capital ≤ 'Z' ∧
      (camelCase s).toList = capital.toLower :: rest ∧ IsLetter capital.toLower := by
  have hsegment := isSegment_of_isPackageName h
  have hchars := alphanum_pascalCase hsegment
  refine ⟨fun c hc => (hchars c hc).2, ?_, ?_⟩
  · calc (lower (pascalCase s)).toList
        = (pascalCase s).toList.map Char.toLower := lower_of_ascii fun c hc => (hchars c hc).1
      _ = (wordsBy isWordBreak s.toList).flatMap fun word =>
          (capitalize word).map Char.toLower := by
          rw [toList_pascalCase, List.map_flatMap]
      _ = (wordsBy isWordBreak s.toList).flatMap id :=
          List.flatMap_congr fun word hword =>
            map_toLower_capitalize (isWordChar_of_mem_words hsegment hword)
      _ = (withoutLineBreak s.toList).filter (· != '_') := by
        rw [List.flatMap_id, flatten_words hsegment]
  · obtain ⟨c, rest, hlower, hpascal⟩ := exists_pascalCase hsegment
    have hword : isWordChar c = true := by rw [isWordChar, hlower, Bool.true_or]
    obtain ⟨hascii, -, hback, -⟩ := toUpper_of_isWordChar hword
    obtain ⟨hfirst, hlast⟩ := toUpper_of_isLowerLetter hlower
    refine ⟨c.toUpper, rest, hpascal, hfirst, hlast, toList_camelCase hascii hpascal, ?_⟩
    rw [hback]
    exact isLowerLetter_iff.mp hlower

/-- A word may begin with a digit, and a line break may follow the name, also behind an
underscore. -/
theorem classNames_of_digits :
    isPackageName "http_2_client_\n" = true ∧
      (lower (pascalCase "http_2_client_\n")).toList = "http2client".toList :=
  have hname : isPackageName "http_2_client_\n" = true := by decide
  ⟨hname, (classNames_wellFormed hname).2.1⟩

example : pascalCase "http_2_client_\n" = "Http2Client" := by decide

end Name

end PackageScaffold
