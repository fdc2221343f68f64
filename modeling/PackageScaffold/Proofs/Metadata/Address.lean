import PackageScaffold.Proofs.Path
import PackageScaffold.Proofs.Project.Name
import PackageScaffold.Proofs.Yaml.Plain

/-!
# Names and addresses in metadata

The names, addresses and classes that metadata are made of need no quotes, as long as no name ends
in a line break.

* `Name.stem`: a name without a line break at its end;
* `Name.isAddress_organization`, `Name.isAddress_pascalCase`: organizations and classes;
* `Model.isPlain_address`, `Model.isPlain_androidPackage`, `Model.isPlain_pluginClass`: what metadata
  say of a project.
-/

namespace PackageScaffold

open Yaml

namespace Name

open Text

/-! ## Names -/

/-- A name without the line break at its end, if it has one. -/
def stem (s : String) : String :=
  String.ofList (withoutLineBreak s.toList)

/-- Whether a name ends in a line break. -/
def endsInBreak (s : String) : Bool :=
  s.toList.getLast? == some '\n'

theorem stem_of_not_endsInBreak {s : String} (h : endsInBreak s = false) : stem s = s := by
  rw [stem, withoutLineBreak, show (s.toList.getLast? == some '\n') = false from h]
  simp

theorem stem_append_of_endsInBreak {s : String} (h : endsInBreak s = true) :
    s = stem s ++ "\n" := by
  obtain ⟨front, hfront⟩ := List.getLast?_eq_some_iff.mp (beq_iff_eq.mp h)
  rw [stem, withoutLineBreak, show (s.toList.getLast? == some '\n') = true from h,
    if_pos rfl, hfront, List.dropLast_concat]
  apply String.toList_inj.mp
  simp [hfront]

theorem isAlpha_of_isLowerLetter {c : Char} (h : isLowerLetter c = true) : c.isAlpha = true := by
  have hlower : c.isLower = true := h
  exact Bool.or_eq_true_iff.mpr (.inr hlower)

theorem isPathChar_of_isNameChar {c : Char} (h : isNameChar c = true) : isPathChar c = true := by
  simp only [isNameChar, Bool.or_eq_true, beq_iff_eq] at h
  rcases h with (h | h) | rfl
  · simp [isPathChar, Char.isAlphanum, isAlpha_of_isLowerLetter h]
  · simp [isPathChar, Char.isAlphanum, h]
  · decide

/-- An identifier is made of a letter and the characters of names. -/
theorem exists_of_isIdentifier {cs : List Char} (h : isIdentifier cs = true) :
    ∃ c rest, cs = c :: rest ∧ isLowerLetter c = true ∧ ∀ d ∈ cs, isNameChar d = true := by
  cases cs with
  | nil => simp [isIdentifier] at h
  | cons c rest =>
      simp only [isIdentifier, Bool.and_eq_true, List.all_eq_true] at h
      refine ⟨c, rest, rfl, h.1, ?_⟩
      simpa [isNameChar, h.1] using h.2

theorem isAddress_of_isIdentifier {cs : List Char} (h : isIdentifier cs = true) : IsAddress cs := by
  obtain ⟨c, rest, rfl, hfirst, hchars⟩ := exists_of_isIdentifier h
  refine ⟨⟨c, rest, rfl, isAlpha_of_isLowerLetter hfirst⟩,
    fun d hd => isAddressChar_of_isPathChar (isPathChar_of_isNameChar (hchars d hd)),
      fun hlast => ?_⟩
  exact absurd (hchars _ (List.mem_of_getLast? hlast)) (by decide)

/-! ## Organizations -/

/-- Identifiers that are joined by dots. -/
theorem isAddress_of_splitOn {cs : List Char}
    (h : ∀ segment ∈ splitOn '.' cs, isIdentifier segment = true) : IsAddress cs := by
  have hchars : ∀ c ∈ cs, c = '.' ∨ isNameChar c = true := by
    intro c hc
    by_cases hdot : c = '.'
    · exact .inl hdot
    · obtain ⟨segment, hsegment, hin⟩ := exists_mem_splitOn hc hdot
      obtain ⟨-, -, -, -, hname⟩ := exists_of_isIdentifier (h segment hsegment)
      exact .inr (hname c hin)
  refine ⟨?_, ?_, ?_⟩
  · cases cs with
    | nil => simpa [isIdentifier] using h [] (by simp [splitOn])
    | cons c rest =>
        refine ⟨c, rest, rfl, ?_⟩
        rw [splitOn] at h
        split at h
        · simpa [isIdentifier] using h [] List.mem_cons_self
        · -- the first segment begins as the text does
          split at h
          all_goals
            have hfirst := h _ List.mem_cons_self
            simp only [isIdentifier, Bool.and_eq_true] at hfirst
            exact isAlpha_of_isLowerLetter hfirst.1
  · intro c hc
    rcases hchars c hc with rfl | hname
    · decide
    · exact isAddressChar_of_isPathChar (isPathChar_of_isNameChar hname)
  · intro hlast
    rcases hchars _ (List.mem_of_getLast? hlast) with hdot | hname
    · exact absurd hdot (by decide)
    · exact absurd hname (by decide)

theorem isAddress_organization {s : String} (h : isOrganization s = true) :
    IsAddress (stem s).toList ∧ '.' ∈ (stem s).toList := by
  simp only [isOrganization, Bool.and_eq_true, decide_eq_true_eq, List.all_eq_true] at h
  rw [stem, String.toList_ofList]
  refine ⟨isAddress_of_splitOn h.2, ?_⟩
  by_contra hdot
  have hlength := h.1
  rw [splitOn_of_not_mem hdot] at hlength
  simp at hlength

/-! ## Classes -/

theorem isAlpha_toUpper {c : Char} (h : c.isAlpha = true) : c.toUpper.isAlpha = true :=
  char_of_forall (P := fun c => c.isAlpha = true → c.toUpper.isAlpha = true) (by decide)
    (toNat_lt_of_isAddressChar (isAddressChar_of_isAlpha h)) h

theorem isPathChar_toUpper {c : Char} (h : isNameChar c = true) : isPathChar c.toUpper = true :=
  char_of_forall (P := fun c => isNameChar c = true → isPathChar c.toUpper = true) (by decide)
    (isNameChar_ne h).2.2 h

/-- The first word of a text that begins with none of the characters between words begins like the
text. -/
theorem exists_wordsBy {isBreak : Char → Bool} {c : Char} (h : isBreak c = false) (cs : List Char) :
    ∃ word words, wordsBy isBreak (c :: cs) = (c :: word) :: words := by
  unfold wordsBy
  rw [h, if_neg (by simp)]
  split
  · exact ⟨[], [], rfl⟩
  · split
    · exact ⟨[], _, rfl⟩
    · split
      · exact ⟨[], [], rfl⟩
      · exact ⟨_, _, rfl⟩

theorem isPathChar_of_mem_capitalize {word : List Char} (h : ∀ c ∈ word, isNameChar c = true) :
    ∀ c ∈ capitalize word, isPathChar c = true := by
  cases word with
  | nil => simp [capitalize]
  | cons c word =>
      obtain ⟨hc, hword⟩ := List.forall_mem_cons.mp h
      rw [capitalize, upperChar, if_pos (isNameChar_ne hc).2.2, List.singleton_append,
        List.forall_mem_cons]
      exact ⟨isPathChar_toUpper hc, fun d hd => isPathChar_of_isNameChar (hword d hd)⟩

/-- The name of a class begins with a letter. -/
theorem pascalCase_chars {s : String} (h : isIdentifier s.toList = true) :
    (∃ c rest, (pascalCase s).toList = c :: rest ∧ c.isAlpha = true) ∧
      ∀ c ∈ (pascalCase s).toList, isPathChar c = true := by
  obtain ⟨c, rest, hcons, hfirst, hchars⟩ := exists_of_isIdentifier h
  have halpha := isAlpha_of_isLowerLetter hfirst
  have hlow := toNat_lt_of_isAddressChar (isAddressChar_of_isAlpha halpha)
  have hbreak : isWordBreak c = false :=
    char_of_forall (P := fun c => c.isAlpha = true → isWordBreak c = false) (by decide) hlow halpha
  obtain ⟨word, words, hwords⟩ := exists_wordsBy hbreak rest
  have hpascal : (pascalCase s).toList = (wordsBy isWordBreak s.toList).flatMap capitalize := by
    rw [pascalCase, String.toList_ofList]
  constructor
  · refine ⟨c.toUpper, word ++ words.flatMap capitalize, ?_, isAlpha_toUpper halpha⟩
    rw [hpascal, hcons, hwords, List.flatMap_cons, capitalize, upperChar, if_pos hlow]
    rfl
  · intro d hd
    rw [hpascal] at hd
    obtain ⟨piece, hpiece, hd⟩ := List.mem_flatMap.mp hd
    exact isPathChar_of_mem_capitalize (fun e he => hchars e (mem_of_mem_wordsBy hpiece he)) d hd

/-- The class that is named after an identifier. -/
theorem isAddress_pascalCase {s : String} (h : isIdentifier s.toList = true) :
    IsAddress (pascalCase s).toList := by
  obtain ⟨hfirst, hchars⟩ := pascalCase_chars h
  refine ⟨hfirst, fun c hc => isAddressChar_of_isPathChar (hchars c hc), fun hlast => ?_⟩
  exact absurd (hchars _ (List.mem_of_getLast? hlast)) (by decide)

theorem isIdentifier_of_not_endsInBreak {s : String} (h : isPackageName s = true)
    (hbreak : endsInBreak s = false) : isIdentifier s.toList = true := by
  simp only [isPackageName, Bool.and_eq_true] at h
  have hidentifier := h.1.1
  rwa [withoutLineBreak, show (s.toList.getLast? == some '\n') = false from hbreak,
    if_neg (by simp)]
    at hidentifier

end Name

/-! ## What metadata say of a project -/

open Name

/-- A name or an address with more behind it needs no quotes if it holds a character that no word
for a truth value or for nothing has. -/
theorem isPlain_append {front more : String} (h : IsAddress front.toList)
    (hmore : ∀ c ∈ more.toList, isPathChar c = true) {other : Char}
    (hmem : other ∈ front.toList ++ more.toList) (hother : other ∉ wordChars) :
    IsPlain (front ++ more) := by
  have haddress := h.append hmore
  rw [← String.toList_append] at haddress hmem
  exact haddress.isPlain hmem hother

section Name

variable {name : String} (h : isIdentifier name.toList = true)

include h

theorem isPathChar_name : ∀ c ∈ name.toList, isPathChar c = true := by
  obtain ⟨-, -, -, -, hchars⟩ := exists_of_isIdentifier h
  exact fun c hc => isPathChar_of_isNameChar (hchars c hc)

/-- An address that ends in a name, or in what stands behind the name. -/
theorem isPlain_address {site : String} (hsite : IsAddress site.toList) (hmark : '/' ∈ site.toList)
    {more : String} (hmore : ∀ c ∈ more.toList, isPathChar c = true) :
    IsPlain (site ++ name ++ more) := by
  have haddress := hsite.append (isPathChar_name h)
  rw [← String.toList_append] at haddress
  have hfirst : '/' ∈ (site ++ name).toList := by
    rw [String.toList_append]
    exact List.mem_append_left _ hmark
  exact isPlain_append haddress hmore (List.mem_append_left _ hfirst) (by decide)

theorem isPlain_webFile : IsPlain (name ++ "_web.dart") :=
  isPlain_append (isAddress_of_isIdentifier h) (by decide)
    (List.mem_append_right name.toList (show '_' ∈ "_web.dart".toList by decide)) (by decide)

theorem isPlain_androidPackage {organization : String}
    (horganization : IsAddress organization.toList) :
    IsPlain (organization ++ "." ++ name) := by
  have hdot : '.' ∈ (organization ++ ".").toList := by simp
  have hpath : ∀ c ∈ ".".toList, isPathChar c = true := by decide
  have haddress := horganization.append hpath
  rw [← String.toList_append] at haddress
  exact isPlain_append haddress (isPathChar_name h) (List.mem_append_left _ hdot) (by decide)

/-- The class of a plugin on a platform. -/
theorem isPlain_pluginClass (platform : Platform) :
    IsPlain (platform.pluginClass (pascalCase name)) := by
  have hpascal := isAddress_pascalCase h
  have hend : ∀ {ending : String} (other : Char), (∀ c ∈ ending.toList, isPathChar c = true) →
      other ∈ ending.toList → other ∉ wordChars → IsPlain (pascalCase name ++ ending) :=
    fun other hmore hmem hother => isPlain_append hpascal hmore (List.mem_append_right _ hmem)
      hother
  cases platform with
  | android => exact hend 'P' (by decide) (by decide) (by decide)
  | ios =>
      have hswift : IsAddress "Swift".toList := ⟨⟨'S', _, rfl, by decide⟩, by decide, by decide⟩
      have haddress := hswift.append (pascalCase_chars h).2
      rw [← String.toList_append] at haddress
      exact isPlain_append haddress (by decide)
        (List.mem_append_right _ (show 'P' ∈ "Plugin".toList by decide))
        (by decide)
  | web => exact hend 'W' (by decide) (by decide) (by decide)
  | windows => exact hend 'P' (by decide) (by decide) (by decide)
  | linux => exact hend 'P' (by decide) (by decide) (by decide)
  | macos => exact hend 'P' (by decide) (by decide) (by decide)

end Name

end PackageScaffold
