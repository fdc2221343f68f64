import Mathlib.Data.List.Nodup
import PackageScaffold.Project.Model
import PackageScaffold.Proofs.Path
import PackageScaffold.Proofs.Text.Trim

/-!
# Lists of platforms

Tags are read one after the other.  What counts of a tag is its normal form; one that is empty then
is passed over, and the first that belongs to no platform ends the reading.  Until then, the
platforms that were read are those named so far, each once, in the order in which they were first
named: `Lists` is this invariant, `Lists.add` its step, and `ofTags_cases` what a whole run comes
to.

* `counted`, `IsTag`: the tags that count, and those that belong to a platform;
* `ofList_eq_ok_iff`, `ofList_eq_error_iff`: what a list of tags is read as, and when it is not;
* `ofList_texts`, `ofText_join`: the tags of platforms are read as these platforms;
* `ofList_splitPlatforms`: nothing is lost where blanks are cut off and blank tags are dropped first.
-/

namespace PackageScaffold.Platform

open Text

/-! ## Tags -/

theorem ofTag?_text (platform : Platform) : ofTag? platform.text = some platform := by
  cases platform <;> decide

theorem normalTag_text (platform : Platform) : normalTag platform.text = platform.text := by
  cases platform <;> decide

theorem text_ne_empty (platform : Platform) : platform.text ≠ "" := by
  cases platform <;> decide

theorem text_injective : Function.Injective text := fun first second h => by
  have hsame := congrArg ofTag? h
  rw [ofTag?_text, ofTag?_text] at hsame
  exact Option.some.inj hsame

theorem ofTag?_eq_some_iff {tag : String} {platform : Platform} :
    ofTag? tag = some platform ↔ platform.text = tag := by
  constructor
  · intro h
    simpa using List.find?_some h
  · rintro rfl
    exact ofTag?_text platform

/-- A tag that belongs to a platform. -/
def IsTag (tag : String) : Prop :=
  ∃ platform : Platform, platform.text = tag

theorem isNone_ofTag?_iff {tag : String} : (ofTag? tag).isNone = true ↔ ¬ IsTag tag := by
  simp [IsTag, Option.eq_none_iff_forall_ne_some, ofTag?_eq_some_iff]

/-- The tags that count, in their normal form: an empty one names nothing. -/
def counted (tags : List String) : List String :=
  (tags.map normalTag).filter (!·.isEmpty)

@[simp] theorem counted_nil : counted [] = [] := rfl

theorem counted_cons (tag : String) (tags : List String) :
    counted (tag :: tags) =
      if (normalTag tag).isEmpty then counted tags else normalTag tag :: counted tags := by
  rw [counted, List.map_cons, List.filter_cons]
  cases (normalTag tag).isEmpty <;> rfl

/-! ## Reading on -/

/-- The platforms that tags name, each once, in the order in which they are first named. -/
structure Lists (tags : List String) (platforms : List Platform) : Prop where
  mem_iff : ∀ platform, platform ∈ platforms ↔ platform.text ∈ tags
  order : platforms.Pairwise fun first second => tags.idxOf first.text < tags.idxOf second.text

namespace Lists

variable {tags : List String} {platforms : List Platform}

theorem nil : Lists [] [] := ⟨by simp, .nil⟩

theorem nodup (h : Lists tags platforms) : platforms.Nodup :=
  h.order.imp fun hlt => by
    rintro rfl
    exact lt_irrefl _ hlt

/-- Another tag is listed unless its platform is listed already. -/
theorem add (h : Lists tags platforms) (platform : Platform) :
    Lists (tags ++ [platform.text])
      (if platforms.contains platform then platforms else platforms ++ [platform]) := by
  have hkept : ∀ listed ∈ platforms,
      (tags ++ [platform.text]).idxOf listed.text = tags.idxOf listed.text := fun listed hlisted =>
    List.idxOf_append_of_mem ((h.mem_iff listed).mp hlisted)
  have horder : platforms.Pairwise fun first second =>
      (tags ++ [platform.text]).idxOf first.text < (tags ++ [platform.text]).idxOf second.text := by
    refine h.order.imp_of_mem fun hfirst hsecond hlt => ?_
    rwa [hkept _ hfirst, hkept _ hsecond]
  by_cases hmem : platform ∈ platforms
  · rw [if_pos (by simpa using hmem)]
    refine ⟨fun other => ?_, horder⟩
    rw [h.mem_iff, List.mem_append, List.mem_singleton, iff_self_or]
    intro hsame
    rw [hsame]
    exact (h.mem_iff platform).mp hmem
  · rw [if_neg (by simpa using hmem)]
    refine ⟨fun other => ?_, ?_⟩
    · rw [List.mem_append, List.mem_append, h.mem_iff, List.mem_singleton, List.mem_singleton,
        text_injective.eq_iff]
    · rw [List.pairwise_append]
      refine ⟨horder, List.pairwise_singleton _ _, fun listed hlisted last hlast => ?_⟩
      obtain rfl := List.mem_singleton.mp hlast
      -- what is listed already stands in front, and the new one behind all of that
      have hnew : last.text ∉ tags := fun hin => hmem ((h.mem_iff last).mpr hin)
      rw [hkept listed hlisted, List.idxOf_append_of_notMem hnew]
      have hlt := List.idxOf_lt_length_of_mem ((h.mem_iff listed).mp hlisted)
      omega

/-- There is only one such list. -/
theorem unique {others : List Platform} (h : Lists tags platforms) (h' : Lists tags others) :
    platforms = others := by
  have hperm : platforms.Perm others := by
    rw [List.perm_ext_iff_of_nodup h.nodup h'.nodup]
    exact fun platform => (h.mem_iff platform).trans (h'.mem_iff platform).symm
  exact hperm.eq_of_pairwise (fun _ _ _ _ hlt hgt => absurd hlt (lt_asymm hgt)) h.order h'.order

end Lists

/-! ## Whole lists -/

/-- The first of the tags that belongs to no platform. -/
def IsFirstUnknown (tags : List String) (tag : String) : Prop :=
  ∃ known rest, tags = known ++ tag :: rest ∧ (∀ other ∈ known, IsTag other) ∧ ¬ IsTag tag

theorem isFirstUnknown_iff {tags : List String} {tag : String} :
    IsFirstUnknown tags tag ↔ tags.find? (fun other => (ofTag? other).isNone) = some tag := by
  have hknown : ∀ other, (!(ofTag? other).isNone) = true ↔ IsTag other := fun other => by
    rw [Bool.not_eq_true', ← Bool.not_eq_true, isNone_ofTag?_iff, not_not]
  simp only [List.find?_eq_some_iff_append, isNone_ofTag?_iff, hknown]
  exact ⟨fun ⟨known, rest, htags, hall, htag⟩ => ⟨htag, known, rest, htags, hall⟩,
    fun ⟨htag, known, rest, htags, hall⟩ => ⟨known, rest, htags, hall, htag⟩⟩

/-- What a run over tags comes to, with some platforms listed before. -/
theorem ofTags_cases {front : List String} {seen : List Platform} (h : Lists front seen)
    (tags : List String) :
    (∃ platforms, ofTags seen tags = .ok platforms ∧ (∀ tag ∈ counted tags, IsTag tag) ∧
        Lists (front ++ counted tags) platforms) ∨
      ∃ tag, ofTags seen tags = .error (.unknownPlatform tag) ∧
        IsFirstUnknown (counted tags) tag := by
  induction tags generalizing front seen with
  | nil => exact .inl ⟨seen, rfl, by simp, by simpa using h⟩
  | cons tag tags ih =>
      rw [ofTags, counted_cons]
      by_cases hblank : (normalTag tag).isEmpty = true
      · rw [if_pos hblank, if_pos hblank]
        exact ih h
      · rw [if_neg hblank, if_neg hblank]
        cases hplatform : ofTag? (normalTag tag) with
        | none =>
            have hunknown := isNone_ofTag?_iff.mp (by rw [hplatform]; rfl)
            exact .inr ⟨normalTag tag, rfl, [], counted tags, rfl, by simp, hunknown⟩
        | some platform =>
            have htag := ofTag?_eq_some_iff.mp hplatform
            rw [← htag]
            rcases ih (h.add platform) with ⟨platforms, hrun, hknown, hlists⟩ |
              ⟨unknown, hrun, known, rest, hcounted, hknown, hunknown⟩
            · exact .inl ⟨platforms, hrun, List.forall_mem_cons.mpr ⟨⟨platform, rfl⟩, hknown⟩,
                by simpa using hlists⟩
            · exact .inr ⟨unknown, hrun, platform.text :: known, rest, by rw [hcounted]; rfl,
                List.forall_mem_cons.mpr ⟨⟨platform, rfl⟩, hknown⟩, hunknown⟩

variable {tags : List String} {platforms : List Platform}

/-- A list of tags is read if all that count belong to a platform, and then as their platforms in
the order in which they are first named. -/
theorem ofList_eq_ok_iff : ofList tags = .ok platforms ↔
    (∀ tag ∈ counted tags, IsTag tag) ∧ Lists (counted tags) platforms := by
  rcases ofTags_cases .nil tags with ⟨found, hrun, hknown, hlists⟩ | ⟨unknown, hrun, hfirst⟩
  · rw [ofList, hrun, Except.ok.injEq]
    constructor
    · rintro rfl
      exact ⟨hknown, hlists⟩
    · exact fun ⟨_, h⟩ => hlists.unique h
  · obtain ⟨known, rest, hcounted, -, hunknown⟩ := hfirst
    rw [ofList, hrun]
    constructor
    · simp
    · exact fun ⟨h, _⟩ => absurd (h unknown (by simp [hcounted])) hunknown

/-- Otherwise the first that belongs to none is refused. -/
theorem ofList_eq_error_iff {cause : Misconfiguration} : ofList tags = .error cause ↔
    ∃ tag, IsFirstUnknown (counted tags) tag ∧ cause = .unknownPlatform tag := by
  rcases ofTags_cases .nil tags with ⟨found, hrun, hknown, -⟩ | ⟨unknown, hrun, hfirst⟩
  · rw [ofList, hrun]
    constructor
    · simp
    · rintro ⟨tag, ⟨known, rest, hcounted, -, hunknown⟩, -⟩
      exact absurd (hknown tag (by simp [hcounted])) hunknown
  · rw [ofList, hrun, Except.error.injEq]
    constructor
    · rintro rfl
      exact ⟨unknown, hfirst, rfl⟩
    · rintro ⟨tag, htag, rfl⟩
      rw [isFirstUnknown_iff] at hfirst htag
      rw [Option.some.inj (hfirst.symm.trans htag)]

theorem exists_ofList_iff : (∃ platforms, ofList tags = .ok platforms) ↔
      ∀ tag ∈ counted tags, IsTag tag := by
  constructor
  · rintro ⟨platforms, h⟩
    exact (ofList_eq_ok_iff.mp h).1
  · intro hknown
    rcases ofTags_cases .nil tags with ⟨found, hrun, -⟩ |
      ⟨unknown, -, known, rest, hcounted, -, hunknown⟩
    · exact ⟨found, hrun⟩
    · exact absurd (hknown unknown (by simp [hcounted])) hunknown

theorem nodup_of_ofList (h : ofList tags = .ok platforms) : platforms.Nodup :=
  (ofList_eq_ok_iff.mp h).2.nodup

/-- Nothing is read where no tag counts, and only there. -/
theorem eq_nil_iff_of_ofList (h : ofList tags = .ok platforms) :
    platforms = [] ↔ counted tags = [] := by
  obtain ⟨hknown, hlists⟩ := ofList_eq_ok_iff.mp h
  rw [List.eq_nil_iff_forall_not_mem, List.eq_nil_iff_forall_not_mem]
  constructor
  · intro hnone tag htag
    obtain ⟨platform, rfl⟩ := hknown tag htag
    exact hnone platform ((hlists.mem_iff platform).mpr htag)
  · exact fun hnone platform hmem => hnone _ ((hlists.mem_iff platform).mp hmem)

/-! ## The tags of platforms -/

theorem counted_texts (platforms : List Platform) :
    counted (platforms.map text) = platforms.map text := by
  induction platforms with
  | nil => rfl
  | cons platform platforms ih =>
      rw [List.map_cons, counted_cons, normalTag_text,
        if_neg (by simpa using text_ne_empty platform), ih]

/-- The tags of platforms name platforms, and some if there are any. -/
theorem exists_ofList_texts (platforms : List Platform) :
    ∃ found, ofList (platforms.map text) = .ok found ∧ (platforms ≠ [] → found ≠ []) := by
  obtain ⟨found, hread⟩ := exists_ofList_iff.mpr (by simp [counted_texts, IsTag] :
    ∀ tag ∈ counted (platforms.map text), IsTag tag)
  refine ⟨found, hread, fun hne hnil => hne ?_⟩
  simpa [counted_texts] using (eq_nil_iff_of_ofList hread).mp hnil

theorem lists_texts (h : platforms.Nodup) : Lists (platforms.map text) platforms := by
  refine ⟨fun platform => (List.mem_map_of_injective text_injective).symm, ?_⟩
  rw [List.pairwise_iff_getElem]
  intro i j hi hj hlt
  have hnodup := (List.nodup_map_iff text_injective).mpr h
  have hidx : ∀ k (hk : k < platforms.length), (platforms.map text).idxOf platforms[k].text =
      k := by
    intro k hk
    have hget := hnodup.idxOf_getElem k (by simpa using hk)
    rwa [List.getElem_map] at hget
  rwa [hidx i hi, hidx j hj]

/-- The tags of distinct platforms are read as these. -/
theorem ofList_texts (h : platforms.Nodup) : ofList (platforms.map text) = .ok platforms := by
  refine ofList_eq_ok_iff.mpr ?_
  rw [counted_texts]
  exact ⟨by simp [IsTag], lists_texts h⟩

theorem comma_not_mem_text (platform : Platform) : ',' ∉ platform.text.toList := by
  cases platform <;> decide

/-- So are their tags in one text. -/
theorem ofText_join (h : platforms.Nodup) :
    ofText (join "," (platforms.map text)) = .ok platforms := by
  by_cases hnil : platforms = []
  · subst hnil
    decide
  · rw [ofText, split_join rfl (by simpa using hnil) (by simp [comma_not_mem_text])]
    exact ofList_texts h

/-! ## Tags that are cut out first -/

theorem normalTag_trim (tag : String) : normalTag (trim tag) = normalTag tag := by
  rw [normalTag, trim_trim, normalTag]

/-- Cutting blanks off and dropping what is blank changes nothing that counts. -/
theorem counted_trimmed (tags : List String) :
    counted ((tags.map trim).filter (!·.isEmpty)) = counted tags := by
  induction tags with
  | nil => rfl
  | cons tag tags ih =>
      rw [List.map_cons, List.filter_cons, counted_cons tag]
      cases hblank : (trim tag).isEmpty with
      | true =>
          have hempty : (normalTag tag).isEmpty = true := by
            rw [normalTag, String.isEmpty_iff.mp hblank]
            decide
          simpa [hempty] using ih
      | false => simp [counted_cons, normalTag_trim, ih]

theorem ofList_congr {others : List String} (h : counted tags = counted others) :
    ofList tags = ofList others := by
  cases hrun : ofList others with
  | ok platforms => rwa [ofList_eq_ok_iff, h, ← ofList_eq_ok_iff]
  | error cause => rwa [ofList_eq_error_iff, h, ← ofList_eq_error_iff]

theorem ofList_splitPlatforms (s : String) : ofList (Settings.splitPlatforms s) = ofText s :=
  ofList_congr (counted_trimmed (split ',' s))

end PackageScaffold.Platform
