import PackageScaffold.Proofs.Files.Writing
import PackageScaffold.Proofs.Json.Document
import PackageScaffold.Proofs.Project.Tags
import PackageScaffold.Proofs.Template.Scopes
import PackageScaffold.Settings.Environment
import PackageScaffold.Settings.File

/-!
# Settings that are kept

Settings come back from the file that they are saved to, and an environment that they were made
under makes them again from what has come back.  Each field is read from the form in which it is
kept as it was, so nothing is lost where a field is not overridden; where it is, its value is the
same as before.

* `IsReadFrom`: what the fields of settings are read from, and `IsReadFrom.isValid`: that it makes them
  keep their promise;
* `IsValid.isReadFrom`: the fields of settings are read from the settings themselves;
* `ofEnvironment_some`: an environment makes settings again from those that it made;
* `ofJson_toJson`: the document of settings is read back;
* `load_save`: saved settings are loaded again, with the environment that made them or with none;
* `platform_routes_agree`: platforms that are asked for by settings, as a list of tags or in one text are
  the same.
-/

namespace PackageScaffold

/-- No variable for settings has a value; their names all begin alike. -/
def Environment.IsUnset (environment : Environment) : Prop :=
  ∀ name, "FPD_".toList <+: name.toList → environment.value? name = none

namespace Settings

variable {s : Settings} {entries entries' other : Entries}

/-! ## Reading the fields -/

/-- Every field of the settings is what is read for it in a mapping. -/
structure IsReadFrom (s : Settings) (entries : Entries) : Prop where
  author : plainField entries "default_author" standard.author (Conversion.readText 1) = .ok s.author
  organization : plainField entries "default_organization" standard.organization
    (Conversion.readText 1) = .ok s.organization
  platforms : field entries "default_platforms" standard.platforms
    (readPlatforms "default_platforms") = .ok s.platforms
  workers : plainField entries "max_workers" standard.workers Conversion.readCount = .ok s.workers
  strictTemplates : plainField entries "strict_templates" standard.strictTemplates
    Conversion.readTruth = .ok s.strictTemplates
  failOnError : plainField entries "fail_on_error" standard.failOnError
    Conversion.readTruth = .ok s.failOnError

/-- A mapping gives settings where every field can be read. -/
theorem ofEntries_eq_ok_iff : ofEntries entries = .ok s ↔ s.IsReadFrom entries := by
  constructor
  · intro h
    unfold ofEntries at h
    dsimp only at h
    split at h
    · rename_i hauthor horganization hplatforms hworkers hstrict hfail
      obtain rfl := Except.ok.inj h
      exact ⟨hauthor, horganization, hplatforms, hworkers, hstrict, hfail⟩
    · cases h
  · intro h
    unfold ofEntries
    simp only [h.author, h.organization, h.platforms, h.workers, h.strictTemplates, h.failOnError]

/-- What is read for a field is its default, or read from a value. -/
theorem field_eq_ok {α : Type} {name : String} {default a : α} {read : Value → Checked α}
    (h : field entries name default read = .ok a) :
    a = default ∨ ∃ value, read value = .ok a := by
  unfold field at h
  split at h
  · exact .inr ⟨_, h⟩
  · exact .inl (Except.ok.inj h).symm

/-- A field that is the same in two mappings is the same in one that agrees with either of them. -/
theorem field_of_either {α : Type} {name : String} {default a : α} {read : Value → Checked α}
    (h : field entries name default read = .ok a) (h' : field entries' name default read = .ok a)
    (hsame : other.get? name = entries.get? name ∨ other.get? name = entries'.get? name) :
    field other name default read = .ok a := by
  rcases hsame with hsame | hsame
  · rwa [field, hsame]
  · rwa [field, hsame]

theorem IsReadFrom.of_either (h : s.IsReadFrom entries) (h' : s.IsReadFrom entries')
    (hsame : ∀ name, other.get? name = entries.get? name ∨ other.get? name = entries'.get? name) :
    s.IsReadFrom other where
  author := field_of_either h.author h'.author (hsame _)
  organization := field_of_either h.organization h'.organization (hsame _)
  platforms := field_of_either h.platforms h'.platforms (hsame _)
  workers := field_of_either h.workers h'.workers (hsame _)
  strictTemplates := field_of_either h.strictTemplates h'.strictTemplates (hsame _)
  failOnError := field_of_either h.failOnError h'.failOnError (hsame _)

/-! ## Fields as they are kept -/

theorem readItems_texts (name : String) (index : Nat) (tags : List String) :
    readItems name index (tags.map Value.text) = .ok tags := by
  induction tags generalizing index with
  | nil => rfl
  | cons tag tags ih =>
      simp only [List.map_cons, readItems, ih]

/-- Whatever settings are read from, they keep the promise of all settings. -/
theorem IsReadFrom.isValid (h : s.IsReadFrom entries) : s.IsValid := by
  have hplain {α : Type} {name : String} {default a : α} {read : Value → Except Complaint α}
      (h : plainField entries name default read = .ok a) :
      a = default ∨ ∃ value, read value = .ok a :=
    (field_eq_ok h).imp_right fun ⟨value, hread⟩ => ⟨value, Checked.ofField_eq_ok_iff.mp hread⟩
  refine ⟨?_, ?_, ?_⟩
  · rcases hplain h.author with heq | ⟨value, hread⟩
    · rw [heq]
      decide
    · exact (Conversion.readText_eq_ok_iff.mp hread).2
  · rcases hplain h.organization with heq | ⟨value, hread⟩
    · rw [heq]
      decide
    · exact (Conversion.readText_eq_ok_iff.mp hread).2
  · rcases hplain h.workers with heq | ⟨value, hread⟩
    · rw [heq]
      decide
    · exact Conversion.one_le_of_readCount hread

/-- Settings that keep their promise are read from their own mapping. -/
theorem IsValid.isReadFrom (h : s.IsValid) : s.IsReadFrom s.toEntries := by
  obtain ⟨hauthor, horganization, hworkers⟩ := h
  exact {
    author :=
      Checked.ofField_eq_ok_iff.mpr (Conversion.readText_eq_ok_iff.mpr ⟨rfl, hauthor⟩)
    organization :=
      Checked.ofField_eq_ok_iff.mpr (Conversion.readText_eq_ok_iff.mpr ⟨rfl, horganization⟩)
    platforms := readItems_texts _ 0 s.platforms
    workers := Checked.ofField_eq_ok_iff.mpr (Conversion.readCount_int hworkers)
    strictTemplates := rfl
    failOnError := rfl }

/-! ## The environment -/

/-- What the environment asks for, the first of which hides the others. -/
def overriding (environment : Environment) : Entries :=
  (Json.named (overrides environment)).reverse

theorem ofEnvironment_eq_ok_iff {environment : Environment} {base : Option Settings} :
    ofEnvironment environment base = .ok s ↔
      s.IsReadFrom (((base.map toEntries).getD []).override (overriding environment)) := by
  unfold ofEnvironment
  rw [mapError_eq_ok_iff, ofEntries_eq_ok_iff, Entries.override, overriding, Json.named,
    List.foldr_reverse, List.foldl_map]

/-- An environment that made settings makes them again from the settings that it made. -/
theorem ofEnvironment_some {environment : Environment} {base : Option Settings}
    (h : ofEnvironment environment base = .ok s) : ofEnvironment environment (some s) = .ok s := by
  rw [ofEnvironment_eq_ok_iff] at h ⊢
  -- a field that is overridden is read from the same value as before, and any other one from itself
  refine h.of_either h.isValid.isReadFrom fun name => ?_
  simp only [Option.map_some, Option.getD_some, Entries.get?_override]
  cases (overriding environment).get? name with
  | some value => exact .inl rfl
  | none => exact .inr rfl

/-- An environment that sets none of the variables for settings leaves settings as they are. -/
theorem ofEnvironment_of_unset {environment : Environment} (h : environment.IsUnset)
    (hvalid : s.IsValid) :
    ofEnvironment environment (some s) = .ok s := by
  have hprefix : ∀ name ∈ ["FPD_AUTHOR", "FPD_ORGANIZATION", "FPD_PLATFORMS", "FPD_MAX_WORKERS",
      "FPD_STRICT_TEMPLATES", "FPD_FAIL_ON_ERROR"], "FPD_".toList <+: name.toList := by decide
  have hnone : overriding environment = [] := by
    simp only [List.forall_mem_cons] at hprefix
    obtain ⟨hauthor, horganization, hplatforms, hworkers, hstrict, hfail, -⟩ := hprefix
    simp [overriding, overrides, Json.named, h _ hauthor, h _ horganization, h _ hplatforms,
      h _ hworkers, h _ hstrict, h _ hfail]
  rw [ofEnvironment_eq_ok_iff, hnone]
  exact hvalid.isReadFrom

/-! ## The file -/

/-- The names and values of settings make a document; a number in it must not be too long. -/
theorem isDocument_toEntries (h : (Nat.toDigits 10 s.workers).length ≤ 4300) :
    Json.IsDocument 200 (.map s.toEntries) := by
  have hnamed : s.toEntries = Json.named
      [("default_author", .text s.author), ("default_organization", .text s.organization),
       ("default_platforms", .list (s.platforms.map Value.text)), ("max_workers", .int s.workers),
       ("strict_templates", .bool s.strictTemplates), ("fail_on_error", .bool s.failOnError)] := rfl
  have hsign : ¬ (s.workers : Int) < 0 := by omega
  have hwhole : (Value.wholeText s.workers).length ≤ 4300 := by
    simpa [Value.wholeText, hsign] using h
  rw [hnamed]
  refine .map (by simp) ?_
  simp only [List.forall_mem_cons]
  exact ⟨.text _ _, .text _ _, .list (by simp [Json.IsDocument.text]), .int _ hwhole, .bool _ _,
    .bool _ _, by simp⟩

theorem ofJson_toJson (hvalid : s.IsValid) (h : (Nat.toDigits 10 s.workers).length ≤ 4300) :
    ofJson s.toJson = .ok s := by
  rw [ofJson, toJson, Json.read?_write (isDocument_toEntries h)]
  exact ofEntries_eq_ok_iff.mpr hvalid.isReadFrom

/-- A text without carriage returns is read as it was written. -/
theorem read_text {text : String} (h : '\r' ∉ text.toList) :
    (Content.text text).read = .ok text := by
  rw [Content.read, Content.unifyLines_eq_self h, String.ofList_toList]

/-- The settings of a file, overridden by the environment. -/
def loadUnder (environment : Environment) (path : Path) (disk : Disk) : Except Failure Settings := do
  (ofEnvironment environment (some (← load path disk))).mapError .misconfigured

/-- Saved settings are loaded as they were, and an environment that they were made under, as well as
one that sets nothing, leaves them so. -/
theorem load_save {path : Path} {d after : Disk} (hvalid : s.IsValid)
    (hdigits : (Nat.toDigits 10 s.workers).length ≤ 4300)
    (hsave : (s.save path).outcome d = (.ok (), after)) :
    load path after = .ok s ∧
      ∀ environment base, ofEnvironment environment base = .ok s →
        loadUnder environment path after = .ok s ∧
          ∀ other : Environment, other.IsUnset → loadUnder other path after = .ok s := by
  obtain ⟨hnull, hcontent⟩ := FileM.saveText_eq_ok hsave
  have hread : (Content.text s.toJson).read = .ok s.toJson :=
    read_text (Json.not_mem_write (isDocument_toEntries hdigits) 0)
  have hload : load path after = .ok s := by
    simp only [load, hnull, hcontent, Bool.false_eq_true, if_false, hread]
    exact mapError_eq_ok_iff.mpr (ofJson_toJson hvalid hdigits)
  have hunder {environment : Environment} (h : ofEnvironment environment (some s) = .ok s) :
      loadUnder environment path after = .ok s := by
    simp only [loadUnder, hload, bind, Except.bind]
    exact mapError_eq_ok_iff.mpr h
  exact ⟨hload, fun _ _ hmade => ⟨hunder (ofEnvironment_some hmade),
    fun _ hunset => hunder (ofEnvironment_of_unset hunset hvalid)⟩⟩

/-- Settings with a quote, a line break and a tag from outside ASCII, as an environment
makes them. -/
theorem load_save_of_environment :
    let s : Settings :=
      { author := "Ann \"A\"\r\nBell", platforms := ["web", "\u00e9"], workers := 12, failOnError := true }
    let path : Path := ⟨.working, ["conf", "settings.json"]⟩
    let environment : Environment :=
      [("FPD_AUTHOR", s.author), ("FPD_PLATFORMS", "web, ,\u00e9"), ("FPD_MAX_WORKERS", " 12 "),
       ("FPD_FAIL_ON_ERROR", "Yes")]
    s.IsValid ∧ (Nat.toDigits 10 s.workers).length ≤ 4300 ∧ ofEnvironment environment none = .ok s ∧
      ∃ after, (s.save path).outcome {} = (.ok (), after) ∧ load path after = .ok s ∧
        loadUnder environment path after = .ok s ∧ loadUnder [] path after = .ok s := by
  intro s path environment
  have hvalid : s.IsValid := by
    refine ⟨?_, ?_, ?_⟩ <;> decide
  have hdigits : (Nat.toDigits 10 s.workers).length ≤ 4300 := by decide
  have hmade : ofEnvironment environment none = .ok s := by
    have hoption : (ofEnvironment environment none).toOption = some s := by decide +kernel
    cases hresult : ofEnvironment environment none with
    | error cause => simp [hresult, Except.toOption] at hoption
    | ok made => rwa [hresult, Except.toOption, Option.some.injEq, ← Except.ok.injEq] at hoption
  obtain ⟨_, after, hsave⟩ := FileM.exists_outcome_ok
    (show ((s.save path).outcome {}).1.isOk = true by decide +kernel)
  obtain ⟨hload, hunder⟩ := load_save hvalid hdigits hsave
  obtain ⟨hagain, hunset⟩ := hunder environment none hmade
  exact ⟨hvalid, hdigits, hmade, after, hsave, hload, hagain, hunset [] fun _ _ => rfl⟩

end Settings

/-! ## The ways to a list of platforms -/

/-- Settings that were made of a text ask for the platforms that the text asks for. -/
theorem Settings.IsReadFrom.ofList_platforms {s : Settings} {entries : Entries} {tags : String}
    (h : s.IsReadFrom entries) (htext : entries.get? "default_platforms" = some (.text tags)) :
    Platform.ofList s.platforms = Platform.ofText tags := by
  have hread := h.platforms
  rw [field, htext] at hread
  rw [← Except.ok.inj hread, Platform.ofList_splitPlatforms]

/-- A text alone makes settings. -/
theorem Settings.exists_ofEntries_platforms (tags : String) :
    ∃ s, ofEntries [(.text "default_platforms", .text tags)] = .ok s :=
  ⟨{ standard with platforms := splitPlatforms tags }, ofEntries_eq_ok_iff.mpr
    { author := rfl, organization := rfl, platforms := rfl, workers := rfl, strictTemplates := rfl,
      failOnError := rfl }⟩

namespace Platform

open Text

/-- One text, its parts and settings that are made of it ask for the same platforms, or are refused
for the same tag.  A list of tags is refused for the first tag that counts and belongs to no
platform, if there is one; otherwise it is read as the platforms of its tags, each once, in the
order in which they are first named, and the tags of these are read as the same, one by one and in
one text. -/
theorem platform_routes_agree :
    (∀ text : String,
      ofText text = ofList (split ',' text) ∧
        (∃ s, Settings.ofEntries [(.text "default_platforms", .text text)] = .ok s ∧
          ofList s.platforms = ofText text) ∧
        (∀ entries s, Entries.get? entries "default_platforms" = some (.text text) →
          Settings.ofEntries entries = .ok s → ofList s.platforms = ofText text)) ∧
      (∀ parts : List String, parts ≠ [] → (∀ part ∈ parts, ',' ∉ part.toList) →
        ofText (join "," parts) = ofList parts) ∧
      ∀ tags : List String,
        (∀ cause, ofList tags = .error cause ↔
          ∃ tag, IsFirstUnknown (counted tags) tag ∧ cause = .unknownPlatform tag) ∧
        (∀ platforms, ofList tags = .ok platforms ↔
          (∀ tag ∈ counted tags, IsTag tag) ∧ Lists (counted tags) platforms) ∧
        ∀ platforms, ofList tags = .ok platforms → platforms.Nodup ∧
          ofList (platforms.map Platform.text) = .ok platforms ∧
          ofText (join "," (platforms.map Platform.text)) = .ok platforms := by
  refine ⟨fun text => ⟨rfl, ?_, ?_⟩, fun parts hne hparts => ?_, fun tags => ⟨?_, ?_, ?_⟩⟩
  · obtain ⟨s, hmade⟩ := Settings.exists_ofEntries_platforms text
    exact ⟨s, hmade, (Settings.ofEntries_eq_ok_iff.mp hmade).ofList_platforms rfl⟩
  · intro entries s htext hmade
    exact (Settings.ofEntries_eq_ok_iff.mp hmade).ofList_platforms htext
  · rw [ofText, split_join rfl hne hparts]
  · exact fun cause => ofList_eq_error_iff
  · exact fun platforms => ofList_eq_ok_iff
  · intro platforms hread
    have hnodup := nodup_of_ofList hread
    exact ⟨hnodup, ofList_texts hnodup, ofText_join hnodup⟩

/-- Blanks of any kind, blank tags and repetitions do not count, and only the first tag that is
unknown is refused. -/
theorem platform_routes_agree_blanks :
    let text := " iOS,,\u00a0web\t,ios , "
    (∃ s, Settings.ofEntries [(.text "default_platforms", .text text)] = .ok s ∧
        ofList s.platforms = .ok [.ios, .web]) ∧
      ofText text = ofList [" iOS", "", "\u00a0web\t", "ios ", " "] ∧
      ofText "ios,web" = .ok [.ios, .web] ∧
      ofList ["Web", " FUCHSIA ", "beos"] = .error (.unknownPlatform "fuchsia") := by
  intro text
  obtain ⟨htext, hparts, htags⟩ := platform_routes_agree
  have hread : ofText text = .ok [.ios, .web] := by decide
  obtain ⟨-, ⟨s, hmade, hs⟩, -⟩ := htext text
  obtain ⟨-, -, hagain⟩ := htags (split ',' text)
  obtain ⟨-, -, hjoined⟩ := hagain _ hread
  refine ⟨⟨s, hmade, hs.trans hread⟩, hparts [" iOS", "", "\u00a0web\t", "ios ", " "] (by decide)
    (by decide),
    hjoined, ((htags ["Web", " FUCHSIA ", "beos"]).1 _).mpr ?_⟩
  refine ⟨"fuchsia", ⟨["web"], ["beos"], by decide, ?_, ?_⟩, rfl⟩
  · simpa using ⟨Platform.web, rfl⟩
  · rw [← isNone_ofTag?_iff]
    decide

end Platform

end PackageScaffold
