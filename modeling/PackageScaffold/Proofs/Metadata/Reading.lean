import PackageScaffold.Proofs.Metadata.Pubspec
import PackageScaffold.Proofs.Yaml.Broken
import PackageScaffold.Proofs.Yaml.Quoted

/-!
# Reading the metadata of a new project

The keys of metadata and the texts that all projects share are read as they are written, and so are
the addresses and classes that are made from a name.

* `Pubspec.Unbroken`: what a model must be for what stands behind the description to be read;
* `Pubspec.isRead_further`, `Pubspec.entries_further`: it is read, as what the template spells;
* `Pubspec.parse_metadataText`: what is read from the text of the metadata.
-/

namespace PackageScaffold

open Yaml

namespace Pubspec

/-! ## Keys and texts -/

/-- The keys of metadata. -/
def keys : List String :=
  ["name", "description", "publish_to", "version", "homepage", "repository", "issue_tracker",
   "documentation", "environment", "sdk", "dependencies", "dev_dependencies", "flutter",
   "cupertino_icons", "flutter_test", "flutter_lints", "uses-material-design", "assets", "meta", "lints",
   "test", "plugin_platform_interface", "flutter_web_plugins", "web", "plugin", "platforms",
   "package", "pluginClass", "fileName", "android", "ios", "windows", "linux", "macos"]

/-- The texts that metadata hold for every project. -/
def texts : List String :=
  ["flutter", sdkConstraint, "^5.0.0", "none", "1.0.0+1", "^1.0.8", "assets/images/", "1.0.0", "^1.15.0",
   "^1.25.0", "0.0.1", "^2.1.8", "^1.1.0"]

theorem isPlainKey_keys : ∀ key ∈ keys, Block.IsPlainKey key := by
  decide +kernel

theorem isPlain_texts : ∀ text ∈ texts, IsPlain text := by
  decide +kernel

theorem isRead_texts : ∀ text ∈ texts, (Scalar.plain text).IsRead :=
  fun text htext => Scalar.isRead_plain (isPlain_texts text htext)

theorem isRead_flutterConstraint :
    (Scalar.quoted (flutterConstraint.toList ++ ['"']) flutterConstraint).IsRead := by
  have hescaped : escaped flutterConstraint.toList = flutterConstraint.toList := by decide
  have hquoted := isQuoted_of_isKept (show isKept flutterConstraint.toList = true by decide)
  rw [hescaped, String.ofList_toList] at hquoted
  exact Scalar.isRead_quoted hquoted (by decide)

/-- The switch of an application. -/
theorem isRead_true : (Scalar.word "true" (.bool true)).IsRead :=
  Scalar.isRead_word (by decide) (.scalar (by decide) (by decide) rfl) (by decide)

/-! ## The parts of the mapping -/

theorem isRead_application : application.IsRead := by
  have hkeys := isPlainKey_keys
  have htexts := isRead_texts
  have hitem : IsPlain "assets/images/" := isPlain_texts _ (by decide)
  simp only [keys, texts, List.forall_mem_cons] at hkeys htexts
  simp [application, flutterEnvironment, flutterPart, flutterDevelopment, Block.IsRead, Block.keys,
    hkeys, htexts, hitem, isRead_flutterConstraint, isRead_true]

theorem isRead_packageSections : packageSections.IsRead := by
  have hkeys := isPlainKey_keys
  have htexts := isRead_texts
  simp only [keys, texts, List.forall_mem_cons] at hkeys htexts
  simp [packageSections, Block.IsRead, Block.keys, hkeys, htexts]

theorem isRead_pluginSections (isWeb : Bool) {platforms : Block} (hne : platforms ≠ .nil)
    (h : platforms.IsRead) : (pluginSections isWeb platforms).IsRead := by
  have hkeys := isPlainKey_keys
  have htexts := isRead_texts
  simp only [keys, texts, List.forall_mem_cons] at hkeys htexts
  cases isWeb <;>
    simp [pluginSections, pluginDependencies, flutterEnvironment, flutterPart, flutterDevelopment,
      Block.IsRead, Block.keys, hkeys, htexts, isRead_flutterConstraint, hne, h]

theorem isPlain_site {name : String} (hname : Name.isIdentifier name.toList = true) :
    IsPlain (site ++ name) ∧ IsPlain (site ++ name ++ "/issues") := by
  have hsite : IsAddress site.toList := ⟨⟨'h', _, rfl, by decide⟩, by decide, by decide⟩
  have haddress : IsPlain (site ++ name ++ "") := isPlain_address hname hsite (by decide) (by simp)
  rw [String.append_empty] at haddress
  exact ⟨haddress, isPlain_address hname hsite (by decide) (by decide)⟩

/-- Where the users of a library find more about it, in front of what has none of these keys. -/
theorem isRead_publication {name tracker : String} (hname : IsPlain (site ++ name))
    (htracker : IsPlain tracker)
    (blanks : Nat) {rest : Block}
    (hnew : ∀ key ∈ ["homepage", "repository", "issue_tracker"], key ∉ rest.keys)
    (h : rest.IsRead) :
    (publication blanks name tracker rest).IsRead := by
  have hkeys := isPlainKey_keys
  simp only [keys, List.forall_mem_cons] at hkeys hnew
  simp [publication, Block.IsRead, Block.keys, hkeys, hnew, Scalar.isRead_plain, hname, htracker, h]

/-- What a library says of itself, in front of what has none of its keys. -/
theorem isRead_library {version name : String} (hversion : IsPlain version)
    (hname : Name.isIdentifier name.toList = true) {rest : Block}
    (hnew : ∀ key ∈ ["version", "homepage", "repository", "issue_tracker", "documentation"],
      key ∉ rest.keys) (h : rest.IsRead) : (library version name rest).IsRead := by
  have hkeys := isPlainKey_keys
  simp only [keys, List.forall_mem_cons] at hkeys hnew
  have hdocumentation : IsAddress "https://pub.dev/documentation/".toList :=
    ⟨⟨'h', _, rfl, by decide⟩, by decide, by decide⟩
  have hpages : IsPlain ("https://pub.dev/documentation/" ++ name ++ "/latest/") :=
    isPlain_address hname hdocumentation (by decide) (by decide)
  refine ⟨⟨by simp [hkeys], ?_⟩, Scalar.isRead_plain hversion, ?_⟩
  · simp [publication, Block.keys, hnew]
  · refine isRead_publication (isPlain_site hname).1 (isPlain_site hname).2 0 ?_ ?_
    · simp [Block.keys, hnew]
    · exact ⟨⟨by simp [hkeys], by simp [hnew]⟩, Scalar.isRead_plain hpages, h⟩

/-- A name and a description, in front of what has neither. -/
theorem isRead_titled {blanks : Nat} {name description : Scalar} {rest : Block}
    (hname : name.IsRead)
    (hdescription : description.IsRead) (hnew : "name" ∉ rest.keys ∧ "description" ∉ rest.keys)
    (h : rest.IsRead) : (titled blanks name description rest).IsRead := by
  have hkeys := isPlainKey_keys
  simp only [keys, List.forall_mem_cons] at hkeys
  exact ⟨⟨hkeys.1, by simpa [Block.keys] using hnew.1⟩, hname, ⟨hkeys.2.1, hnew.2⟩, hdescription, h⟩

theorem keys_platforms (m : Model) (rest : Block) (targets : List Platform) :
    (platforms m rest targets).keys = targets.map Platform.text ++ rest.keys := by
  induction targets with
  | nil => rfl
  | cons target targets ih =>
      rw [platforms, Block.keys, ih]
      rfl

section Platforms

variable {m : Model} (hname : Name.isIdentifier m.name.toList = true)

include hname

theorem isRead_implementation (target : Platform) : (implementation m target).IsRead := by
  have hkeys := isPlainKey_keys
  simp only [keys, List.forall_mem_cons] at hkeys
  have hclass : IsPlain (target.pluginClass m.pascalName) := isPlain_pluginClass hname target
  have hfile : IsPlain (m.name ++ "_web.dart") := isPlain_webFile hname
  cases target <;>
    simp [implementation, Block.IsRead, Block.keys, hkeys, Scalar.isRead_plain, hclass, hfile]

/-- What a plugin says of a platform, if its organization can be a part of the Android package. -/
theorem isRead_platform {target : Platform}
    (horganization : target = .android → IsAddress m.organization.toList) :
    (platform m target).IsRead ∧ platform m target ≠ .nil := by
  have himplementation := isRead_implementation hname target
  unfold platform
  split
  · rename_i handroid
    have hkeys := isPlainKey_keys
    simp only [keys, List.forall_mem_cons] at hkeys
    have hpackage : IsPlain m.androidPackage :=
      isPlain_androidPackage hname (horganization handroid)
    refine ⟨⟨⟨by simp [hkeys], ?_⟩, Scalar.isRead_plain hpackage, himplementation⟩, by simp⟩
    simp [handroid, implementation, Block.keys]
  · exact ⟨himplementation, by simp [implementation]⟩

/-- What a plugin says of distinct platforms. -/
theorem isRead_platforms {rest : Block} (h : rest.IsRead) {targets : List Platform}
    (hnodup : (targets.map Platform.text ++ rest.keys).Nodup)
    (horganization : .android ∈ targets → IsAddress m.organization.toList) :
    (platforms m rest targets).IsRead := by
  induction targets with
  | nil => exact h
  | cons target targets ih =>
      obtain ⟨hnew, hnodup⟩ := List.nodup_cons.mp hnodup
      have hplatform : (platform m target).IsRead ∧ platform m target ≠ .nil :=
        isRead_platform hname fun handroid => horganization (by simp [handroid])
      refine ⟨⟨?_, ?_⟩, ⟨hplatform.2, hplatform.1⟩, ih hnodup fun hmem =>
        horganization (by simp [hmem])⟩
      · exact isPlainKey_keys _ (by cases target <;> decide)
      · rwa [keys_platforms]

end Platforms

/-! ## The whole mapping -/

/-- What a model must be for what stands behind the description to be read as it is written. -/
structure Unbroken (m : Model) : Prop where
  name : m.kind ≠ .application → Name.isIdentifier m.name.toList = true
  organization : m.kind = .plugin → .android ∈ m.platforms → IsAddress m.organization.toList
  platforms : m.kind = .plugin → m.platforms ≠ []
  distinct : m.platforms.Nodup

theorem isRead_further {m : Model} (h : Unbroken m) : (further m).IsRead := by
  unfold further
  cases hkind : m.kind with
  | application => exact isRead_application
  | plugin =>
      have hname := h.name (by simp [hkind])
      have hversion : IsPlain "0.0.1" := isPlain_texts _ (by decide)
      have hdistinct : (m.platforms.map Platform.text ++ Block.nil.keys).Nodup := by
        rw [Block.keys, List.append_nil]
        exact h.distinct.map fun first second => Layout.platform_of_text_eq
      have hplatforms : (platforms m .nil m.platforms).IsRead :=
        isRead_platforms hname (show Block.nil.IsRead from trivial) hdistinct (h.organization hkind)
      have hne : platforms m .nil m.platforms ≠ .nil := by
        cases htargets : m.platforms with
        | nil => exact absurd htargets (h.platforms hkind)
        | cons target targets => simp [platforms]
      exact isRead_library hversion hname (by simp [pluginSections, Block.keys])
        (isRead_pluginSections _ hne hplatforms)
  | package =>
      have hversion : IsPlain "1.0.0" := isPlain_texts _ (by decide)
      exact isRead_library hversion (h.name (by simp [hkind])) (by decide) isRead_packageSections

theorem keys_further (m : Model) :
    "name" ∉ (further m).keys ∧ "description" ∉ (further m).keys := by
  unfold further
  cases m.kind <;>
    simp [application, library, publication, packageSections, pluginSections, Block.keys]

theorem height_platforms (m : Model) (targets : List Platform) :
    (platforms m .nil targets).height ≤ 1 := by
  induction targets with
  | nil => simp [platforms, Block.height]
  | cons target targets ih =>
      have hfirst : (platform m target).height = 0 := by
        cases target <;> rfl
      simp [platforms, Block.height, hfirst, ih]

theorem height_further (m : Model) : (further m).height ≤ 4 := by
  unfold further
  cases m.kind with
  | application =>
      have happlication : application.height ≤ 4 := by decide
      exact happlication
  | plugin =>
      have hplatforms := height_platforms m m.platforms
      have hdependencies : ∀ isWeb, (pluginDependencies isWeb).height ≤ 1 := by decide
      have hflutter := hdependencies (m.platforms.contains .web)
      have henvironment : flutterEnvironment.height = 0 := rfl
      have hdevelopment : flutterDevelopment.height = 1 := rfl
      simp only [library, publication, pluginSections, Block.height, henvironment, hdevelopment]
      omega
  | package =>
      have hsections : packageSections.height ≤ 4 := by decide
      simpa [library, publication, Block.height] using hsections

theorem entries_platforms (m : Model) (targets : List Platform) :
    (platforms m .nil targets).entries =
      targets.map fun target => Model.sectionBinding target.text (m.platformEntries target) := by
  induction targets with
  | nil => rfl
  | cons target targets ih =>
      have hfirst : (platform m target).entries = m.platformEntries target := by
        cases target <;> rfl
      rw [platforms, Block.entries, hfirst, ih]
      rfl

theorem eraseDups_of_nodup {α : Type} [BEq α] [LawfulBEq α] {items : List α} (h : items.Nodup) :
    items.eraseDups = items := by
  induction items with
  | nil => rfl
  | cons x items ih =>
      obtain ⟨hnew, hnodup⟩ := List.nodup_cons.mp h
      have hfilter : items.filter (fun y => !y == x) = items := by
        rw [List.filter_eq_self]
        intro y hy
        simpa using fun heq : y = x => hnew (heq ▸ hy)
      rw [List.eraseDups_cons, hfilter, ih hnodup]

/-- What stands behind the description is what the template spells. -/
theorem entries_further {m : Model} (hdistinct : m.platforms.Nodup) :
    (further m).entries = m.metadata.drop 2 := by
  unfold further Model.metadata
  cases hkind : m.kind with
  | application => rfl
  | plugin =>
      simp only [library, publication, pluginSections, Block.entries, entries_platforms,
        eraseDups_of_nodup hdistinct, List.contains_eq_mem]
      by_cases hweb : .web ∈ m.platforms
      · rw [decide_eq_true hweb, if_pos hweb]
        rfl
      · rw [decide_eq_false hweb, if_neg hweb]
        rfl
  | package => rfl

/-! ## The name and the description -/

/-- A description in quotes. -/
def described (description : String) : Scalar :=
  .quoted (escaped description.toList ++ ['"']) description

theorem source_described (description : String) :
    (described description).source = (Json.quote description).toList := by
  simp [described, Scalar.quoted, Json.quote, escaped]

/-- A description is read as itself if it can be written in quotes, and is kept in them. -/
theorem isRead_described {description : String}
    (hwritable : ∀ c ∈ description.toList, isWritable c = true)
    (hkept : isKept description.toList = true) : (described description).IsRead := by
  have hquoted := isQuoted_of_isKept hkept
  rw [String.ofList_toList] at hquoted
  refine Scalar.isRead_quoted hquoted (List.forall_mem_append.mpr ⟨stored_escaped hwritable, ?_⟩)
  decide

/-- Metadata whose tokens end in a fault cannot be read. -/
theorem exists_parse_eq_error_of_fault {text : String} {fault : Fault}
    (h : (Tokens.ofText text.toList).fault = some fault) :
    ∃ failure, Metadata.parse text = .error failure := by
  obtain ⟨reason, hreason⟩ := exists_read_eq_error h
  rw [String.ofList_toList] at hreason
  rw [Metadata.parse, hreason]
  cases reason with
  | malformed defect => exact ⟨_, rfl⟩
  | unbuildable cause => exact ⟨_, rfl⟩

section Block

theorem isRead_block {m : Model} (h : Unbroken m) (blanks : Nat) {name description : Scalar}
    (hread : name.IsRead) (hdescribed : description.IsRead) :
    (block m blanks name description).IsRead :=
  isRead_titled hread hdescribed (keys_further m) (isRead_further h)

variable {m : Model} (h : Unbroken m) {blanks : Nat} {name description : Scalar}
  (hname : name.source ++ List.replicate blanks '\n' = m.name.toList)
  (hdescription : description.source = (Json.quote m.description).toList) (hread : name.IsRead)
  (hdescribed : description.IsRead)

include h hname hdescription hread hdescribed

/-- A file gives the text of the metadata back as it was written. -/
theorem stored_metadataText : ∀ c ∈ m.metadataText.toList, isStored c = true := by
  rw [← document_block hname hdescription]
  exact (isRead_block h blanks hread hdescribed).stored_document

/-- What is read from the text of the metadata, if its name and its description are read. -/
theorem parse_metadataText : Metadata.parse m.metadataText =
    .ok ((.text "name", name.value) :: (.text "description", description.value) ::
      m.metadata.drop 2) := by
  have hheight : (further m).height < mostNested :=
    Nat.lt_of_le_of_lt (height_further m) (by decide)
  have hyaml := (isRead_block h blanks hread hdescribed).read_eq (by simp [block, titled]) hheight
  rw [document_block hname hdescription, String.ofList_toList] at hyaml
  rw [Metadata.parse, hyaml, ← entries_further h.distinct]
  rfl

end Block

end Pubspec

end PackageScaffold
