import Mathlib.Data.List.Nodup
import PackageScaffold.Proofs.Plan.Assembly
import PackageScaffold.Proofs.Review.AndroidPackage
import PackageScaffold.Proofs.Yaml.Names

/-!
# What a review makes of metadata of any shape

Metadata are a mapping, and that is all that is known of them: where a review looks for a mapping,
there may be a value of any other shape, and the settings may be of no use either.  A review goes on
all the same.  What it asks for is made or refused as a misconfiguration, and what it asks for then
is always made.

* `plugin_of_mem_declaredIn`, `nodup_declaredIn`: only plugins declare platforms, and each one once;
* `nameIn_eq_some_iff`: a valid name is found where it is declared, and no other;
* `derived_of_parse`: whatever was parsed, a review derives the name, the kind, the platforms and the
  bindings from it, and refuses none of it.
-/

namespace PackageScaffold

variable {metadata : Entries}

/-! ## Platforms -/

/-- Where a platform is declared, there is a plugin section. -/
theorem plugin_of_mem_declaredIn {platform : Platform}
    (h : platform ∈ Platform.declaredIn metadata) :
    Kind.ofMetadata metadata = .plugin := by
  cases hflutter : Entries.get? metadata "flutter" with
  | none => simp [Platform.declaredIn, hflutter] at h
  | some flutter =>
      cases hplugin : flutter.get? "plugin" with
      | none => simp [Platform.declaredIn, hflutter, hplugin] at h
      | some plugin => simp [Kind.ofMetadata, hflutter, hplugin]

theorem declaredIn_eq_nil (h : Kind.ofMetadata metadata ≠ .plugin) :
    Platform.declaredIn metadata = [] :=
  List.eq_nil_iff_forall_not_mem.mpr fun _ hmem => h (plugin_of_mem_declaredIn hmem)

/-- The mapping in which metadata declare platforms; it has no entries if there is none. -/
def Platform.entriesIn (metadata : Entries) : Entries :=
  ((Entries.get? metadata "flutter").bind fun flutter =>
    (flutter.get? "plugin").bind fun plugin => (plugin.get? "platforms").bind Value.entries?).getD []

/-- The declared platforms are those that names are tags of. -/
theorem declaredIn_eq_filterMap :
    Platform.declaredIn metadata = (Platform.entriesIn metadata).names.filterMap
      Platform.ofTag? := by
  rw [Entries.names, List.filterMap_filterMap]
  refine congrArg (List.filterMap · (Platform.entriesIn metadata)) (funext fun ⟨key, value⟩ => ?_)
  cases key <;> rfl

/-- Platforms with different tags are different. -/
theorem nodup_filterMap_ofTag? {names : List String} (h : names.Nodup) :
    (names.filterMap Platform.ofTag?).Nodup := by
  refine h.filterMap fun first second platform hfirst hsecond => ?_
  rw [Option.mem_def, Platform.ofTag?_eq_some_iff] at hfirst hsecond
  exact hfirst.symm.trans hsecond

/-- Where no name is there twice, no platform is declared twice. -/
theorem nodup_declaredIn (h : (Value.map metadata).NamesOnce) :
    (Platform.declaredIn metadata).Nodup := by
  rw [declaredIn_eq_filterMap]
  refine nodup_filterMap_ofTag? ?_
  unfold Platform.entriesIn
  cases hplatforms : ((Entries.get? metadata "flutter").bind fun flutter =>
    (flutter.get? "plugin").bind fun plugin => (plugin.get? "platforms").bind Value.entries?) with
  | none => exact .nil
  | some entries =>
      obtain ⟨flutter, hflutter, hplatforms⟩ := Option.bind_eq_some_iff.mp hplatforms
      obtain ⟨plugin, hplugin, hplatforms⟩ := Option.bind_eq_some_iff.mp hplatforms
      obtain ⟨platforms, hget, hentries⟩ := Option.bind_eq_some_iff.mp hplatforms
      have hflutterOnce : flutter.NamesOnce := h.get? hflutter
      exact ((hflutterOnce.get? hplugin).get? hget).nodup hentries

/-! ## Names -/

namespace Subject

/-- The name of a package is the one that its metadata declare, if that is valid. -/
theorem nameIn_eq_some_iff {name : String} :
    nameIn metadata = some name ↔
      Entries.get? metadata "name" = some (.text name) ∧ Name.isPackageName name = true := by
  unfold nameIn
  split
  · rename_i declared hdeclared
    rw [hdeclared, Option.ite_none_right_eq_some, Option.some.injEq, Option.some.injEq,
      Value.text.injEq]
    constructor
    · rintro ⟨hvalid, rfl⟩
      exact ⟨rfl, hvalid⟩
    · rintro ⟨rfl, hvalid⟩
      exact ⟨hvalid, rfl⟩
  · rename_i hnone
    simp only [reduceCtorEq, false_iff, not_and]
    exact fun hdeclared => absurd hdeclared (hnone name)

/-- The files of a review are named after the package, or after no package in particular. -/
theorem projectName_of_modelFor {settings : Settings} {root : Path} {m : Model}
    (h : modelFor settings root metadata = .ok m) (today : Date) :
    Entries.get? (m.layout today).bindings "project_name" =
      some (.text ((nameIn metadata).getD fallbackName)) := by
  have hname : m.name = (nameIn metadata).getD fallbackName := (name_of_modelFor h).1
  rw [(Layout.namesPaths_layout m today).name, ← hname]
  rfl

end Subject

/-! ## The result -/

/-- Whatever mapping was parsed, and whatever the settings, a review finds the declared name if it
is valid, and platforms only for plugins, each one once.  What it asks for is refused as a
misconfiguration at most, and there is a model in any case; so where these metadata are found there
is a subject, with what was found and with the bindings that its files are made with. -/
theorem derived_of_parse {text : String} (h : Metadata.parse text = .ok metadata) (settings : Settings)
    (root : Path) (today : Date) :
    (∀ name, Subject.nameIn metadata = some name ↔
      Entries.get? metadata "name" = some (.text name) ∧ Name.isPackageName name = true) ∧
    (Platform.declaredIn metadata).Nodup ∧
    (Kind.ofMetadata metadata ≠ .plugin → Platform.declaredIn metadata = []) ∧
    (∀ failure, Model.ofRequest settings (Subject.requestFor root metadata) = .error failure →
      ∃ cause, failure = .misconfigured cause) ∧
    ∃ m, Subject.modelFor settings root metadata = .ok m ∧
      Entries.get? (m.layout today).bindings "project_name" =
        some (.text ((Subject.nameIn metadata).getD fallbackName)) ∧
      ∀ strict d, Subject.readMetadata d root = .ok (some (.ok metadata)) →
        ∃ s, Subject.ofDisk settings today strict root d = .ok s ∧ s.metadata = some metadata ∧
          s.defect = none ∧ s.name = Subject.nameIn metadata ∧ s.kind = Kind.ofMetadata metadata ∧
          s.platforms = Platform.declaredIn metadata ∧ s.layout = m.layout today := by
  refine ⟨fun name => Subject.nameIn_eq_some_iff, nodup_declaredIn (Metadata.namesOnce_of_parse h),
    declaredIn_eq_nil, fun failure => Model.misconfigured_of_ofRequest Subject.isWritten_requestFor,
      ?_⟩
  obtain ⟨m, hmodel⟩ := exists_modelFor settings root metadata
  exact ⟨m, hmodel, Subject.projectName_of_modelFor hmodel today, fun strict d hfound =>
    ⟨_, Subject.ofDisk_of_readMetadata hfound hmodel, rfl, rfl, rfl, rfl, rfl, rfl⟩⟩

/-- Metadata of an odd shape: no valid name, a platform that is declared twice, and one
that is none. -/
def oddText : String :=
  "name: Odd-Shape\nflutter:\n  plugin:\n    platforms:\n      ios: [1]\n      1: web\n      ios:\n      moon: []\n"

def oddDisk : Disk :=
  { tree := .directory [("odd", .directory [("pubspec.yaml", .file (.text oddText))])] }

/-- They make a subject, even with settings that no model can be made with. -/
theorem derived_of_odd :
    let root := Path.ofString "odd"
    let settings : Settings := { Settings.standard with organization := "x", platforms := ["moon"] }
    ∃ metadata failure s, Metadata.parse oddText = .ok metadata ∧
      Model.ofRequest settings (Subject.requestFor root metadata) = .error failure ∧
      Subject.ofDisk settings ⟨2024, 3, 5⟩ true root oddDisk = .ok s ∧ s.metadata = some metadata ∧
      s.name = none ∧ s.kind = .plugin ∧ s.platforms = [.ios] ∧
      Entries.get? s.layout.bindings "project_name" = some (.text "package_name") := by
  intro root settings
  have hderived : (Metadata.parse oddText).map (fun metadata => (Subject.nameIn metadata,
      Kind.ofMetadata metadata, Platform.declaredIn metadata,
      (Model.ofRequest settings (Subject.requestFor root metadata)).isOk)) =
      .ok (none, .plugin, [.ios], false) := by
    decide +kernel
  obtain ⟨metadata, hparse, hderived⟩ := map_eq_ok hderived
  simp only [Prod.mk.injEq] at hderived
  obtain ⟨hname, hkind, hplatforms, hrefused⟩ := hderived
  cases hrequest : Model.ofRequest settings (Subject.requestFor root metadata) with
  | ok m => simp [hrequest, Except.isOk, Except.toBool] at hrefused
  | error failure =>
      obtain ⟨-, -, -, -, m, -, hbinding, hfound⟩ :=
        derived_of_parse hparse settings root ⟨2024, 3, 5⟩
      have hthere : oddDisk.exists? (root.extend metadataFile) = .ok true := by decide +kernel
      have hread : oddDisk.read (root.extend metadataFile) = .ok oddText := by decide +kernel
      obtain ⟨s, hs, hmetadata, -, hsName, hsKind, hsPlatforms, hlayout⟩ := hfound true oddDisk
        (by rw [Subject.readMetadata_of_there hthere, hread]; simp only [bind, Except.bind, hparse])
      rw [hname] at hbinding hsName
      exact ⟨metadata, failure, s, hparse, hrequest, hs, hmetadata, hsName, hsKind.trans hkind,
        hsPlatforms.trans hplatforms, hlayout ▸ hbinding⟩

end PackageScaffold
