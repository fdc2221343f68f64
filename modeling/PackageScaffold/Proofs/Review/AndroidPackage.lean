import PackageScaffold.Proofs.Catalogue.Signature
import PackageScaffold.Proofs.Project.Acceptance
import PackageScaffold.Proofs.Review.Rereading
import PackageScaffold.Proofs.Review.Run

/-!
# The Android package that repairs use

A review reads the organization of a plugin off the Android package that its metadata declare, and
joins it with the name of the plugin again where Android sources are made.  What is declared comes
back only if it is an organization and that name; and what is read is given up, with everything
else, where the description makes no valid model.

* `Subject.requestFor`, `modelFor_cases`: what a review asks for, and what it makes do with;
* `DeclaresOwnPackage`: the metadata whose Android package is used as it is declared;
* `androidPackage_of_metadata`: there are no others, and there the Android side of a plugin that a
  repair writes lies in the declared package and declares it.
-/

namespace PackageScaffold

/-! ## What is declared -/

/-- The declared Android package is an organization and the name of the project, and the
organization is the standard one if the description has half of a character pair in it. -/
def DeclaresOwnPackage (metadata : Entries) (name package : String) : Prop :=
  ∃ organization, Name.isOrganization organization = true ∧ package = organization ++ "." ++ name ∧
    ((∃ codes, Subject.descriptionIn metadata = .brokenText codes) →
      organization = Settings.standard.organization)

variable {metadata : Entries} {name package : String}

/-- Metadata that declare an Android package are those of a plugin for Android. -/
theorem plugin_of_androidPackageIn (h : Subject.androidPackageIn metadata = some package) :
    Kind.ofMetadata metadata = .plugin ∧ .android ∈ Platform.declaredIn metadata := by
  unfold Subject.androidPackageIn at h
  obtain ⟨flutter, hflutter, h⟩ := Option.bind_eq_some_iff.mp h
  obtain ⟨plugin, hplugin, h⟩ := Option.bind_eq_some_iff.mp h
  obtain ⟨platforms, hplatforms, h⟩ := Option.bind_eq_some_iff.mp h
  obtain ⟨android, handroid, h⟩ := Option.bind_eq_some_iff.mp h
  constructor
  · simp [Kind.ofMetadata, hflutter, hplugin]
  · obtain ⟨entries, hentries, hget⟩ := Option.bind_eq_some_iff.mp handroid
    refine List.mem_filterMap.mpr ⟨(.text "android", android), ?_, Platform.ofTag?_text .android⟩
    simpa [hflutter, hplugin, hplatforms, hentries] using Entries.mem_of_get? hget

/-! ## What a review asks for -/

namespace Subject

variable {settings : Settings} {root : Path} {m : Model}

/-- What a review asks for. -/
def requestFor (root : Path) (metadata : Entries) : Request where
  kind := .text (Kind.ofMetadata metadata).text
  name := .text ((nameIn metadata).getD fallbackName)
  description := descriptionIn metadata
  organization := organizationIn metadata ((nameIn metadata).getD fallbackName)
  platforms := if (Platform.declaredIn metadata).isEmpty then none
    else some (.list ((Platform.declaredIn metadata).map Platform.text))
  outputRoot := .text root.text

theorem isWritten_requestFor : (requestFor root metadata).IsWritten where
  name := .text _
  description := by
    change descriptionIn metadata = .null ∨ (descriptionIn metadata).IsWritten
    unfold descriptionIn
    split
    · exact .inr (.text _)
    · exact .inr (.brokenText _)
    · exact .inl rfl
  author := .inl rfl
  outputRoot := .inr ⟨_, rfl⟩
  force := ⟨false, rfl⟩

theorem hasWholeTexts_requestFor :
    (requestFor root metadata).HasWholeTexts ↔
      ¬ ∃ codes, descriptionIn metadata = .brokenText codes := by
  simp [Request.HasWholeTexts, requestFor]

/-- What a review makes do with: nothing but the kind and the name, on the standard settings. -/
def plainRequestFor (root : Path) (metadata : Entries) : Request where
  kind := .text (Kind.ofMetadata metadata).text
  name := .text ((nameIn metadata).getD fallbackName)
  outputRoot := .text root.text

/-- A review makes do with less where it is refused what it asks for. -/
theorem modelFor_cases (h : modelFor settings root metadata = .ok m) :
    Model.ofRequest settings (requestFor root metadata) = .ok m ∨
      (∀ other, Model.ofRequest settings (requestFor root metadata) ≠ .ok other) ∧
        Model.ofRequest .standard (plainRequestFor root metadata) = .ok m := by
  unfold modelFor at h
  simp only at h
  rw [← requestFor, ← plainRequestFor] at h
  split at h
  · rename_i model hmodel
    exact .inl (hmodel.trans h)
  · rename_i failure hfailure
    refine .inr ⟨fun other hother => ?_, h⟩
    rw [hfailure] at hother
    cases hother

theorem organizationOr_requestFor {organization : String} (hname : nameIn metadata = some name)
    (hdeclared : organizationIn metadata name = some organization) :
    (requestFor root metadata).organizationOr settings = organization := by
  have hne := Name.ne_empty_of_isOrganization (isOrganization_of_organizationIn hdeclared)
  simp only [Request.organizationOr, requestFor, hname, Option.getD_some, hdeclared]

/-- With an organization that is declared for Android, a review asks for what passes. -/
theorem passes_requestFor {organization : String} (hname : nameIn metadata = some name)
    (hpackage : androidPackageIn metadata = some package)
    (hdeclared : organizationIn metadata name = some organization) :
    (requestFor root metadata).Passes settings .plugin := by
  obtain ⟨hkind, handroid⟩ := plugin_of_androidPackageIn hpackage
  have hne : (Platform.declaredIn metadata).isEmpty = false := by
    simpa using List.ne_nil_of_mem handroid
  have htags : Platform.counted ((requestFor root metadata).tags settings) =
      (Platform.declaredIn metadata).map Platform.text := by
    simp [Request.tags, requestFor, hne, Platform.counted_texts]
  refine ⟨?_, ⟨_, rfl, isPackageName_nameIn metadata⟩, ?_, fun _ => ?_, fun _ => ?_⟩
  · rw [requestFor, hkind]
    exact Kind.ofValue_text .plugin
  · rw [organizationOr_requestFor hname hdeclared]
    exact isOrganization_of_organizationIn hdeclared
  · rw [htags]
    exact fun tag htag => (List.mem_map.mp htag).imp fun _ => And.right
  · rw [htags]
    simpa using List.ne_nil_of_mem handroid

/-- A review has a model, and its Android package is the declared one exactly where this is the
organization and the name of the project. -/
theorem modelFor_declaresOwnPackage (hsettings : settings.IsValid)
    (hname : nameIn metadata = some name)
    (hpackage : androidPackageIn metadata = some package)
    (h : modelFor settings root metadata = .ok m) :
    m.androidPackage = package ↔ DeclaresOwnPackage metadata name package := by
  have hmodelName : m.name = name := by
    rw [(name_of_modelFor h).1, hname, Option.getD_some]
  constructor
  · intro heq
    refine ⟨m.organization, (isValid_of_modelFor h).organization, ?_, fun ⟨codes, hbroken⟩ => ?_⟩
    · rw [← heq, Model.androidPackage, hmodelName]
    · rcases modelFor_cases h with hasked | ⟨-, hplain⟩
      · have hwhole :=
          ((Model.exists_ofRequest_iff hsettings isWritten_requestFor).mp ⟨m, hasked⟩).2
        exact absurd ⟨codes, hbroken⟩ (hasWholeTexts_requestFor.mp hwhole)
      · exact (Model.ofRequest_eq_ok_iff.mp hplain).organizationOr.symm
  · rintro ⟨organization, hvalid, rfl, hbroken⟩
    have hdeclared := organizationIn_of_join hvalid hpackage
    have hpasses : (requestFor root metadata).Passes settings .plugin :=
      passes_requestFor hname hpackage hdeclared
    suffices horganization : m.organization = organization by
      rw [Model.androidPackage, horganization, hmodelName]
    -- the model is what the metadata ask for, or a plain one where that is refused
    rcases modelFor_cases h with hasked | ⟨hrefused, hplain⟩
    · rw [← (Model.ofRequest_eq_ok_iff.mp hasked).organizationOr,
        organizationOr_requestFor hname hdeclared]
    · rw [← (Model.ofRequest_eq_ok_iff.mp hplain).organizationOr]
      refine (hbroken ?_).symm
      by_contra hwhole
      obtain ⟨other, hother⟩ := (Model.exists_ofRequest_iff hsettings isWritten_requestFor).mpr
        ⟨⟨_, hpasses⟩, hasWholeTexts_requestFor.mpr hwhole⟩
      exact hrefused other hother

end Subject

/-! ## The Android side of a plugin -/

/-- The directory of a package, with a slash for each of its dots. -/
def packageDirectory (package : String) : String :=
  String.ofList (package.toList.map fun c => if c == '.' then '/' else c)

/-- The file with the Android side of a plugin, in the directory of its package. -/
def androidStubPath (name package : String) : String :=
  "android/src/main/java/" ++ packageDirectory package ++ "/" ++ Name.pascalCase name ++ "Plugin.java"

theorem get?_androidPackage (m : Model) (today : Date) :
    Entries.get? (m.bindings today) "android_package" = some (.text m.androidPackage) := by
  simp [Model.bindings, Model.textBinding, Model.switchBinding, Model.listBinding, Entries.get?]

/-- The plan for the Android side makes one file, which declares the package whose
directory it is in. -/
theorem renderPlan_androidStub (m : Model) (today : Date) :
    ∃ text, (∀ strict, renderPlan strict [(m.layout today).pluginStub .android] =
        .ok [(androidStubPath m.name m.androidPackage, text)]) ∧
      ("package " ++ m.androidPackage ++ ";\n").toList <+: text.toList := by
  obtain ⟨text, htext⟩ := Catalogue.rendersAll_bindings m today "native/plugin/android"
    (by decide +kernel)
  exact ⟨text, fun strict => renderPlan_file (l := m.layout today) (htext strict) _,
    Catalogue.prefix_render_androidStub (get?_androidPackage m today) (htext true)⟩

section Repairs

variable {s : Subject} {d : Disk} {entries : List PlanEntry}

/-- What brings back the directory for Android is the Android side of a plugin. -/
theorem eq_pluginStub_of_fix (h : Fix s d "android" entries) :
    entries = [s.layout.pluginStub .android] := by
  have hslash : '/' ∉ "android".toList := by decide
  generalize hpath : "android" = path at h hslash
  cases h with
  | document hdocument hmissing =>
      subst hpath
      simp [documentFiles, readmeFile, analysisFile] at hdocument
  | sources hmissing => simp at hpath
  | library hmissing => simp [Layout.libraryPath] at hslash
  | tests hnamed hmissing => simp at hpath
  | part hentry hmissing =>
      rcases hentry with rfl | rfl
      · simp [Layout.platformInterface] at hslash
      · simp [Layout.methodChannel] at hslash
  | native platform hmissing =>
      by_cases hweb : platform = .web
      · subst hweb
        simp [nativePath] at hslash
      · rw [nativePath_of_ne_web _ hweb] at hpath
        have hplatform : Platform.android.text = platform.text := hpath
        rw [← Platform.text_injective hplatform]

end Repairs

/-! ## The result -/

/-- Whatever the metadata of a plugin declare as its Android package, files are made with bindings,
and these bind the declared package exactly where it is an organization and the name of the plugin,
with a description that is whole or the standard organization.  There, the Android side that a
repair brings back is one file in the directory of the declared package, and declares that package;
a repair brings it back where the layout was looked at and there is nothing for Android. -/
theorem androidPackage_of_metadata {settings : Settings} (hsettings : settings.IsValid)
    (hname : Subject.nameIn metadata = some name)
    (hpackage : Subject.androidPackageIn metadata = some package) (root : Path) (today : Date) :
    ∃ m, Subject.modelFor settings root metadata = .ok m ∧
      (Entries.get? (m.layout today).bindings "android_package" = some (.text package) ↔
        DeclaresOwnPackage metadata name package) ∧
      ∀ strict d, Subject.readMetadata d root = .ok (some (.ok metadata)) →
        ∃ s, Subject.ofDisk settings today strict root d = .ok s ∧ s.layout = m.layout today ∧
          (DeclaresOwnPackage metadata name package → ∀ entries, ("android", entries) ∈ repairsOf s d →
            ∃ text, (∀ strictly, renderPlan strictly entries = .ok [(androidStubPath name package, text)]) ∧
              ("package " ++ package ++ ";\n").toList <+: text.toList) ∧
          ((checkLayout s d).isOk = true → hasContent d (s.inside "android") = .ok false →
            ∃ entries, ("android", entries) ∈ repairsOf s d) := by
  obtain ⟨m, hmodel⟩ := exists_modelFor settings root metadata
  have hdeclares := Subject.modelFor_declaresOwnPackage hsettings hname hpackage hmodel
  have hmodelName : m.name = name := by
    rw [(Subject.name_of_modelFor hmodel).1, hname, Option.getD_some]
  refine ⟨m, hmodel, ?_, fun strict d hfound => ?_⟩
  · rw [← hdeclares, Model.layout, get?_androidPackage, Option.some.injEq, Value.text.injEq]
  · obtain ⟨hkind, handroid⟩ := plugin_of_androidPackageIn hpackage
    have hread : Subject.ofDisk settings today strict root d = .ok _ :=
      Subject.ofDisk_of_readMetadata hfound hmodel
    refine ⟨_, hread, rfl, fun hdeclared entries hmem => ?_, fun hlayout hmissing => ?_⟩
    · rw [eq_pluginStub_of_fix (fix_of_mem_repairs (Subject.sound_of_ofDisk hread) hmem),
        ← hdeclares.mpr hdeclared, ← hmodelName]
      exact renderPlan_androidStub m today
    · obtain ⟨checks, hchecks⟩ := exists_eq_ok_of_isOk hlayout
      exact ⟨_, mem_repairsOf_native hchecks hname hkind handroid hmissing⟩

/-- A plugin for Android without its Android side. -/
def bareDisk : Disk :=
  { tree := .directory [("geo", .directory [("pubspec.yaml", .file (.text
      "name: geo\nflutter:\n  plugin:\n    platforms:\n      android:\n        package: io.acme.geo\n"))])] }

theorem readMetadata_bareDisk :
    ∃ metadata, Subject.readMetadata bareDisk (Path.ofString "geo") = .ok (some (.ok metadata)) ∧
      Subject.nameIn metadata = some "geo" ∧ Subject.androidPackageIn metadata =
        some "io.acme.geo" ∧
      Entries.get? metadata "description" = none := by
  have hread : (Subject.readMetadata bareDisk (Path.ofString "geo")).map (fun found =>
      (found.bind Except.toOption).map fun metadata => (Subject.nameIn metadata,
        Subject.androidPackageIn metadata, (Entries.get? metadata "description").isNone)) =
      .ok (some (some "geo", some "io.acme.geo", true)) := by
    decide +kernel
  obtain ⟨metadata, hfound, hread⟩ := Subject.exists_readMetadata_of_map hread
  rw [Prod.mk.injEq, Prod.mk.injEq, Option.isNone_iff_eq_none] at hread
  exact ⟨metadata, hfound, hread⟩

/-- A package that ends in the name is used as it is declared. -/
theorem androidPackage_of_geo :
    let root := Path.ofString "geo"
    let today : Date := ⟨2024, 3, 5⟩
    ∃ metadata m s entries text, Settings.standard.IsValid ∧ Subject.nameIn metadata = some "geo" ∧
      Subject.androidPackageIn metadata = some "io.acme.geo" ∧
      Subject.modelFor .standard root metadata = .ok m ∧
      Entries.get? (m.layout today).bindings "android_package" = some (.text "io.acme.geo") ∧
      Subject.ofDisk .standard today false root bareDisk = .ok s ∧
      ("android", entries) ∈ repairsOf s bareDisk ∧
      renderPlan false entries = .ok [("android/src/main/java/io/acme/geo/GeoPlugin.java", text)] ∧
      "package io.acme.geo;\n".toList <+: text.toList := by
  intro root today
  obtain ⟨metadata, hfound, hname, hpackage, hdescription⟩ := readMetadata_bareDisk
  have hsettings : Settings.standard.IsValid := by
    refine ⟨?_, ?_, ?_⟩ <;> decide
  have hdeclares : DeclaresOwnPackage metadata "geo" "io.acme.geo" :=
    ⟨"io.acme", by decide, by decide, fun ⟨codes, hbroken⟩ => by
      simp [Subject.descriptionIn, hdescription] at hbroken⟩
  obtain ⟨m, hmodel, hbinding, hread⟩ :=
    androidPackage_of_metadata hsettings hname hpackage root today
  obtain ⟨s, hs, -, hstub, hrepair⟩ := hread false _ hfound
  have hlooked : (Subject.ofDisk .standard today false root bareDisk).map (fun s =>
      (checkLayout s bareDisk).isOk) = .ok true := by
    decide +kernel
  rw [hs] at hlooked
  have hmissing : hasContent bareDisk (s.inside "android") = .ok false := by
    rw [Subject.inside, Subject.root_of_ofDisk hs]
    decide +kernel
  obtain ⟨entries, hentries⟩ := hrepair (Except.ok.inj hlooked) hmissing
  obtain ⟨text, htext, hprefix⟩ := hstub hdeclares entries hentries
  have hpath : androidStubPath "geo" "io.acme.geo" =
      "android/src/main/java/io/acme/geo/GeoPlugin.java" := by
    decide +kernel
  exact ⟨metadata, m, s, entries, text, hsettings, hname, hpackage, hmodel, hbinding.mpr hdeclares,
    hs, hentries, hpath ▸ htext false, hprefix⟩

end PackageScaffold
