import PackageScaffold.Proofs.Catalogue.Mention
import PackageScaffold.Proofs.Except
import PackageScaffold.Proofs.Project.Name
import PackageScaffold.Proofs.Project.Tags
import PackageScaffold.Review.Subject

/-!
# Reading a project back

A review makes files from a model that it reads off the metadata.  For a project that was created by
the toolkit, the metadata spell its name and its description, and those of a plugin spell its
platforms and its Android package.  The author and everything else come from the settings.

* `Model.IsValid`: what holds of every model that a request or fields make;
* `Model.IsSpelledBy`: metadata that spell a model;
* `modelFor_of_isSpelledBy`: the model that is read off them is alike to the first one, and has its
  organization if there are Android sources;
* `exists_modelFor`: whatever the metadata hold, there is a model to make files from.
-/

namespace PackageScaffold

/-! ## Valid models -/

/-- What holds of every model that is made from a request or from fields. -/
structure Model.IsValid (m : Model) : Prop where
  name : Name.isPackageName m.name = true
  description : m.description ≠ ""
  author : m.author ≠ ""
  organization : Name.isOrganization m.organization = true
  platforms : m.kind = .plugin → m.platforms ≠ []

theorem Model.isValid_of_ofRequest {settings : Settings} {request : Request} {m : Model}
    (h : Model.ofRequest settings request = .ok m) : m.IsValid := by
  have hmade := ofRequest_eq_ok_iff.mp h
  refine ⟨(name_of_ofRequest h).2, ?_, ?_, hmade.organization, fun hplugin hnil => ?_⟩
  · exact (Conversion.readText_eq_ok_iff.mp hmade.description).2
  · exact (Conversion.readText_eq_ok_iff.mp hmade.author).2
  · have hpackage := (Request.selectPlatforms_sound hmade.platforms).2.mp hnil
    simp [hplugin] at hpackage

theorem requiredField_eq_ok {α : Type} {entries : Entries} {name : String}
    {read : Value → Except Complaint α} {value : α}
    (h : requiredField entries name read = .ok value) :
    ∃ found, read found = .ok value := by
  unfold requiredField at h
  split at h
  · exact ⟨_, Checked.ofField_eq_ok_iff.mp h⟩
  · simp at h

theorem readTextWhere_eq_ok {test : String → Bool} {value : Value} {text : String}
    (h : readTextWhere test value = .ok text) : test text = true := by
  obtain ⟨read, -, h⟩ := bind_eq_ok h
  split at h
  · obtain rfl := Except.ok.inj h
    assumption
  · simp at h

theorem readPlatformsField_ne_nil {entries : Entries} {platforms : List Platform}
    (h : readPlatformsField 1 entries = .ok platforms) : platforms ≠ [] := by
  unfold readPlatformsField at h
  split at h
  · obtain rfl := Except.ok.inj h
    simp [Platform.standard]
  · split at h
    · split at h
      · simp at h
      · rename_i hlength
        obtain rfl := Except.ok.inj h
        rintro rfl
        simp at hlength
    · simp at h
  · simp at h

theorem Model.isValid_of_ofFields {kind : Kind} {entries : Entries} {m : Model}
    (h : Model.ofFields kind entries = .ok m) : m.IsValid := by
  unfold ofFields at h
  simp only at h
  split at h
  · rename_i name description author organization outputRoot force platforms hname hdescription
      hauthor horganization hroot hforce hkindField hplatforms
    obtain rfl := Except.ok.inj h
    obtain ⟨_, hname⟩ := requiredField_eq_ok hname
    obtain ⟨_, hdescription⟩ := requiredField_eq_ok hdescription
    obtain ⟨_, hauthor⟩ := requiredField_eq_ok hauthor
    obtain ⟨_, horganization⟩ := requiredField_eq_ok horganization
    refine ⟨readTextWhere_eq_ok hname, (Conversion.readText_eq_ok_iff.mp hdescription).2,
      (Conversion.readText_eq_ok_iff.mp hauthor).2, readTextWhere_eq_ok horganization, ?_⟩
    intro hkind
    change (Variety.of kind platforms).kind = .plugin at hkind
    obtain ⟨hof, hsame⟩ := Variety.kind_of kind platforms
    rw [hof] at hkind
    subst hkind
    change (Variety.of .plugin platforms).platforms ≠ []
    rw [hsame (by simp)]
    exact readPlatformsField_ne_nil hplatforms
  · simp at h

/-! ## Metadata that spell a model -/

/-- The text that a value is, if it is one. -/
def Value.text? : Value → Option String
  | .text value => some value
  | _ => none

/-- The entries of a plain mapping. -/
def Value.mapping? : Value → Option Entries
  | .map entries => some entries
  | _ => none

theorem Value.text?_eq_some_iff {value : Value} {text : String} :
    value.text? = some text ↔ value = .text text := by
  cases value <;> simp [Value.text?]

theorem Value.mapping?_eq_some_iff {value : Value} {entries : Entries} :
    value.mapping? = some entries ↔ value = .map entries := by
  cases value <;> simp [Value.mapping?]

/-- The text that a name is bound to. -/
def Entries.text? (entries : Entries) (name : String) : Option String :=
  (Entries.get? entries name).bind Value.text?

/-- The mapping that a name is bound to. -/
def Entries.mapping? (entries : Entries) (name : String) : Option Entries :=
  (Entries.get? entries name).bind Value.mapping?

theorem Entries.text?_eq_some_iff {entries : Entries} {name text : String} :
    Entries.text? entries name = some text ↔ Entries.get? entries name = some (.text text) := by
  simp [Entries.text?, Option.bind_eq_some_iff, Value.text?_eq_some_iff]

theorem Entries.mapping?_eq_some_iff {entries found : Entries} {name : String} :
    Entries.mapping? entries name = some found ↔ Entries.get? entries name = some (.map found) := by
  simp [Entries.mapping?, Option.bind_eq_some_iff, Value.mapping?_eq_some_iff]

/-- What the metadata of a project of some kind say about Flutter: nothing in a package, nothing of
a plugin in an application, and in a plugin the platforms in their order, with the package of the
Android sources. -/
def Model.SpellsFlutter (m : Model) (metadata : Entries) : Kind → Prop
  | .application => ∃ flutter ∈ Entries.mapping? metadata "flutter",
      (Entries.get? flutter "plugin").isNone
  | .plugin => ∃ flutter ∈ Entries.mapping? metadata "flutter",
      ∃ plugin ∈ Entries.mapping? flutter "plugin",
      ∃ platforms ∈ Entries.mapping? plugin "platforms",
        platforms.map (·.1.text?) = m.platforms.eraseDups.map (fun platform => some platform.text) ∧
        (.android ∈ m.platforms → ∃ android ∈ Entries.mapping? platforms "android",
          Entries.text? android "package" = some m.androidPackage)
  | .package => (Entries.get? metadata "flutter").isNone ∧
      ((Entries.get? metadata "dependencies").bind (·.get? "flutter")).isNone

instance (m : Model) (metadata : Entries) :
    (kind : Kind) → Decidable (m.SpellsFlutter metadata kind)
  | .application | .plugin | .package => by
    unfold Model.SpellsFlutter
    infer_instance

/-- Metadata that spell a model: its name, its description and what its kind says about Flutter. -/
structure Model.IsSpelledBy (m : Model) (metadata : Entries) : Prop where
  name : Entries.text? metadata "name" = some m.name
  description : Entries.text? metadata "description" = some m.description
  flutter : m.SpellsFlutter metadata m.kind

instance (m : Model) (metadata : Entries) : Decidable (m.IsSpelledBy metadata) :=
  decidable_of_iff (Entries.text? metadata "name" = some m.name ∧
      Entries.text? metadata "description" = some m.description ∧ m.SpellsFlutter metadata m.kind)
    ⟨fun ⟨name, description, flutter⟩ => ⟨name, description, flutter⟩,
      fun ⟨name, description, flutter⟩ => ⟨name, description, flutter⟩⟩

/-! ## What is read off the metadata -/

section Spelled

variable {m : Model} {metadata : Entries}

theorem Value.get?_map (entries : Entries) (name : String) :
    (Value.map entries).get? name = Entries.get? entries name := rfl

namespace Model.IsSpelledBy

theorem application (h : m.IsSpelledBy metadata) (hkind : m.kind = .application) :
    ∃ flutter, Entries.get? metadata "flutter" = some (.map flutter) ∧
      Entries.get? flutter "plugin" = none := by
  have hflutter := h.flutter
  rw [hkind] at hflutter
  obtain ⟨flutter, hsection, hplugin⟩ := hflutter
  exact ⟨flutter, Entries.mapping?_eq_some_iff.mp hsection, Option.isNone_iff_eq_none.mp hplugin⟩

theorem plugin (h : m.IsSpelledBy metadata) (hkind : m.kind = .plugin) :
    ∃ flutter plugin platforms, Entries.get? metadata "flutter" = some (.map flutter) ∧
      Entries.get? flutter "plugin" = some (.map plugin) ∧
      Entries.get? plugin "platforms" = some (.map platforms) ∧
      platforms.map (·.1.text?) = m.platforms.eraseDups.map (fun platform => some platform.text) ∧
      (.android ∈ m.platforms → ∃ android, Entries.get? platforms "android" = some (.map android) ∧
        Entries.get? android "package" = some (.text m.androidPackage)) := by
  have hflutter := h.flutter
  rw [hkind] at hflutter
  obtain ⟨flutter, hsection, plugin, hplugin, platforms, hplatforms, hkeys, hpackage⟩ := hflutter
  refine ⟨flutter, plugin, platforms, Entries.mapping?_eq_some_iff.mp hsection,
    Entries.mapping?_eq_some_iff.mp hplugin, Entries.mapping?_eq_some_iff.mp hplatforms, hkeys,
    fun handroid => ?_⟩
  obtain ⟨android, hentry, hpackage⟩ := hpackage handroid
  exact ⟨android, Entries.mapping?_eq_some_iff.mp hentry, Entries.text?_eq_some_iff.mp hpackage⟩

theorem package (h : m.IsSpelledBy metadata) (hkind : m.kind = .package) :
    Entries.get? metadata "flutter" = none ∧
      ((Entries.get? metadata "dependencies").bind (·.get? "flutter")) = none := by
  have hflutter := h.flutter
  rw [hkind] at hflutter
  exact ⟨Option.isNone_iff_eq_none.mp hflutter.1, Option.isNone_iff_eq_none.mp hflutter.2⟩

end Model.IsSpelledBy

theorem nameIn_of_isSpelledBy (h : m.IsSpelledBy metadata)
    (hname : Name.isPackageName m.name = true) : Subject.nameIn metadata = some m.name := by
  simp [Subject.nameIn, Entries.text?_eq_some_iff.mp h.name, hname]

theorem descriptionIn_of_isSpelledBy (h : m.IsSpelledBy metadata) :
    Subject.descriptionIn metadata = .text m.description := by
  simp [Subject.descriptionIn, Entries.text?_eq_some_iff.mp h.description]

theorem ofMetadata_of_isSpelledBy (h : m.IsSpelledBy metadata) :
    Kind.ofMetadata metadata = m.kind := by
  unfold Kind.ofMetadata
  cases hkind : m.kind with
  | application =>
      obtain ⟨flutter, hsection, hplugin⟩ := h.application hkind
      simp [hsection, Value.get?_map, hplugin]
  | plugin =>
      obtain ⟨flutter, plugin, platforms, hsection, hplugin, -⟩ := h.plugin hkind
      simp [hsection, Value.get?_map, hplugin]
  | package =>
      obtain ⟨hsection, hdependencies⟩ := h.package hkind
      have hnone : (((Entries.get? metadata "dependencies").getD .null).get? "flutter") = none := by
        cases hget : Entries.get? metadata "dependencies" with
        | none => rfl
        | some dependencies => simpa [hget] using hdependencies
      have hnull : (Value.null).get? "plugin" = none := rfl
      simp [hsection, hnone, hnull]

/-- Keys that are the texts of platforms are read as these platforms. -/
theorem filterMap_ofTag?_keys {entries : Entries} {declared : List Platform}
    (hkeys : entries.map (·.1.text?) = declared.map fun platform => some platform.text) :
    entries.filterMap (fun entry => match entry.1 with
      | .text tag => Platform.ofTag? tag
      | _ => none) = declared := by
  induction entries generalizing declared with
  | nil => simpa using hkeys
  | cons entry rest ih =>
      cases declared with
      | nil => simp at hkeys
      | cons platform declared =>
          obtain ⟨hfirst, hrest⟩ := List.cons.inj hkeys
          rw [List.filterMap_cons, Value.text?_eq_some_iff.mp hfirst]
          simp only [Platform.ofTag?_text, ih hrest]

/-- The platforms of a plugin are read back, each once. -/
theorem declaredIn_of_isSpelledBy (h : m.IsSpelledBy metadata) :
    Platform.declaredIn metadata = if m.kind = .plugin then m.platforms.eraseDups else [] := by
  unfold Platform.declaredIn
  cases hkind : m.kind with
  | application =>
      obtain ⟨flutter, hsection, hplugin⟩ := h.application hkind
      simp [hsection, Value.get?_map, hplugin]
  | plugin =>
      obtain ⟨flutter, plugin, platforms, hsection, hplugin, hplatforms, hkeys, -⟩ := h.plugin hkind
      simp only [hsection, hplugin, hplatforms, Option.bind_some, Value.get?_map, Value.entries?,
        Option.getD_some, if_true]
      exact filterMap_ofTag?_keys hkeys
  | package =>
      simp [(h.package hkind).1]

/-- An organization is read off an Android package that joins it with the name. -/
theorem organizationIn_of_join {name organization : String}
    (horganization : Name.isOrganization organization = true)
    (hpackage : Subject.androidPackageIn metadata = some (organization ++ "." ++ name)) :
    Subject.organizationIn metadata name = some organization := by
  have hchars : (organization ++ "." ++ name).toList = organization.toList ++ '.' :: name.toList := by
    simp
  have hending : Subject.withoutEnding ('.' :: name.toList)
      (organization.toList ++ '.' :: name.toList) = organization.toList := by
    rw [Subject.withoutEnding, if_pos (by simp), List.length_append, Nat.add_sub_cancel,
      List.take_left]
  simp only [Subject.organizationIn, hpackage, hchars, hending, String.ofList_toList, horganization,
    bind, Option.bind, if_true]

/-- The organization of a plugin is read back from the package of its Android sources. -/
theorem organizationIn_of_isSpelledBy (h : m.IsSpelledBy metadata)
    (horganization : Name.isOrganization m.organization = true) (hkind : m.kind = .plugin)
    (handroid : .android ∈ m.platforms) :
    Subject.organizationIn metadata m.name = some m.organization := by
  obtain ⟨flutter, plugin, platforms, hsection, hplugin, hplatforms, -, hpackage⟩ := h.plugin hkind
  obtain ⟨android, hentry, hpackage⟩ := hpackage handroid
  refine organizationIn_of_join horganization ?_
  simp [Subject.androidPackageIn, hsection, hplugin, hplatforms, hentry, hpackage, Value.get?_map,
    Model.androidPackage]

/-- Whatever organization is read off metadata is valid. -/
theorem isOrganization_of_organizationIn {name organization : String}
    (h : Subject.organizationIn metadata name = some organization) :
    Name.isOrganization organization = true := by
  unfold Subject.organizationIn at h
  cases hpackage : Subject.androidPackageIn metadata with
  | none => simp [hpackage] at h
  | some package =>
      simp only [hpackage, bind, Option.bind] at h
      split at h
      · obtain rfl := Option.some.inj h
        assumption
      · simp at h

/-- What a review asks for where the metadata spell a model. -/
def Model.rereading (m : Model) (metadata : Entries) (root : Path) : Request where
  kind := .text m.kind.text
  name := .text m.name
  description := .text m.description
  organization := Subject.organizationIn metadata m.name
  platforms := if (Platform.declaredIn metadata).isEmpty then none
    else some (.list ((Platform.declaredIn metadata).map Platform.text))
  outputRoot := .text root.text

theorem isOrganization_rereading {settings : Settings}
    (horganization : Name.isOrganization settings.organization = true) (root : Path) :
    Name.isOrganization ((m.rereading metadata root).organizationOr settings) = true := by
  unfold Request.organizationOr
  split
  · exact horganization
  · exact horganization
  · rename_i hread
    exact isOrganization_of_organizationIn hread

theorem organizationOr_rereading (h : m.IsSpelledBy metadata) (hvalid : m.IsValid)
    (hkind : m.kind = .plugin) (handroid : .android ∈ m.platforms) (settings : Settings)
    (root : Path) : (m.rereading metadata root).organizationOr settings = m.organization := by
  have hread := organizationIn_of_isSpelledBy h hvalid.organization hkind handroid
  have hne := Name.ne_empty_of_isOrganization hvalid.organization
  simp only [Request.organizationOr, Model.rereading, hread]

theorem exists_selectPlatforms_rereading (h : m.IsSpelledBy metadata) (hvalid : m.IsValid)
    {settings : Settings}
    (hplatforms : ∃ platforms, Platform.ofList settings.platforms = .ok platforms)
    (root : Path) :
    ∃ platforms, (m.rereading metadata root).selectPlatforms settings m.kind = .ok platforms := by
  have hdeclared := declaredIn_of_isSpelledBy h
  cases hkind : m.kind with
  | application =>
      obtain ⟨found, hfound⟩ := hplatforms
      have hlist : ((m.rereading metadata root).platforms.getD
          (.list settings.platforms)).platforms = .ok found := by
        simpa [Model.rereading, hdeclared, hkind, PlatformRequest.platforms] using hfound
      simp only [Request.selectPlatforms, hlist]
      exact ⟨_, rfl⟩
  | plugin =>
      have hne : m.platforms.eraseDups ≠ [] := by
        obtain ⟨first, rest, hcons⟩ := List.exists_cons_of_ne_nil (hvalid.platforms hkind)
        rw [hcons, List.eraseDups_cons]
        simp
      obtain ⟨found, hfound, hfoundNe⟩ := Platform.exists_ofList_texts m.platforms.eraseDups
      have hlist : ((m.rereading metadata root).platforms.getD
          (.list settings.platforms)).platforms = .ok found := by
        simpa [Model.rereading, hdeclared, hkind, hne, PlatformRequest.platforms] using hfound
      have hnil : found.isEmpty = false := by
        simpa using hfoundNe hne
      simp only [Request.selectPlatforms, hlist]
      exact ⟨found, by simp [hnil, bind, Except.bind, pure, Except.pure]⟩
  | package => exact ⟨[], rfl⟩

/-- The model that is read off the metadata of a project is alike to the one that the project was
made from. -/
theorem modelFor_of_isSpelledBy {settings : Settings} (h : m.IsSpelledBy metadata)
    (hvalid : m.IsValid)
    (hauthor : m.author = settings.author)
    (horganization : Name.isOrganization settings.organization = true)
    (hplatforms : ∃ platforms, Platform.ofList settings.platforms = .ok platforms) (root : Path) :
    ∃ m', Subject.modelFor settings root metadata = .ok m' ∧ m.Alike m' ∧
      (m.kind = .plugin → .android ∈ m.platforms → m'.organization = m.organization) := by
  obtain ⟨platforms, hselect⟩ := exists_selectPlatforms_rereading h hvalid hplatforms root
  have hdescription : Conversion.readText 1 (valueOr m.kind.standardDescription
      (m.rereading metadata root).description) = .ok m.description := by
    rw [Model.rereading, valueOr_text hvalid.description, readText_text hvalid.description]
  have hauthor' : Conversion.readText 1
      (valueOr settings.author (m.rereading metadata root).author) =
      .ok settings.author :=
    readText_text (hauthor ▸ hvalid.author)
  have hname : (m.rereading metadata root).validName = .ok m.name := by
    simp [Request.validName, Model.rereading, hvalid.name]
  have hkind : Kind.ofValue (m.rereading metadata root).kind = .ok m.kind :=
    Kind.ofValue_text m.kind
  have hmodel := Model.ofRequest_eq_ok hkind hname (isOrganization_rereading horganization root) rfl
    hselect hdescription hauthor' rfl
  obtain ⟨m', hread, halike, hsame⟩ : ∃ m', Model.ofRequest settings (m.rereading metadata root) =
      .ok m' ∧ m.Alike m' ∧ m'.organization = (m.rereading metadata root).organizationOr settings :=
    ⟨_, hmodel, ⟨(Variety.kind_of m.kind platforms).1, rfl, rfl, hauthor.symm⟩, rfl⟩
  refine ⟨m', ?_, halike, fun hplugin handroid => ?_⟩
  · rw [Model.rereading] at hread
    unfold Subject.modelFor
    simp only [nameIn_of_isSpelledBy h hvalid.name, ofMetadata_of_isSpelledBy h,
      descriptionIn_of_isSpelledBy h, Option.getD_some, hread]
  · rw [hsame, organizationOr_rereading h hvalid hplugin handroid]

end Spelled

/-! ## Models for any metadata -/

theorem isPackageName_nameIn (metadata : Entries) :
    Name.isPackageName ((Subject.nameIn metadata).getD fallbackName) = true := by
  unfold Subject.nameIn
  split
  · split
    · assumption
    · decide
  · decide

theorem Subject.isValid_of_modelFor {settings : Settings} {root : Path} {metadata : Entries}
    {m : Model}
    (h : modelFor settings root metadata = .ok m) : m.IsValid := by
  unfold modelFor at h
  simp only at h
  split at h
  · rename_i hrequest
    obtain rfl := Except.ok.inj h
    exact Model.isValid_of_ofRequest hrequest
  · exact Model.isValid_of_ofRequest h

/-- Whatever the metadata hold, files can be made from some model: where they do not make a valid
one, the defaults do. -/
theorem exists_modelFor (settings : Settings) (root : Path) (metadata : Entries) :
    ∃ model, Subject.modelFor settings root metadata = .ok model := by
  unfold Subject.modelFor
  simp only
  split
  · exact ⟨_, rfl⟩
  · have hname := isPackageName_nameIn metadata
    generalize (Subject.nameIn metadata).getD fallbackName = name at hname
    generalize Kind.ofMetadata metadata = kind
    obtain ⟨platforms, hplatforms⟩ : ∃ platforms,
        ({ kind := .text kind.text, name := .text name, outputRoot := .text root.text } :
          Request).selectPlatforms .standard kind = .ok platforms := by
      cases kind <;> exact ⟨_, rfl⟩
    have hvalidName :
      ({ kind := .text kind.text, name := .text name, outputRoot := .text root.text } :
        Request).validName = .ok name := by
      simp only [Request.validName, hname, if_true]
    have horganization : Name.isOrganization Settings.standard.organization = true := by decide
    have hdescription : Conversion.readText 1 (valueOr kind.standardDescription .null) =
        .ok kind.standardDescription := readText_text (by cases kind <;> decide)
    have hauthor : Conversion.readText 1 (valueOr Settings.standard.author .null) =
        .ok Settings.standard.author := readText_text (by decide)
    exact ⟨_, Model.ofRequest_eq_ok (Kind.ofValue_text kind) hvalidName horganization rfl hplatforms
      hdescription hauthor rfl⟩

end PackageScaffold
