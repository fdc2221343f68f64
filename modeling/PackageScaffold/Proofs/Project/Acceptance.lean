import PackageScaffold.Proofs.Project.Name

/-!
# Which requests are accepted

A request is looked at twice: part by part, and once more when a model is made of what came of the
parts.  The second look finds nothing that the first has not found, except for texts with halves of
character pairs, which are no texts.

* `Request.IsWritten`: the requests that can be written down;
* `Request.Passes`: what the parts of a request are looked at for;
* `ofRequest_eq_ofFields`: a model is made of the fields of a request that passes;
* `ofRequest_accepts_exactly`: which requests are accepted, what becomes of the others, and what is
  known of the models.
-/

namespace PackageScaffold

/-! ## Requests -/

/-- What is held as a text, also if halves of character pairs are in it. -/
inductive Value.IsWritten : Value → Prop
  | text (text : String) : IsWritten (.text text)
  | brokenText (codes : List Nat) : IsWritten (.brokenText codes)

namespace Request

/-- The options of a request are texts, where there are any, and whether files may be overwritten is
said. -/
structure IsWritten (request : Request) : Prop where
  name : request.name.IsWritten
  description : request.description = .null ∨ request.description.IsWritten
  author : request.author = .null ∨ request.author.IsWritten
  outputRoot : request.outputRoot = .null ∨ ∃ place, request.outputRoot = .text place
  force : ∃ answer, request.force = .bool answer

/-- Neither of the texts that stand in a model has a half of a character pair in it. -/
def HasWholeTexts (request : Request) : Prop :=
  (∀ codes, request.description ≠ .brokenText codes) ∧ ∀ codes, request.author ≠ .brokenText codes

/-- A request for a project of a kind passes if its name and its organization, or that of the
settings, are valid, and if its tags can be used: a package does not look at them, otherwise those
that count are known, and a plugin has one. -/
structure Passes (request : Request) (settings : Settings) (kind : Kind) : Prop where
  resolved : Kind.ofValue request.kind = .ok kind
  name : ∃ name, request.name = .text name ∧ Name.isPackageName name = true
  organization : Name.isOrganization (request.organizationOr settings) = true
  known : kind ≠ .package → ∀ tag ∈ Platform.counted (request.tags settings), Platform.IsTag tag
  named : kind = .plugin → Platform.counted (request.tags settings) ≠ []

/-- The fields that a model is made of: what the request says, or the defaults, and the platforms of
those kinds that have some. -/
def fields (request : Request) (settings : Settings) (kind : Kind) (platforms : List Platform) : Entries :=
  let outputRoot := match request.outputRoot with
    | .null => request.name
    | place => place
  [(.text "name", request.name),
   (.text "description", valueOr kind.standardDescription request.description),
   (.text "author", valueOr settings.author request.author),
   (.text "organization", .text (request.organizationOr settings)),
   (.text "output_root", outputRoot),
   (.text "force", request.force)] ++
    if kind = .package then []
    else [(.text "platforms", .list (platforms.map fun platform => .text platform.text))]

end Request

/-- What is known of an accepted model: applications and plugins have platforms, each once, packages
have none, and no text in it is empty. -/
structure Model.IsFilled (m : Model) : Prop where
  platforms : m.kind ≠ .package → m.platforms ≠ [] ∧ m.platforms.Nodup
  noPlatforms : m.kind = .package → m.platforms = []
  name : m.name ≠ ""
  description : m.description ≠ ""
  author : m.author ≠ ""
  organization : m.organization ≠ ""

/-! ## Texts -/

/-- With a default, a text is refused only for halves of character pairs. -/
theorem exists_readText_valueOr_iff {default : String} {value : Value} (hdefault : default ≠ "")
    (hvalue : value = .null ∨ value.IsWritten) :
    (∃ text, Conversion.readText 1 (valueOr default value) = .ok text) ↔
      ∀ codes, value ≠ .brokenText codes := by
  rcases hvalue with rfl | ⟨text⟩ | ⟨codes⟩
  · simpa [valueOr] using ⟨default, readText_text hdefault⟩
  · by_cases hempty : text = ""
    · subst hempty
      simpa [valueOr] using ⟨default, readText_text hdefault⟩
    · simpa [valueOr_text hempty] using ⟨text, readText_text hempty⟩
  · simp [valueOr, Conversion.readText]

theorem standardDescription_ne_empty (kind : Kind) : kind.standardDescription ≠ "" := by
  cases kind <;> decide

theorem readTextWhere_text {test : String → Bool} {text : String} (h : test text = true) :
    readTextWhere test (.text text) = .ok text := by
  simp [readTextWhere, Conversion.readText, bind, Except.bind, h]

/-- The tags of platforms are read as platforms again. -/
theorem readPlatformItems_texts (index : Nat) (platforms : List Platform) :
    readPlatformItems index (platforms.map fun platform => .text platform.text) =
      .ok platforms := by
  induction platforms generalizing index with
  | nil => rfl
  | cons platform platforms ih =>
      rw [List.map_cons, readPlatformItems]
      simp [Platform.ofTag?_text, ih]

namespace Request

variable {request : Request} {settings : Settings} {kind : Kind} {platforms : List Platform}

/-! ## The first look -/

theorem Passes.validName (h : request.Passes settings kind) :
    ∃ name, request.name = .text name ∧ Name.isPackageName name = true ∧
      request.validName = .ok name := by
  obtain ⟨name, hname, hvalid⟩ := h.name
  exact ⟨name, hname, hvalid, by rw [Request.validName, hname]; simp [hvalid]⟩

theorem Passes.exists_selectPlatforms (h : request.Passes settings kind) :
    ∃ platforms, request.selectPlatforms settings kind = .ok platforms :=
  exists_selectPlatforms_iff.mpr ⟨h.known, h.named⟩

theorem IsWritten.exists_place (h : request.IsWritten) (name : String) :
    ∃ place, request.place name = .ok place := by
  rcases h.outputRoot with hroot | ⟨place, hroot⟩ <;> exact ⟨_, by rw [Request.place, hroot]⟩

theorem IsWritten.misconfigured_of_validName {failure : Failure} (h : request.IsWritten)
    (hname : request.validName = .error failure) : ∃ cause, failure = .misconfigured cause := by
  have hwritten := h.name
  unfold Request.validName at hname
  generalize request.name = asked at hwritten hname
  cases hwritten with
  | text name =>
      simp only at hname
      split at hname
      · cases hname
      · exact ⟨_, (Except.error.inj hname).symm⟩
  | brokenText codes => exact ⟨_, (Except.error.inj hname).symm⟩

/-- What makes a model has passed. -/
theorem Makes.passes {m : Model} (h : request.Makes settings m) :
    request.Passes settings m.kind := by
  obtain ⟨hknown, hnamed⟩ := exists_selectPlatforms_iff.mp ⟨_, h.platforms⟩
  exact ⟨h.kind, ⟨_, Model.validName_eq_ok h.name⟩, h.organizationOr ▸ h.organization,
    hknown, hnamed⟩

/-! ## The second look -/

section Fields

variable (settings kind platforms)

/-- The name and the organization are read as they were found valid. -/
theorem requiredField_fields {name : String} (hname : request.name = .text name)
    (hvalid : Name.isPackageName name = true)
    (horganization : Name.isOrganization (request.organizationOr settings) = true) :
    requiredField (request.fields settings kind platforms) "name"
      (readTextWhere Name.isPackageName) =
        .ok name ∧
      requiredField (request.fields settings kind platforms) "organization"
        (readTextWhere Name.isOrganization) = .ok (request.organizationOr settings) := by
  constructor
  · simp [requiredField, fields, Entries.get?, hname, readTextWhere_text hvalid, Checked.ofField]
  · simp [requiredField, fields, Entries.get?, readTextWhere_text horganization, Checked.ofField]

theorem requiredField_fields_outputRoot {name : String} {place : Path}
    (hname : request.name = .text name)
    (hplace : request.place name = .ok place) :
    requiredField (request.fields settings kind platforms) "output_root" readPath = .ok place := by
  unfold Request.place at hplace
  split at hplace
  · rename_i hroot
    obtain rfl := Except.ok.inj hplace
    simp [requiredField, fields, Entries.get?, hroot, hname, readPath, Checked.ofField]
  · rename_i asked hroot
    obtain rfl := Except.ok.inj hplace
    simp [requiredField, fields, Entries.get?, hroot, readPath, Checked.ofField]
  · cases hplace

end Fields

theorem readKindField_fields :
    readKindField kind (request.fields settings kind platforms) = .ok () := by
  by_cases hpackage : kind = .package <;> simp [readKindField, fields, Entries.get?, hpackage]

/-- The platforms are read as they were selected. -/
theorem readPlatformsField_fields {least : Nat} (hkind : kind ≠ .package)
    (hleast : least ≤ platforms.length) :
    readPlatformsField least (request.fields settings kind platforms) = .ok platforms := by
  have hget : Entries.get? (request.fields settings kind platforms) "platforms" =
      some (.list (platforms.map fun platform => .text platform.text)) := by
    simp [fields, Entries.get?, hkind]
  simp [readPlatformsField, hget, readPlatformItems_texts, Nat.not_lt.mpr hleast]

end Request

namespace Model

variable {request : Request} {settings : Settings} {kind : Kind} {platforms : List Platform}

open Request in
/-- A request that passes makes the model of its fields, or is refused for what is wrong
with these. -/
theorem ofRequest_eq_ofFields (hwritten : request.IsWritten) (h : request.Passes settings kind)
    (hplatforms : request.selectPlatforms settings kind = .ok platforms) :
    ofRequest settings request =
      (ofFields kind (request.fields settings kind platforms)).mapError
        fun violations => .misconfigured (.invalidModel violations) := by
  obtain ⟨name, hname, hvalid, hvalidName⟩ := h.validName
  obtain ⟨place, hplace⟩ := hwritten.exists_place name
  obtain ⟨answer, hanswer⟩ := hwritten.force
  have horganization := h.organization
  have hselected := (selectPlatforms_sound hplatforms).2
  obtain ⟨hreadName, hreadOrganization⟩ :=
    requiredField_fields settings kind platforms hname hvalid horganization
  have hreadRoot := requiredField_fields_outputRoot settings kind platforms hname hplace
  have hforce : Checked.ofField "force" (Conversion.readTruth request.force) = .ok answer := by
    rw [hanswer]
    rfl
  have hreadForce : Settings.plainField (request.fields settings kind platforms) "force" false
      Conversion.readTruth = .ok answer := by
    simpa [Settings.plainField, Settings.field, fields, Entries.get?] using hforce
  have hdescription : requiredField (request.fields settings kind platforms) "description"
      (Conversion.readText 1) = Checked.ofField "description"
        (Conversion.readText 1 (valueOr kind.standardDescription request.description)) := by
    simp [requiredField, fields, Entries.get?]
  have hauthor : requiredField (request.fields settings kind platforms) "author"
      (Conversion.readText 1) = Checked.ofField "author"
        (Conversion.readText 1 (valueOr settings.author request.author)) := by
    simp [requiredField, fields, Entries.get?]
  unfold ofRequest ofFields
  simp only [h.resolved, hvalidName, horganization, hplace, hplatforms, hreadName,
    hreadOrganization, hreadRoot, readKindField_fields, hdescription, hauthor, hforce, hreadForce,
    Except.mapError, bind, Except.bind, pure, Except.pure, Bool.not_true, Bool.false_eq_true,
    if_false]
  -- both ways come to the same two texts, which may be refused
  generalize Checked.ofField "description" _ = description
  generalize Checked.ofField "author" _ = author
  have hrefused : ∀ failure : Failure, (throw failure : Except Failure Model) =
    .error failure := fun _ => rfl
  cases kind with
  | application =>
      rw [readPlatformsField_fields (by simp) (Nat.zero_le _)]
      cases description <;> cases author <;> simp [Checked.violations, hrefused]
  | plugin =>
      have hleast : 1 ≤ platforms.length := List.length_pos_of_ne_nil fun hnil => by
        simpa using hselected.mp hnil
      rw [readPlatformsField_fields (by simp) hleast]
      cases description <;> cases author <;> simp [Checked.violations, hrefused]
  | package =>
      rw [hselected.mpr rfl]
      cases description <;> cases author <;> simp [Checked.violations, hrefused]

/-- What is refused is refused as a misconfiguration. -/
theorem misconfigured_of_ofRequest {failure : Failure} (hwritten : request.IsWritten)
    (h : ofRequest settings request = .error failure) :
    ∃ cause, failure = .misconfigured cause := by
  have hraised {α : Type} {x : Except Misconfiguration α}
      (h : x.mapError Failure.misconfigured = .error failure) : ∃ cause,
        failure = .misconfigured cause :=
    (mapError_eq_error h).imp fun _ => Eq.symm
  unfold ofRequest at h
  rcases bind_eq_error h with hkind | ⟨kind, -, h⟩
  · exact hraised hkind
  rcases bind_eq_error h with hname | ⟨name, -, h⟩
  · exact hwritten.misconfigured_of_validName hname
  simp only at h
  split at h
  · rcases bind_eq_error h with hthrow | ⟨_, hthrow, -⟩
    · exact ⟨_, (Except.error.inj hthrow).symm⟩
    · cases hthrow
  · rcases bind_eq_error h with hplace | ⟨place, -, h⟩
    · obtain ⟨found, hfound⟩ := hwritten.exists_place name
      rw [hfound] at hplace
      cases hplace
    rcases bind_eq_error h with hplatforms | ⟨platforms, -, h⟩
    · exact hraised hplatforms
    split at h
    · cases h
    · exact ⟨_, (Except.error.inj h).symm⟩

/-- Which requests make a model. -/
theorem exists_ofRequest_iff (hsettings : settings.IsValid) (hwritten : request.IsWritten) :
    (∃ m, ofRequest settings request = .ok m) ↔
      (∃ kind, request.Passes settings kind) ∧ request.HasWholeTexts := by
  have hdescription kind :=
    exists_readText_valueOr_iff (standardDescription_ne_empty kind) hwritten.description
  have hauthor := exists_readText_valueOr_iff hsettings.1 hwritten.author
  constructor
  · rintro ⟨m, hm⟩
    have hmade := ofRequest_eq_ok_iff.mp hm
    exact ⟨⟨m.kind, hmade.passes⟩, (hdescription m.kind).mp ⟨_, hmade.description⟩,
      hauthor.mp ⟨_, hmade.author⟩⟩
  · rintro ⟨⟨kind, hpasses⟩, hwhole⟩
    obtain ⟨name, -, -, hvalidName⟩ := hpasses.validName
    obtain ⟨place, hplace⟩ := hwritten.exists_place name
    obtain ⟨platforms, hplatforms⟩ := hpasses.exists_selectPlatforms
    obtain ⟨description, hreadDescription⟩ := (hdescription kind).mpr hwhole.1
    obtain ⟨author, hreadAuthor⟩ := hauthor.mpr hwhole.2
    obtain ⟨answer, hanswer⟩ := hwritten.force
    have hforce : Conversion.readTruth request.force = .ok answer := by
      rw [hanswer]
      rfl
    exact ⟨_, ofRequest_eq_ok hpasses.resolved hvalidName hpasses.organization hplace hplatforms
      hreadDescription hreadAuthor hforce⟩

theorem isFilled_of_ofRequest {m : Model} (h : ofRequest settings request = .ok m) :
    m.IsFilled := by
  have hmade := ofRequest_eq_ok_iff.mp h
  obtain ⟨hnodup, hnil⟩ := Request.selectPlatforms_sound hmade.platforms
  exact {
    platforms := fun hkind => ⟨fun hempty => hkind (hnil.mp hempty), hnodup⟩
    noPlatforms := hnil.mpr
    name := Name.ne_empty_of_isPackageName (name_of_ofRequest h).2
    description := (Conversion.readText_eq_ok_iff.mp hmade.description).2
    author := (Conversion.readText_eq_ok_iff.mp hmade.author).2
    organization := Name.ne_empty_of_isOrganization hmade.organization }

/-! ## The result -/

/-- Under valid settings, a request makes a model if it passes and its texts are whole, and
otherwise it is refused as a misconfiguration.  Where it passes, a model is made of its fields, and
these are refused only for texts that are not whole.  What is known of every model is known of one
that was made. -/
theorem ofRequest_accepts_exactly (hsettings : settings.IsValid) (hwritten : request.IsWritten) :
    ((∃ m, ofRequest settings request = .ok m) ↔
        (∃ kind, request.Passes settings kind) ∧ request.HasWholeTexts) ∧
      (∀ failure, ofRequest settings request = .error failure → ∃ cause, failure = .misconfigured cause) ∧
      (∀ kind, request.Passes settings kind →
        ∃ platforms, request.selectPlatforms settings kind = .ok platforms ∧
          ofRequest settings request =
            (ofFields kind (request.fields settings kind platforms)).mapError
              (fun violations => .misconfigured (.invalidModel violations)) ∧
          ((∃ m, ofFields kind (request.fields settings kind platforms) = .ok m) ↔
            request.HasWholeTexts)) ∧
      ∀ m, ofRequest settings request = .ok m → m.IsFilled := by
  have haccepted := exists_ofRequest_iff hsettings hwritten
  refine ⟨haccepted, fun failure => misconfigured_of_ofRequest hwritten, fun kind hpasses => ?_,
    fun m => isFilled_of_ofRequest⟩
  obtain ⟨platforms, hplatforms⟩ := hpasses.exists_selectPlatforms
  have hfields := ofRequest_eq_ofFields hwritten hpasses hplatforms
  refine ⟨platforms, hplatforms, hfields, ?_⟩
  rw [hfields] at haccepted
  simp only [mapError_eq_ok_iff] at haccepted
  rw [haccepted]
  exact and_iff_right ⟨kind, hpasses⟩

/-- A plugin whose platforms are written with blanks, upper-case letters and a repetition, and whose
other options are empty. -/
theorem ofRequest_accepts_plugin :
    let request : Request :=
      { kind := .text " Plugin ", name := .text "geo_tag", description := .text "",
        organization := some "", platforms := some (.text " Web, ,ios,web") }
    Settings.standard.IsValid ∧ request.IsWritten ∧ request.Passes Settings.standard .plugin ∧
      ∃ m, ofRequest Settings.standard request = .ok m ∧ m.IsFilled := by
  intro request
  have hsettings : Settings.standard.IsValid := by
    refine ⟨?_, ?_, ?_⟩ <;> decide
  have hwritten : request.IsWritten :=
    ⟨.text _, .inr (.text _), .inl rfl, .inl rfl, false, rfl⟩
  have hcounted : Platform.counted (request.tags Settings.standard) = ["web", "ios", "web"] := by
    decide
  have hpasses : request.Passes Settings.standard .plugin := by
    refine ⟨by decide, ⟨_, rfl, by decide⟩, by decide, fun _ => ?_, fun _ => ?_⟩
    · have hweb : Platform.IsTag "web" := ⟨.web, rfl⟩
      have hios : Platform.IsTag "ios" := ⟨.ios, rfl⟩
      simp [hcounted, hweb, hios]
    · simp [hcounted]
  obtain ⟨haccepted, -, -, hfilled⟩ := ofRequest_accepts_exactly hsettings hwritten
  obtain ⟨m, hm⟩ := haccepted.mpr ⟨⟨_, hpasses⟩, by simp [request], by simp [request]⟩
  exact ⟨hsettings, hwritten, hpasses, m, hm, hfilled m hm⟩

/-- A request that passes is refused for a description that ends in half of a character pair. -/
theorem ofRequest_refuses_halves :
    let request : Request :=
      { kind := .text "package", name := .text "x", description := .brokenText [0x61, 0xD800] }
    Settings.standard.IsValid ∧ request.IsWritten ∧ request.Passes Settings.standard .package ∧
      ofRequest Settings.standard request =
        .error (.misconfigured (.invalidModel [⟨["description"], .textUndecodable⟩])) ∧
      ¬ ((∃ m, ofRequest Settings.standard request = .ok m) ↔
        ∃ kind, request.Passes Settings.standard kind) := by
  intro request
  have hpasses : request.Passes Settings.standard .package :=
    ⟨by decide, ⟨_, rfl, by decide⟩, by decide, by simp, by simp⟩
  have hauthor : Conversion.readText 1 (valueOr Settings.standard.author request.author) =
      .ok Settings.standard.author := readText_text (by decide)
  have hrefused : ofRequest Settings.standard request =
      .error (.misconfigured (.invalidModel [⟨["description"], .textUndecodable⟩])) := by
    obtain ⟨name, -, -, hname⟩ := hpasses.validName
    unfold ofRequest
    simp only [hpasses.resolved, hname, hpasses.organization, hauthor, Except.mapError, bind,
      Except.bind, Bool.not_true, Bool.false_eq_true, if_false]
    rfl
  refine ⟨by refine ⟨?_, ?_, ?_⟩ <;> decide, ⟨.text _, .inr (.brokenText _), .inl rfl,
    .inl rfl, false, rfl⟩, hpasses, hrefused, fun hiff => ?_⟩
  obtain ⟨m, hm⟩ := hiff.mpr ⟨_, hpasses⟩
  rw [hrefused] at hm
  cases hm

end Model

end PackageScaffold
