import PackageScaffold.Project.Model
import PackageScaffold.Proofs.Except
import PackageScaffold.Proofs.Project.Tags

/-!
# Models of requests

A request is looked at part by part, and the first part that does not fit ends it.  `Request.Makes`
is all that holds of a request and its model, and `ofRequest_eq_ok_iff` that nothing else is needed.

* `Request.Makes`, `Model.ofRequest_eq_ok_iff`: the model of a request, part by part;
* `Request.exists_selectPlatforms_iff`, `Request.selectPlatforms_sound`: when platforms are selected, and
  what is known of them then.
-/

namespace PackageScaffold

/-- A model has the kind and the platforms that it was made with; a package has no platforms. -/
theorem Variety.kind_of (kind : Kind) (platforms : List Platform) :
    (Variety.of kind platforms).kind = kind ∧
      (kind ≠ .package → (Variety.of kind platforms).platforms = platforms) := by
  cases kind <;> simp [Variety.of, Variety.kind, Variety.platforms]

theorem Variety.of_kind_platforms (variety : Variety) :
    Variety.of variety.kind variety.platforms = variety := by
  cases variety <;> rfl

theorem Kind.ofValue_text (kind : Kind) : Kind.ofValue (.text kind.text) = .ok kind := by
  cases kind <;> decide

/-! ## Texts with a default -/

theorem readText_text {text : String} (h : text ≠ "") :
    Conversion.readText 1 (.text text) = .ok text := by
  have hlength : ¬ text.length < 1 := by
    simpa [Nat.lt_one_iff] using h
  rw [Conversion.readText, if_neg hlength]

theorem valueOr_text {text default : String} (h : text ≠ "") :
    valueOr default (.text text) = .text text := by
  unfold valueOr
  split <;> simp_all

/-! ## Platforms -/

/-- The tags that platforms are read from: those of the settings unless the request has some. -/
def Request.tags (request : Request) (settings : Settings) : List String :=
  match request.platforms with
  | none => settings.platforms
  | some (.text tags) => Text.split ',' tags
  | some (.list tags) => tags

theorem Request.platforms_getD (request : Request) (settings : Settings) :
    (request.platforms.getD (.list settings.platforms)).platforms =
      Platform.ofList (request.tags settings) := by
  unfold tags
  cases request.platforms with
  | none => rfl
  | some asked => cases asked <;> rfl

namespace Request

variable {request : Request} {settings : Settings} {kind : Kind} {platforms : List Platform}

/-- Platforms are selected unless a tag is unknown, or a plugin is left without any; a package takes
none, whatever the tags are. -/
theorem exists_selectPlatforms_iff :
    (∃ platforms, request.selectPlatforms settings kind = .ok platforms) ↔
    (kind ≠ .package → ∀ tag ∈ Platform.counted (request.tags settings), Platform.IsTag tag) ∧
      (kind = .plugin → Platform.counted (request.tags settings) ≠ []) := by
  rw [← Platform.exists_ofList_iff]
  unfold selectPlatforms
  rw [platforms_getD]
  cases kind with
  | package => simp [pure, Except.pure]
  | application =>
      cases Platform.ofList (request.tags settings) <;> simp [bind, Except.bind, pure, Except.pure]
  | plugin =>
      cases hread : Platform.ofList (request.tags settings) with
      | error cause => simp [bind, Except.bind]
      | ok found =>
          have hnil := Platform.eq_nil_iff_of_ofList hread
          cases found with
          | nil => simp [bind, Except.bind, throw, throwThe, MonadExceptOf.throw, hnil.mp rfl]
          | cons first rest =>
              have hne : Platform.counted (request.tags settings) ≠ [] := fun h => by
                simpa using hnil.mpr h
              simp [bind, Except.bind, pure, Except.pure, hne]

/-- The selected platforms are distinct, and only a package has none. -/
theorem selectPlatforms_sound (h : request.selectPlatforms settings kind = .ok platforms) :
    platforms.Nodup ∧ (platforms = [] ↔ kind = .package) := by
  unfold selectPlatforms at h
  rw [platforms_getD] at h
  cases kind with
  | package =>
      obtain rfl := Except.ok.inj h
      simp
  | application =>
      obtain ⟨found, hfound, h⟩ := bind_eq_ok h
      obtain rfl := Except.ok.inj h
      cases found with
      | nil => decide
      | cons first rest => simpa using Platform.nodup_of_ofList hfound
  | plugin =>
      obtain ⟨found, hfound, h⟩ := bind_eq_ok h
      cases found with
      | nil => simp [throw, throwThe, MonadExceptOf.throw, bind, Except.bind] at h
      | cons first rest =>
          obtain rfl := Except.ok.inj h
          simpa using Platform.nodup_of_ofList hfound

/-! ## Part by part -/

/-- Every part of a model is what a request asks for, or what the settings have where it asks for
nothing. -/
structure Makes (request : Request) (settings : Settings) (m : Model) : Prop where
  kind : Kind.ofValue request.kind = .ok m.kind
  name : request.validName = .ok m.name
  organizationOr : request.organizationOr settings = m.organization
  organization : Name.isOrganization m.organization = true
  outputRoot : request.place m.name = .ok m.outputRoot
  platforms : request.selectPlatforms settings m.kind = .ok m.platforms
  description : Conversion.readText 1 (valueOr m.kind.standardDescription request.description) =
    .ok m.description
  author : Conversion.readText 1 (valueOr settings.author request.author) = .ok m.author
  force : Conversion.readTruth request.force = .ok m.force

end Request

namespace Model

variable {request : Request} {settings : Settings} {m : Model}

/-- A request whose parts can all be read makes a model of them. -/
theorem ofRequest_eq_ok {kind : Kind}
    {name description author : String} {outputRoot : Path} {platforms : List Platform}
    {force : Bool}
    (hkind : Kind.ofValue request.kind = .ok kind) (hname : request.validName = .ok name)
    (horganization : Name.isOrganization (request.organizationOr settings) = true)
    (hroot : request.place name = .ok outputRoot)
    (hplatforms : request.selectPlatforms settings kind = .ok platforms)
    (hdescription : Conversion.readText 1 (valueOr kind.standardDescription request.description) =
      .ok description)
    (hauthor : Conversion.readText 1 (valueOr settings.author request.author) = .ok author)
    (hforce : Conversion.readTruth request.force = .ok force) :
    Model.ofRequest settings request =
      .ok { variety := Variety.of kind platforms, name, description, author,
            organization := request.organizationOr settings, outputRoot, force } := by
  unfold ofRequest
  rw [hkind, hname]
  simp only [Except.mapError, bind, Except.bind, horganization, Bool.not_true, Bool.false_eq_true,
    if_false, hroot, hplatforms, hdescription, hauthor, hforce, Checked.ofField]
  rfl

theorem ofRequest_eq_ok_iff : ofRequest settings request = .ok m ↔ request.Makes settings m := by
  constructor
  · intro h
    unfold ofRequest at h
    obtain ⟨kind, hkind, h⟩ := bind_eq_ok h
    obtain ⟨name, hname, h⟩ := bind_eq_ok h
    rw [mapError_eq_ok_iff] at hkind
    simp only at h
    split at h
    · obtain ⟨_, hthrow, -⟩ := bind_eq_ok h
      simp at hthrow
    · rename_i horganization
      obtain ⟨outputRoot, hroot, h⟩ := bind_eq_ok h
      obtain ⟨platforms, hplatforms, h⟩ := bind_eq_ok h
      rw [mapError_eq_ok_iff] at hplatforms
      split at h
      · rename_i description author force hdescription hauthor hforce
        obtain rfl := Except.ok.inj h
        rw [Checked.ofField_eq_ok_iff] at hdescription hauthor hforce
        obtain ⟨hof, hsame⟩ := Variety.kind_of kind platforms
        -- a package has no platforms to select, and the other kinds keep theirs
        have hselected : (Variety.of kind platforms).platforms = platforms := by
          by_cases hpackage : kind = .package
          · subst hpackage
            exact ((Request.selectPlatforms_sound hplatforms).2.mpr rfl).symm
          · exact hsame hpackage
        refine ⟨?_, hname, rfl, by simpa using horganization, hroot, ?_, ?_, hauthor, hforce⟩
        · rw [hkind, Model.kind, hof]
        · rw [Model.kind, hof, Model.platforms, hselected, hplatforms]
        · rw [Model.kind, hof, hdescription]
      · simp at h
  · intro h
    rw [ofRequest_eq_ok h.kind h.name (h.organizationOr ▸ h.organization) h.outputRoot h.platforms
      h.description h.author h.force, h.organizationOr, Model.kind, Model.platforms,
      Variety.of_kind_platforms]

end Model

end PackageScaffold
