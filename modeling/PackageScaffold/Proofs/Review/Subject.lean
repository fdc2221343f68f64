import PackageScaffold.Proofs.Except
import PackageScaffold.Proofs.Files.Computation
import PackageScaffold.Proofs.Path
import PackageScaffold.Proofs.Project.Name
import PackageScaffold.Review.Subject

/-!
# What is known of a package under review

A subject is read from a disk.  Whatever the metadata hold, its layout has a valid name, which is
the one that the metadata declare if they declare a valid one.

* `sound_of_ofDisk`: what every subject that was read satisfies;
* `ofDisk_of_grows`: a disk on which nothing new stands at the metadata file reads the same;
* `ofDisk_of_date`: the date only matters to the bindings of the layout.
-/

namespace PackageScaffold

open Disk

namespace Subject

/-! ## Names -/

theorem name_of_modelFor {settings : Settings} {root : Path} {metadata : Entries} {m : Model}
    (h : modelFor settings root metadata = .ok m) :
    m.name = (nameIn metadata).getD fallbackName ∧ Name.isPackageName m.name = true := by
  unfold modelFor at h
  simp only at h
  split at h
  · rename_i model hmodel
    obtain rfl := Except.ok.inj h
    obtain ⟨hname, hvalid⟩ := Model.name_of_ofRequest hmodel
    exact ⟨(Value.text.inj hname).symm, hvalid⟩
  · obtain ⟨hname, hvalid⟩ := Model.name_of_ofRequest h
    exact ⟨(Value.text.inj hname).symm, hvalid⟩

/-- What holds of every subject that was read from a disk. -/
structure Sound (s : Subject) : Prop where
  /-- Files are made with a valid name. -/
  named : Name.isPackageName s.layout.model.name = true
  /-- They are made with the name of the package, if it has a valid one. -/
  name_eq : ∀ {name}, s.name = some name → s.layout.model.name = name
  /-- They are made with what their model binds. -/
  layout_eq : ∃ today, s.layout = s.layout.model.layout today

/-! ## Reading -/

section Read

variable {settings : Settings} {today : Date} {strict : Bool} {root : Path} {d d₁ : Disk}
  {s : Subject}

/-- Metadata that are there are read, and a failure to do so is kept if it is one to report. -/
theorem readMetadata_of_there (h : d.exists? (root.extend metadataFile) = .ok true) :
    readMetadata d root =
      match d.read (root.extend metadataFile) >>= Metadata.parse with
      | .ok metadata => .ok (some (.ok metadata))
      | .error failure =>
        if failure.isExpected then .ok (some (.error failure.message)) else .error failure := by
  simp only [readMetadata, h]
  rfl

/-- Metadata that are found were parsed. -/
theorem exists_parse_of_readMetadata {metadata : Entries}
    (h : readMetadata d root = .ok (some (.ok metadata))) :
    ∃ text, Metadata.parse text = .ok metadata := by
  obtain ⟨isThere, hthere, -⟩ := bind_eq_ok h
  cases isThere with
  | false => simp [readMetadata, hthere, bind, Except.bind, pure, Except.pure] at h
  | true =>
      rw [readMetadata_of_there hthere] at h
      split at h
      · rename_i parsed hparsed
        obtain rfl : parsed = metadata := by simpa using h
        obtain ⟨text, -, hparse⟩ := bind_eq_ok hparsed
        exact ⟨text, hparse⟩
      · split at h <;> simp at h

/-- Metadata are found where something can be said of them. -/
theorem exists_readMetadata_of_map {α : Type} {f : Entries → α} {a : α}
    (h : (readMetadata d root).map (fun found => (found.bind Except.toOption).map f) =
      .ok (some a)) :
    ∃ metadata, readMetadata d root = .ok (some (.ok metadata)) ∧ f metadata = a := by
  obtain ⟨found, hfound, h⟩ := map_eq_ok h
  rcases found with _ | ⟨_ | metadata⟩
  · cases h
  · cases h
  · exact ⟨metadata, hfound, Option.some.inj h⟩

/-- What is read where metadata were found, and a model is made from them. -/
theorem ofDisk_of_readMetadata {metadata : Entries} {model : Model}
    (hfound : readMetadata d root = .ok (some (.ok metadata)))
    (hmodel : modelFor settings root metadata = .ok model) :
    ofDisk settings today strict root d = .ok {
      root, strict, metadata := some metadata, defect := none, name := nameIn metadata
      kind := Kind.ofMetadata metadata, platforms := Platform.declaredIn metadata
      layout := model.layout today } := by
  simp only [ofDisk, hfound, bind, Except.bind, Option.bind, Except.toOption, Option.getD_some,
    hmodel]
  rfl

/-- What is read where there are metadata that can be read, and a model is made from them. -/
theorem ofDisk_of_parsed (hthere : d.exists? (root.extend metadataFile) = .ok true)
    {metadata : Entries}
    (hread : d.read (root.extend metadataFile) >>= Metadata.parse = .ok metadata)
    {model : Model} (hmodel : modelFor settings root metadata = .ok model) :
    ofDisk settings today strict root d = .ok {
      root, strict, metadata := some metadata, defect := none, name := nameIn metadata
      kind := Kind.ofMetadata metadata, platforms := Platform.declaredIn metadata
      layout := model.layout today } :=
  ofDisk_of_readMetadata (by rw [readMetadata_of_there hthere, hread]) hmodel

/-- A subject comes from the metadata that were found and the model made from them. -/
theorem ofDisk_eq_ok (h : ofDisk settings today strict root d = .ok s) :
    ∃ found model, readMetadata d root = .ok found ∧
      modelFor settings root ((found.bind Except.toOption).getD []) = .ok model ∧
      s.root = root ∧ s.strict = strict ∧
      s.name = nameIn ((found.bind Except.toOption).getD []) ∧
      s.layout = model.layout today := by
  unfold ofDisk at h
  simp only [bind, Except.bind, pure, Except.pure] at h
  split at h
  · simp at h
  · rename_i found hfound
    split at h
    · simp at h
    · rename_i model hmodel
      obtain rfl := Except.ok.inj h
      exact ⟨found, model, hfound, hmodel, rfl, rfl, rfl, rfl⟩

theorem root_of_ofDisk (h : ofDisk settings today strict root d = .ok s) : s.root = root := by
  obtain ⟨-, -, -, -, hroot, -⟩ := ofDisk_eq_ok h
  exact hroot

theorem sound_of_ofDisk (h : ofDisk settings today strict root d = .ok s) : s.Sound := by
  obtain ⟨found, model, -, hmodel, -, -, hname, hlayout⟩ := ofDisk_eq_ok h
  obtain ⟨hmodelName, hvalid⟩ := name_of_modelFor hmodel
  refine ⟨by rw [hlayout]; exact hvalid, fun {name} hsome => ?_, today, by rw [hlayout]; rfl⟩
  rw [hlayout]
  change model.name = name
  rw [hmodelName, ← hname, hsome]
  rfl

/-- The date only matters to the bindings of the layout. -/
theorem ofDisk_of_date (h : ofDisk settings today strict root d = .ok s) (later : Date) :
    ofDisk settings later strict root d = .ok { s with layout := s.layout.model.layout later } := by
  unfold ofDisk at h ⊢
  simp only [bind, Except.bind, pure, Except.pure] at h ⊢
  split at h
  · simp at h
  · split at h
    · simp at h
    · rename_i model hmodel
      obtain rfl := Except.ok.inj h
      simp only [Model.layout]

/-- What is found at a path decides what is read there. -/
theorem ofDisk_congr
    (h : d₁.itemAt (root.extend metadataFile) = d.itemAt (root.extend metadataFile)) :
    ofDisk settings today strict root d₁ = ofDisk settings today strict root d := by
  have hread : readMetadata d₁ root = readMetadata d root := by
    simp only [readMetadata, exists?_eq, read_eq, h]
  unfold ofDisk
  rw [hread]

end Read

end Subject

end PackageScaffold
