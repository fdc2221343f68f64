import PackageScaffold.Proofs.Metadata.Reading
import PackageScaffold.Proofs.Project.Unhindered
import PackageScaffold.Proofs.Review.Rereading
import PackageScaffold.Proofs.Yaml.Stuck

/-!
# The description of a new project in its metadata

A description stands in the metadata in double quotes, with its controls escaped.  All other
characters stand there as they are, those that no document may hold and those that end a line
included.

* `Pubspec.exists_parse_eq_error_of_character`, `Pubspec.exists_parse_eq_error_of_quoted`: metadata
  with a description that cannot be read;
* `Pubspec.description_iff`: the descriptions that are read back from metadata;
* `description_of_metadata_iff`: the same for requested projects.
-/

namespace PackageScaffold

open Yaml

namespace Pubspec

/-! ## Descriptions that cannot be read -/

/-- What stands in front of the description. -/
theorem toList_metadataText_description (m : Model) : m.metadataText.toList =
    "name: ".toList ++ m.name.toList ++ "\ndescription: ".toList ++
      '"' :: (escaped m.description.toList ++ '"' :: (furtherText m).toList) := by
  rw [toList_metadataText]
  simp [Json.quote, escaped]

/-- No document holds a character that is neither a control nor allowed. -/
theorem exists_parse_eq_error_of_character {m : Model} {c : Char} (hmem : c ∈ m.description.toList)
    (h : isWritable c = false) : ∃ failure, Metadata.parse m.metadataText = .error failure := by
  obtain ⟨hescaped, hallowed⟩ := mem_escaped_of_not_isWritable h hmem
  have htext : c ∈ m.metadataText.toList := by
    rw [toList_metadataText_description]
    exact List.mem_append_right _ (List.mem_cons_of_mem _ (List.mem_append_left _ hescaped))
  obtain ⟨fault, hfault⟩ := Tokens.exists_fault_of_not_allowed htext hallowed
  exact exists_parse_eq_error_of_fault hfault

/-- Quotes that cannot be read make the metadata unreadable. -/
theorem exists_parse_eq_error_of_quoted {m : Model} {name : Scalar}
    (hname : name.source = m.name.toList)
    (hread : name.IsRead) {fault : Fault} (h : ReadsAs m.description.toList (.error fault)) :
    ∃ failure, Metadata.parse m.metadataText = .error failure := by
  have hfront : (Block.scalar 0 "name" name .nil).IsRead :=
    ⟨⟨isPlainKey_keys _ (by decide), by simp [Block.keys]⟩, hread, trivial⟩
  have hkey : IsWord "description".toList := by decide
  have hbody : Outline.IsUnreadable (escaped m.description.toList ++ '"' :: (furtherText m).toList)
      fault := by
    intro index line column
    obtain ⟨_, _, _, hquoted⟩ := h.readQuoted_eq (furtherText m).toList index line column
    exact hquoted
  have hbreak : "\ndescription: ".toList = '\n' :: ("description".toList ++ [':', ' ']) := by decide
  have htext : m.metadataText.toList = (Block.scalar 0 "name" name .nil).document ++
      ("description".toList ++ ':' :: ' ' :: '"' ::
        (escaped m.description.toList ++ '"' :: (furtherText m).toList)) := by
    rw [toList_metadataText_description, hbreak, ← hname]
    simp [Block.document, Block.text, lineGap]
  obtain ⟨stuck, hstuck⟩ := Block.exists_fault_front hfront.isWritten (by simp)
    (hkey.startsContent_append ⟨':', _, rfl, .inr ⟨rfl, rfl⟩⟩) (by simp)
    fun o tokens ho fuel => Outline.fault_run_quoted ho hkey (by decide) hbody fuel
  rw [← htext] at hstuck
  exact exists_parse_eq_error_of_fault hstuck

/-! ## Descriptions that are read back -/

section Unbroken

variable {m : Model} (h : Unbroken m) {name : Scalar} (hname : name.source = m.name.toList)
  (hread : name.IsRead)

include h hname hread

/-- What is read from quotes is the description in the metadata. -/
theorem exists_parse_eq_ok_of_quoted (hwritable : ∀ c ∈ m.description.toList, isWritable c = true)
    {text : List Char} (htext : ReadsAs m.description.toList (.ok text)) :
    ∃ metadata, Metadata.parse m.metadataText = .ok metadata ∧
      Entries.get? metadata "description" = some (.text (String.ofList text)) := by
  have hquoted : (Scalar.quoted (escaped m.description.toList ++ ['"'])
      (String.ofList text)).IsRead :=
    Scalar.isRead_quoted htext.isQuoted
      (List.forall_mem_append.mpr ⟨stored_escaped hwritable, by decide⟩)
  have hsource : name.source ++ List.replicate 0 '\n' = m.name.toList := by simpa using hname
  -- the quotes are written for the description, whatever is read from them
  have hdescription : (Scalar.quoted (escaped m.description.toList ++ ['"'])
      (String.ofList text)).source =
      (Json.quote m.description).toList := source_described m.description
  exact ⟨_, parse_metadataText h hsource hdescription hread hquoted, rfl⟩

/-- A description is read back from the metadata if and only if it is made of controls and of
characters that a document may hold, and is kept in quotes. -/
theorem description_iff :
    (∃ metadata, Metadata.parse m.metadataText = .ok metadata ∧
      Entries.get? metadata "description" = some (.text m.description)) ↔
      (∀ c ∈ m.description.toList, isWritable c = true) ∧ isKept m.description.toList = true := by
  by_cases hwritable : ∀ c ∈ m.description.toList, isWritable c = true
  · obtain ⟨outcome, houtcome⟩ := exists_readsAs m.description.toList
    rw [and_iff_right hwritable, ← houtcome.kept]
    cases outcome with
    | error fault =>
        obtain ⟨failure, hfailure⟩ := exists_parse_eq_error_of_quoted hname hread houtcome
        simp [hfailure]
    | ok text =>
        obtain ⟨metadata, hparse, hdescription⟩ :=
          exists_parse_eq_ok_of_quoted h hname hread hwritable houtcome
        have hsame : String.ofList text = m.description ↔ text = m.description.toList := by
          rw [← String.toList_inj, String.toList_ofList]
        simp [hparse, hdescription, hsame]
  · have hcharacter : ∃ c ∈ m.description.toList, isWritable c = false := by
      simpa using hwritable
    obtain ⟨c, hmem, hc⟩ := hcharacter
    obtain ⟨failure, hfailure⟩ := exists_parse_eq_error_of_character hmem hc
    simp [hfailure, hwritable]

end Unbroken

end Pubspec

/-! ## Requested projects -/

/-- A project of any kind with a name and a description, and nothing else, is made.  Its description
is read back from its metadata if and only if it is made of controls and of characters that a
document may hold, and no end of a line in it is folded. -/
theorem description_of_metadata_iff (kind : Kind) {description : String} (h : description ≠ "")
    (strict : Bool) (today : Date) :
    ∃ m, Model.ofRequest .standard
        { kind := .text kind.text, name := .text "pkg", description := .text description } = .ok m ∧
      m.kind = kind ∧ m.description = description ∧
      ((∃ text metadata, Catalogue.standard.render strict (Layout.metadataTemplate m.kind)
          (m.bindings today) = .ok text ∧ Metadata.parse text = .ok metadata ∧
          Entries.get? metadata "description" = some (.text m.description)) ↔
        (∀ c ∈ description.toList, isWritable c = true) ∧ isKept description.toList = true) := by
  have hmodel : ∃ m, Model.ofRequest .standard
      { kind := .text kind.text, name := .text "pkg", description := .text description } = .ok m ∧
      m.kind = kind ∧ m.name = "pkg" ∧ m.organization = Settings.standard.organization ∧
      m.description = description := by
    have hplatforms : ∃ platforms, ({ kind := .text kind.text, name := .text "pkg"
                                      description := .text description } : Request).selectPlatforms
        .standard kind = .ok platforms := by
      cases kind <;> exact ⟨_, rfl⟩
    obtain ⟨platforms, hplatforms⟩ := hplatforms
    have hvalid : Name.isPackageName "pkg" = true := by decide
    have horganization : Name.isOrganization Settings.standard.organization = true := by decide
    exact ⟨_, Model.ofRequest_eq_ok (Kind.ofValue_text kind) (by simp [Request.validName, hvalid])
      horganization rfl hplatforms (by rw [valueOr_text h, readText_text h]) rfl rfl,
      (Variety.kind_of kind platforms).1, rfl, rfl, rfl⟩
  obtain ⟨m, hmodel, hkind, hname, horganization, hdescription⟩ := hmodel
  -- nothing but the description can break the metadata of this project
  have hunbroken : Pubspec.Unbroken m := by
    refine ⟨fun _ => by rw [hname]; decide, fun _ _ => ?_,
      (Model.isValid_of_ofRequest hmodel).platforms, nodup_platforms_of_ofRequest hmodel⟩
    rw [horganization]
    exact ⟨⟨'c', _, rfl, by decide⟩, by decide, by decide⟩
  have hread : (Scalar.plain "pkg").IsRead := Scalar.isRead_plain (by decide)
  have hsource : (Scalar.plain "pkg").source = m.name.toList := by
    rw [hname]
    rfl
  have hiff := Pubspec.description_iff hunbroken hsource hread
  refine ⟨m, hmodel, hkind, hdescription, ?_⟩
  rw [← hdescription, ← hiff, Catalogue.render_metadata]
  simp

/-- The end of a line that is no control is read as an ordinary line break, and folded. -/
theorem description_of_metadata_folded :
    ∃ m, Model.ofRequest .standard { kind := .text Kind.package.text, name := .text "pkg"
                                     description := .text "one\u0085two" } = .ok m ∧
      m.description = "one\u0085two" ∧
      ¬ ∃ text metadata, Catalogue.standard.render false (Layout.metadataTemplate m.kind)
          (m.bindings ⟨2024, 3, 5⟩) = .ok text ∧ Metadata.parse text = .ok metadata ∧
          Entries.get? metadata "description" = some (.text m.description) := by
  obtain ⟨m, hmodel, -, hdescription, hiff⟩ := description_of_metadata_iff .package
    (show "one\u0085two" ≠ "" by decide) false ⟨2024, 3, 5⟩
  refine ⟨m, hmodel, hdescription, fun hread => ?_⟩
  have hkept := (hiff.mp hread).2
  exact absurd hkept (by decide)

end PackageScaffold
