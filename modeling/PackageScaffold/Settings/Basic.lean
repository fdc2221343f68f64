import PackageScaffold.Conversion

/-!
# Settings

The defaults that every command starts from: author, organization and platforms of new projects,
and how strictly templates and findings are taken.

## Main definitions

* `Settings` and their `default`;
* `Settings.ofEntries`: settings from a document or an environment, every violation reported.
-/

namespace PackageScaffold

/-- The defaults that every command starts from. -/
structure Settings where
  author : String := "Your Name"
  organization : String := "com.example"
  platforms : List String := ["android", "ios"]
  /-- The most files that may be written at one time. -/
  workers : Nat := 8
  /-- A template that cannot be resolved completely is refused. -/
  strictTemplates : Bool := false
  /-- A validation that finds errors fails. -/
  failOnError : Bool := false
  deriving DecidableEq, Repr, Inhabited

namespace Settings

/-- The settings that hold where nothing is configured. -/
def standard : Settings := {}

/-- The promise that all settings keep: author and organization are named, and at least one file
can be written at a time. -/
def IsValid (s : Settings) : Prop :=
  s.author ≠ "" ∧ s.organization ≠ "" ∧ 1 ≤ s.workers

/-- The platform tags of a comma-separated text; blank ones are dropped. -/
def splitPlatforms (s : String) : List String :=
  ((Text.split ',' s).map Text.trim).filter (!·.isEmpty)

/-- The texts of a list, with a violation for every item that is no text. -/
def readItems (field : String) : Nat → List Value → Checked (List String)
  | _, [] => .ok []
  | index, item :: items =>
    match item, readItems field (index + 1) items with
    | .text tag, .ok tags => .ok (tag :: tags)
    | .text _, .error violations => .error violations
    | _, rest =>
      .error (⟨[field, String.ofList (Nat.toDigits 10 index)], .textExpected⟩ ::
        Checked.violations rest)

/-- A list of platform tags: a list of texts, or a comma-separated text. -/
def readPlatforms (field : String) : Value → Checked (List String)
  | .text value => .ok (splitPlatforms value)
  | .list items => readItems field 0 items
  | _ => .error [⟨[field], .listExpected⟩]

/-- The value of a field, or its default where the field is absent. -/
def field {α : Type} (entries : Entries) (name : String) (default : α)
    (read : Value → Checked α) : Checked α :=
  match Entries.get? entries name with
  | some value => read value
  | none => .ok default

/-- A field that is read as a whole. -/
def plainField {α : Type} (entries : Entries) (name : String) (default : α)
    (read : Value → Except Complaint α) : Checked α :=
  field entries name default fun value => Checked.ofField name (read value)

/-- Settings from a mapping.  Absent fields take their defaults, unknown ones are ignored, and all
violations are reported together. -/
def ofEntries (entries : Entries) : Checked Settings :=
  let author := plainField entries "default_author" standard.author (Conversion.readText 1)
  let organization :=
    plainField entries "default_organization" standard.organization (Conversion.readText 1)
  let platforms :=
    field entries "default_platforms" standard.platforms (readPlatforms "default_platforms")
  let workers := plainField entries "max_workers" standard.workers Conversion.readCount
  let strictTemplates :=
    plainField entries "strict_templates" standard.strictTemplates Conversion.readTruth
  let failOnError := plainField entries "fail_on_error" standard.failOnError Conversion.readTruth
  match author, organization, platforms, workers, strictTemplates, failOnError with
  | .ok author, .ok organization, .ok platforms, .ok workers, .ok strictTemplates,
    .ok failOnError =>
    .ok { author, organization, platforms, workers, strictTemplates, failOnError }
  | _, _, _, _, _, _ =>
    .error (author.violations ++ organization.violations ++ platforms.violations ++
      workers.violations ++ strictTemplates.violations ++ failOnError.violations)

/-- The settings as a mapping, in the order in which they are shown. -/
def toEntries (s : Settings) : Entries :=
  [(.text "default_author", .text s.author),
   (.text "default_organization", .text s.organization),
   (.text "default_platforms", .list (s.platforms.map Value.text)),
   (.text "max_workers", .int s.workers),
   (.text "strict_templates", .bool s.strictTemplates),
   (.text "fail_on_error", .bool s.failOnError)]

end Settings

end PackageScaffold
