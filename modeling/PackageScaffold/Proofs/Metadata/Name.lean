import PackageScaffold.Proofs.Metadata.Reading
import PackageScaffold.Proofs.Project.Unhindered
import PackageScaffold.Proofs.Review.Rereading
import PackageScaffold.Proofs.Yaml.Broken
import PackageScaffold.Proofs.Yaml.Stuck

/-!
# The name of a new project in its metadata

A name stands in the metadata without quotes.  Some names are words for truth values or for nothing,
and are read as these.  A line break at the end of a name, or of an organization, breaks a line of
the metadata in two, and the second half of the line is no entry.

* `Name.reading`: what is read where a name stands without quotes;
* `Model.BreaksLines`: the projects whose metadata have such a line;
* `Pubspec.exists_parse_eq_error`: the metadata of these cannot be read;
* `Pubspec.parse_of_not_breaksLines`: what all others are read as;
* `name_of_metadata_iff`: when the name that is read is that of the project;
* `Pubspec.detected`, `plugin_of_metadata`: the kind, the platforms and the organization of a plugin are
  read back even where its name is not.
-/

namespace PackageScaffold

open Yaml

namespace Name

/-! ## Words with a meaning of their own -/

/-- The names that are words for truth values or for nothing. -/
def reserved : List String :=
  ["null", "true", "false", "yes", "no", "on", "off"]

/-- What is read where a name stands without quotes. -/
def reading (name : String) : Value :=
  if name = "null" then .null
  else if name ∈ ["true", "yes", "on"] then .bool true
  else if name ∈ ["false", "no", "off"] then .bool false
  else .text name

/-- A name is read as itself, and as a text only if it is no such word. -/
theorem reading_eq_text_iff {name text : String} :
    reading name = .text text ↔ name ∉ reserved ∧ name = text := by
  by_cases hmem : name ∈ reserved
  · have hmeaning : reading name ≠ .text text := by
      simp only [reserved, List.mem_cons, List.not_mem_nil, or_false] at hmem
      rcases hmem with rfl | rfl | rfl | rfl | rfl | rfl | rfl <;> simp [reading]
    simp [hmem, hmeaning]
  · have htext : reading name = .text name := by
      simp only [reserved, List.mem_cons, List.not_mem_nil, or_false, not_or] at hmem
      simp [reading, hmem]
    simp [hmem, htext]

theorem isRead_reserved : ∀ name ∈ reserved, (Scalar.word name (reading name)).IsRead := by
  have hwords : ∀ name ∈ reserved, IsWord name.toList ∧ ∀ c ∈ name.toList, isAllowed c = true := by
    decide
  have hholds : ∀ name ∈ reserved, (scalarNode name true).Holds (.plain (reading name)) := by
    simp only [reserved, List.forall_mem_cons, List.not_mem_nil, false_implies, implies_true,
      and_true]
    refine ⟨?_, ?_, ?_, ?_, ?_, ?_, ?_⟩
    all_goals exact .scalar (by decide) (by decide) rfl
  intro name hname
  exact Scalar.isRead_word (hwords name hname).1 (hholds name hname) (hwords name hname).2

/-- What stands for an identifier without quotes is read as it should be. -/
theorem isRead_reading {name : String} (h : isIdentifier name.toList = true) :
    (Scalar.word name (reading name)).IsRead := by
  by_cases hreserved : name ∈ reserved
  · exact isRead_reserved name hreserved
  -- no other word for a truth value or for nothing is an identifier
  have hwords : ∀ word ∈ boolWords ++ nullWords, isIdentifier word = true →
      String.ofList word ∈ reserved := by
    decide
  have hnot : name.toList ∉ boolWords ++ nullWords := by
    intro hmem
    have hword := hwords _ hmem h
    rw [String.ofList_toList] at hword
    exact hreserved hword
  simp only [List.mem_append, not_or] at hnot
  have haddress := isAddress_of_isIdentifier h
  have htag : Tag.ofPlain name.toList = .text := by
    rw [haddress.ofPlain_eq, List.contains_eq_mem, List.contains_eq_mem, decide_eq_false hnot.1,
      decide_eq_false hnot.2]
    rfl
  rw [reading_eq_text_iff.mpr ⟨hreserved, rfl⟩]
  exact Scalar.isRead_word haddress.isWord (Block.holds_word htag) haddress.allowed

theorem isIdentifier_stem {s : String} (h : isPackageName s = true) :
    isIdentifier (stem s).toList = true := by
  simp only [isPackageName, Bool.and_eq_true] at h
  rw [stem, String.toList_ofList]
  exact h.1.1

end Name

/-! ## Lines that are broken in two -/

/-- A project with a line break where its metadata go on: at the end of the name of a library, or of
the organization in an Android package. -/
def Model.BreaksLines (m : Model) : Prop :=
  (m.kind ≠ .application ∧ Name.endsInBreak m.name = true) ∨
    (m.kind = .plugin ∧ .android ∈ m.platforms ∧ Name.endsInBreak m.organization = true)

namespace Pubspec

/-- Metadata with a word on a line of its own, behind some of their entries, cannot be read. -/
theorem exists_parse_eq_error_of_word {text : String} {front : Block} (hfront : front.IsRead)
    (hnil : front ≠ .nil) {word rest : List Char} {column : Nat} (hword : IsWord word)
    (hrest : StartsContent rest)
    (htext : text.toList = front.document ++ (word ++ (lineGap 0 column ++ rest))) :
    ∃ failure, Metadata.parse text = .error failure := by
  have hcontent := hword.startsContent_append (followsWord_lineGap 0 column rest)
  have hlong : 2 ≤ (word ++ (lineGap 0 column ++ rest)).length + 1 := by
    have hpos := List.length_pos_iff.mpr hword.ne_nil
    simp only [List.length_append]
    omega
  obtain ⟨fault, hfault⟩ := Block.exists_fault_front hfront.isWritten hnil hcontent hlong
    fun o tokens ho fuel => Outline.fault_run_word ho hword hrest fuel
  rw [← htext] at hfault
  exact exists_parse_eq_error_of_fault hfault

/-- The beginning of the metadata of a library, for a name with a line break at its end. -/
theorem libraryText_of_endsInBreak (version stem : String) (description : Scalar) (more : String) :
    "name: ".toList ++ (stem ++ "\n").toList ++ "\ndescription: ".toList ++ description.source ++
      (libraryText version (stem ++ "\n") ++ more).toList =
    (titled 1 (.word stem (Name.reading stem)) description
      (.scalar 0 "version" (.plain version) (publication 1 stem (site ++ stem) .nil))).document ++
    ("/issues".toList ++ (lineGap 0 0 ++ ("documentation".toList ++ ':' :: ' ' ::
      ("https://pub.dev/documentation/" ++ stem ++ "\n/latest/" ++ more).toList))) := by
  have hbreak : "\n".toList = ['\n'] := rfl
  have hgap : lineGap 0 0 = ['\n'] := rfl
  have hdocumentation : "\ndocumentation: ".toList =
      '\n' :: ("documentation".toList ++ [':', ' ']) := by decide
  have hlatest : "\n/latest/".toList = '\n' :: "/latest/".toList := by decide
  have hnil : Block.nil.text 0 = [] := rfl
  unfold libraryText
  simp only [document_titled, publication, text_plain, Scalar.word, String.reduceAppend,
    String.toList_append, hbreak, hgap, hdocumentation, hlatest, hnil, List.append_assoc,
    List.cons_append, List.nil_append, List.append_nil, List.replicate_zero, List.replicate_one]

/-- The metadata of a library whose name ends in a line break cannot be read. -/
theorem exists_parse_eq_error_of_name {m : Model} (hkind : m.kind ≠ .application)
    (hname : Name.isPackageName m.name = true) (hbreak : Name.endsInBreak m.name = true)
    (hdescribed : (described m.description).IsRead) :
    ∃ failure, Metadata.parse m.metadataText = .error failure := by
  have hstem := Name.isIdentifier_stem hname
  have hlibrary : ∃ version more, IsPlain version ∧
      furtherText m = libraryText version m.name ++ more := by
    unfold furtherText
    cases hcase : m.kind with
    | application => exact absurd hcase hkind
    | plugin =>
        simp only [String.append_assoc]
        exact ⟨"0.0.1", _, isPlain_texts _ (by decide), rfl⟩
    | package => exact ⟨"1.0.0", _, isPlain_texts _ (by decide), rfl⟩
  obtain ⟨version, more, hversion, hfurther⟩ := hlibrary
  have htext := libraryText_of_endsInBreak version (Name.stem m.name) (described m.description) more
  rw [← Name.stem_append_of_endsInBreak hbreak, ← hfurther, source_described] at htext
  -- everything in front of the broken address is read
  have hfront : (titled 1 (.word (Name.stem m.name) (Name.reading (Name.stem m.name)))
      (described m.description) (.scalar 0 "version" (.plain version)
        (publication 1 (Name.stem m.name) (site ++ Name.stem m.name) .nil))).IsRead := by
    have haddress := (isPlain_site hstem).1
    refine isRead_titled (Name.isRead_reading hstem) hdescribed (by simp [publication, Block.keys])
      ?_
    refine ⟨⟨isPlainKey_keys _ (by decide), by simp [publication, Block.keys]⟩,
      Scalar.isRead_plain hversion, ?_⟩
    exact isRead_publication haddress haddress 1 (by simp [Block.keys]) trivial
  -- the rest of the address is a word on a line of its own, with another key behind it
  have hword : IsWord "/issues".toList := by decide
  have hrest : IsWord "documentation".toList := by decide
  refine exists_parse_eq_error_of_word hfront (by simp [titled]) hword ?_
    ((toList_metadataText m).trans htext)
  exact hrest.startsContent_append ⟨':', _, rfl, .inr ⟨rfl, rfl⟩⟩

section Android

variable {m : Model}

/-- What follows the platforms in a mapping is written behind them. -/
theorem text_platforms_append (rest : Block) (targets : List Platform) (column : Nat) :
    (platforms m rest targets).text column = (platforms m .nil targets).text column ++
      rest.text column := by
  induction targets with
  | nil => rfl
  | cons target targets ih => simp [platforms, Block.text, ih]

/-- The part of the metadata that names an organization, where the name of the package
should follow. -/
def androidPart (organization : String) : Block :=
  .nested 0 "android" (.scalar 0 "package" (.plain organization) .nil) .nil

theorem isRead_androidPart {organization : String} (h : IsPlain organization) :
    (androidPart organization).IsRead := by
  have hkeys := isPlainKey_keys
  simp only [keys, List.forall_mem_cons] at hkeys
  simp [androidPart, Block.IsRead, Block.keys, hkeys, Scalar.isRead_plain h]

/-- What a plugin says of its platforms, for an organization with a line break at its end. -/
theorem platformsText_of_endsInBreak {organization : String}
    (h : m.organization = organization ++ "\n")
    (before after : List Platform) :
    '\n' :: (String.join ((before ++ .android :: after).map m.platformMetadata)).toList =
      (platforms m (androidPart organization) before).text 6 ++ '\n' :: (('.' :: m.name.toList) ++
        (lineGap 0 8 ++
          ("pluginClass".toList ++ ':' :: ' ' :: (Platform.android.pluginClass m.pascalName ++
          "\n" ++ String.join (after.map m.platformMetadata)).toList))) := by
  have hbefore := text_platforms m before
  rw [String.toList_join] at hbefore
  have handroid : '\n' :: (m.platformMetadata .android).toList =
      (androidPart organization).text 6 ++
      '\n' :: (('.' :: m.name.toList) ++ (lineGap 0 8 ++ ("pluginClass".toList ++ ':' :: ' ' ::
        (Platform.android.pluginClass m.pascalName ++ "\n").toList))) := by
    simp [Model.platformMetadata, Model.androidPackage, h, androidPart, Block.text, lineGap,
      Block.indentation, Scalar.plain, Scalar.word, Platform.text, List.replicate_succ]
  rw [text_platforms_append, String.toList_join, List.map_append, List.flatMap_append,
    ← List.cons_append, ← hbefore, List.map_cons, List.flatMap_cons, List.append_assoc,
    List.singleton_append, ← List.cons_append, handroid]
  simp only [String.toList_append, String.toList_join, List.append_assoc, List.cons_append]

/-- The metadata of a plugin up to its Android package. -/
def androidFront (m : Model) (organization : String) (before : List Platform) : Block :=
  titled 0 (.word m.name (Name.reading m.name)) (described m.description) <|
    library "0.0.1" m.name <| pluginSections (m.platforms.contains .web)
      (platforms m (androidPart organization) before)

theorem isRead_androidFront {organization : String} {before after : List Platform}
    (hname : Name.isIdentifier m.name.toList = true) (hdescribed : (described m.description).IsRead)
    (horganization : IsPlain organization) (hdistinct : (before ++ .android :: after).Nodup) :
    (androidFront m organization before).IsRead := by
  have hkeys : (before.map Platform.text ++ (androidPart organization).keys).Nodup := by
    have hall : ((before ++ .android :: after).map Platform.text).Nodup :=
      hdistinct.map fun first second => Layout.platform_of_text_eq
    rw [List.map_append, List.map_cons, List.append_cons] at hall
    exact (List.nodup_append.mp hall).1
  have hnew : .android ∉ before :=
    fun hmem => (List.nodup_append.mp hdistinct).2.2 _ hmem _ List.mem_cons_self rfl
  have hplatforms : (platforms m (androidPart organization) before).IsRead :=
    isRead_platforms hname (isRead_androidPart horganization) hkeys fun hmem => absurd hmem hnew
  have hne : platforms m (androidPart organization) before ≠ .nil := by
    cases before <;> simp [platforms, androidPart]
  refine isRead_titled (Name.isRead_reading hname) hdescribed ?_ ?_
  · simp [library, publication, pluginSections, Block.keys]
  · exact isRead_library (isPlain_texts _ (by decide)) hname (by simp [pluginSections, Block.keys])
      (isRead_pluginSections _ hne hplatforms)

/-- The metadata of a plugin for Android whose organization ends in a line break cannot be read. -/
theorem exists_parse_eq_error_of_organization (hkind : m.kind = .plugin)
    (handroid : .android ∈ m.platforms)
    (hdistinct : m.platforms.Nodup) (hname : Name.isIdentifier m.name.toList = true)
    (hbreak : Name.endsInBreak m.organization = true)
    (horganization : Name.isOrganization m.organization = true)
    (hdescribed : (described m.description).IsRead) :
    ∃ failure, Metadata.parse m.metadataText = .error failure := by
  obtain ⟨before, after, hsplit⟩ := List.append_of_mem handroid
  obtain ⟨haddress, hdot⟩ := Name.isAddress_organization horganization
  have hfront := isRead_androidFront hname hdescribed (haddress.isPlain hdot (by decide))
    (hsplit ▸ hdistinct)
  have hword := (Name.isAddress_of_isIdentifier hname).isWord_dot
  have hrest : IsWord "pluginClass".toList := by decide
  have hlines : "\nflutter:\n  plugin:\n    platforms:\n".toList =
      "\nflutter:\n  plugin:\n    platforms:".toList ++ ['\n'] := by decide
  have htext : m.metadataText.toList =
      (androidFront m (Name.stem m.organization) before).document ++
      (('.' :: m.name.toList) ++ (lineGap 0 8 ++ ("pluginClass".toList ++ ':' :: ' ' ::
        (Platform.android.pluginClass m.pascalName ++ "\n" ++
          String.join (after.map m.platformMetadata)).toList))) := by
    have hplatforms := platformsText_of_endsInBreak (Name.stem_append_of_endsInBreak hbreak)
      before after
    rw [← hsplit] at hplatforms
    rw [toList_metadataText, furtherText, hkind, androidFront, document_titled, text_library,
      text_pluginSections]
    simp only [String.toList_append, hlines, List.append_assoc, List.singleton_append]
    rw [hplatforms, source_described]
    simp only [String.toList_append, Scalar.word, List.replicate_zero, List.append_assoc,
      List.cons_append, List.nil_append]
  exact exists_parse_eq_error_of_word hfront (by simp [androidFront, titled]) hword
    (hrest.startsContent_append ⟨':', _, rfl, .inr ⟨rfl, rfl⟩⟩) htext

end Android

/-- A name is written as the word for it, and a line break at its end is a blank line. -/
theorem source_stem (m : Model) :
    (Scalar.word (Name.stem m.name) (Name.reading (Name.stem m.name))).source ++
    List.replicate (if Name.endsInBreak m.name then 1 else 0) '\n' = m.name.toList := by
  cases hbreak : Name.endsInBreak m.name with
  | true =>
      have hstem := congrArg String.toList (Name.stem_append_of_endsInBreak hbreak)
      rw [String.toList_append] at hstem
      exact hstem.symm
  | false => simp [Scalar.word, Name.stem_of_not_endsInBreak hbreak]

theorem unbroken_of_not_breaksLines {m : Model} (hvalid : m.IsValid) (hdistinct : m.platforms.Nodup)
    (h : ¬ m.BreaksLines) : Unbroken m := by
  simp only [Model.BreaksLines, not_or, not_and, Bool.not_eq_true] at h
  refine ⟨fun hkind => Name.isIdentifier_of_not_endsInBreak hvalid.name (h.1 hkind), ?_,
    hvalid.platforms, hdistinct⟩
  intro hkind handroid
  have haddress := (Name.isAddress_organization hvalid.organization).1
  rwa [Name.stem_of_not_endsInBreak (h.2 hkind handroid)] at haddress

section Valid

variable {m : Model} (hvalid : m.IsValid) (hdistinct : m.platforms.Nodup)
  (hdescribed : (described m.description).IsRead)

include hvalid hdistinct hdescribed

/-- Metadata with a line that is broken in two cannot be read. -/
theorem exists_parse_eq_error (h : m.BreaksLines) :
    ∃ failure, Metadata.parse m.metadataText = .error failure := by
  by_cases hbreak : Name.endsInBreak m.name = true ∧ m.kind ≠ .application
  · exact exists_parse_eq_error_of_name hbreak.2 hvalid.name hbreak.1 hdescribed
  · rcases h with ⟨hkind, hname⟩ | ⟨hkind, handroid, horganization⟩
    · exact absurd ⟨hname, hkind⟩ hbreak
    · have hname : Name.endsInBreak m.name = false := by
        simpa [hkind] using hbreak
      exact exists_parse_eq_error_of_organization hkind handroid hdistinct
        (Name.isIdentifier_of_not_endsInBreak hvalid.name hname) horganization hvalid.organization
        hdescribed

variable (h : ¬ m.BreaksLines)

include h

/-- All other metadata are read as the template spells them, up to the name. -/
theorem parse_of_not_breaksLines : Metadata.parse m.metadataText =
    .ok ((.text "name", Name.reading (Name.stem m.name)) ::
      (.text "description", .text m.description) ::
      m.metadata.drop 2) :=
  parse_metadataText (unbroken_of_not_breaksLines hvalid hdistinct h) (source_stem m)
    (source_described _) (Name.isRead_reading (Name.isIdentifier_stem hvalid.name)) hdescribed

theorem stored_of_not_breaksLines : ∀ c ∈ m.metadataText.toList, isStored c = true :=
  stored_metadataText (unbroken_of_not_breaksLines hvalid hdistinct h) (source_stem m)
    (source_described _) (Name.isRead_reading (Name.isIdentifier_stem hvalid.name)) hdescribed

end Valid

end Pubspec

/-! ## The name that is read -/

theorem isRead_standardDescription (kind : Kind) :
    (Pubspec.described kind.standardDescription).IsRead := by
  cases kind <;> exact Pubspec.isRead_described (by decide) (by decide)

/-- The metadata of a project that is given no description can be read, and the name in them is that
of the project, unless it is a word for a truth value or for nothing, or ends in a line break, or
the organization does and stands in the metadata. -/
theorem name_of_metadata_iff {settings : Settings} {request : Request} {m : Model}
    (h : Model.ofRequest settings request = .ok m)
    (hdescription : m.description = m.kind.standardDescription) (strict : Bool) (today : Date) :
    (∃ text metadata,
      Catalogue.standard.render strict (Layout.metadataTemplate m.kind) (m.bindings today) = .ok text ∧
        Metadata.parse text = .ok metadata ∧ Entries.get? metadata "name" = some (.text m.name) ∧
        Subject.nameIn metadata = some m.name) ↔
      m.name ∉ Name.reserved ∧ Name.endsInBreak m.name = false ∧
        (m.kind = .plugin → .android ∈ m.platforms → Name.endsInBreak m.organization = false) := by
  have hvalid := Model.isValid_of_ofRequest h
  have hdistinct := nodup_platforms_of_ofRequest h
  have hdescribed : (Pubspec.described m.description).IsRead :=
    hdescription ▸ isRead_standardDescription m.kind
  rw [Catalogue.render_metadata]
  constructor
  · rintro ⟨text, metadata, hrender, hparse, hname, -⟩
    obtain rfl := Except.ok.inj hrender
    by_cases hlines : m.BreaksLines
    · obtain ⟨failure, hfailure⟩ := Pubspec.exists_parse_eq_error hvalid hdistinct hdescribed hlines
      simp [hfailure] at hparse
    · rw [Pubspec.parse_of_not_breaksLines hvalid hdistinct hdescribed hlines] at hparse
      obtain rfl := Except.ok.inj hparse
      obtain ⟨hnew, hstem⟩ := Name.reading_eq_text_iff.mp (Option.some.inj hname)
      -- a name is longer than what is left of it without its line break
      have hbreak : Name.endsInBreak m.name = false := by
        by_contra htrue
        have happend := congrArg String.length
          (Name.stem_append_of_endsInBreak (Bool.eq_true_of_not_eq_false htrue))
        rw [hstem, String.length_append] at happend
        exact absurd happend (by simp)
      rw [hstem] at hnew
      simp only [Model.BreaksLines, not_or, not_and, Bool.not_eq_true] at hlines
      exact ⟨hnew, hbreak, hlines.2⟩
  · rintro ⟨hname, hbreak, horganization⟩
    have hlines : ¬ m.BreaksLines := by
      simpa [Model.BreaksLines, hbreak] using horganization
    have hparse := Pubspec.parse_of_not_breaksLines hvalid hdistinct hdescribed hlines
    rw [Name.stem_of_not_endsInBreak hbreak, Name.reading_eq_text_iff.mpr ⟨hname, rfl⟩] at hparse
    exact ⟨_, _, rfl, hparse, rfl, if_pos hvalid.name⟩

/-- A package called `true` is created, and its metadata call it by no name. -/
theorem metadata_without_name :
    ∃ m, Model.ofRequest .standard { kind := .text "package", name := .text "true" } = .ok m ∧
      m.name = "true" ∧ m.description = m.kind.standardDescription ∧
      ¬ ∃ text metadata, Catalogue.standard.render false (Layout.metadataTemplate m.kind)
          (m.bindings ⟨2024, 3, 5⟩) = .ok text ∧ Metadata.parse text = .ok metadata ∧
        Entries.get? metadata "name" = some (.text m.name) ∧ Subject.nameIn metadata = some m.name := by
  have hmodel : ∃ m, Model.ofRequest .standard { kind := .text "package", name := .text "true" } = .ok m ∧
      m.name = "true" ∧ m.description = m.kind.standardDescription :=
    ⟨_, @Model.ofRequest_eq_ok _ _ .package "true" _ _ _ _ _ (by decide) (by decide) (by decide) rfl
      rfl rfl rfl rfl, rfl, rfl⟩
  obtain ⟨m, hmodel, hname, hdescription⟩ := hmodel
  have hiff := name_of_metadata_iff hmodel hdescription false ⟨2024, 3, 5⟩
  refine ⟨m, hmodel, hname, hdescription, fun hread => ?_⟩
  exact (hiff.mp hread).1 (by rw [hname]; decide)

/-! ## Printable ASCII -/

theorem Yaml.isWritable_of_printable {c : Char} (h : ' ' ≤ c ∧ c ≤ '~') : isWritable c = true := by
  have hleast : 0x20 ≤ c.toNat := h.1
  have hmost : c.toNat ≤ 0x7E := h.2
  simp [isWritable, isAllowed, hleast, hmost]

/-- Every end of a line that is folded in quotes is beyond ASCII. -/
theorem Yaml.isKept_of_printable {text : List Char} (h : ∀ c ∈ text, ' ' ≤ c ∧ c ≤ '~') :
    isKept text = true := by
  have hne {c : Char} (hc : c ≤ '~') : c ≠ '\u0085' ∧ isSeparator c = false := by
    have hbeyond (d : Char) (hd : ¬ d ≤ '~') : c ≠ d := fun heq => hd (heq ▸ hc)
    exact ⟨hbeyond _ (by decide), by simp [isSeparator, hbeyond '\u2028' (by decide),
      hbeyond '\u2029' (by decide)]⟩
  induction text with
  | nil => rfl
  | cons c text ih =>
      obtain ⟨hc, htext⟩ := List.forall_mem_cons.mp h
      have hnext : (text.head?.map isSeparator).getD false = false := by
        cases text with
        | nil => rfl
        | cons next more => exact (hne (htext next List.mem_cons_self).2).2
      simp [isKept, hne hc.2, hnext, ih htext]

theorem Name.endsInBreak_eq_false {s : String} (h : '\n' ∉ s.toList) : endsInBreak s = false := by
  rw [endsInBreak, beq_eq_false_iff_ne]
  exact fun hlast => h (List.mem_of_getLast? hlast)

/-! ## The sections that are looked at -/

/-- Metadata with the same sections for Flutter and for dependencies are taken for the same kind of
project, with the same platforms and the same organization. -/
theorem detected_congr {first second : Entries}
    (h : ∀ field ∈ ["flutter", "dependencies"], Entries.get? first field =
      Entries.get? second field) :
    Kind.ofMetadata first = Kind.ofMetadata second ∧
      Platform.declaredIn first = Platform.declaredIn second ∧
      ∀ name, Subject.organizationIn first name = Subject.organizationIn second name := by
  have hflutter := h "flutter" (by simp)
  have hdependencies := h "dependencies" (by simp)
  refine ⟨?_, ?_, fun name => ?_⟩
  · rw [Kind.ofMetadata, hflutter, hdependencies, ← Kind.ofMetadata]
  · rw [Platform.declaredIn, hflutter, ← Platform.declaredIn]
  · rw [Subject.organizationIn, Subject.androidPackageIn, hflutter, ← Subject.androidPackageIn,
      ← Subject.organizationIn]

namespace Pubspec

variable {m : Model} (hvalid : m.IsValid) (hdistinct : m.platforms.Nodup)
  (hdescribed : (described m.description).IsRead) (hlines : ¬ m.BreaksLines)

include hvalid hdistinct hdescribed hlines

/-- The metadata of a plugin are taken for those of a plugin, its platforms are read back in their
order, and its organization if there are Android sources. -/
theorem detected (hkind : m.kind = .plugin) : ∃ metadata,
    Metadata.parse m.metadataText = .ok metadata ∧ Kind.ofMetadata metadata = .plugin ∧
      Platform.declaredIn metadata = m.platforms ∧
      (.android ∈ m.platforms → Subject.organizationIn metadata m.name = some m.organization) := by
  have hspelled := m.isSpelledBy_metadata
  -- the name may be read as no text, but none of the sections looked at is the name
  obtain ⟨hsame, hplatforms, horganization⟩ := @detected_congr
    ((.text "name", Name.reading (Name.stem m.name)) ::
      (.text "description", .text m.description) ::
      m.metadata.drop 2) m.metadata (by
        simp only [List.forall_mem_cons, List.not_mem_nil, false_implies, implies_true, and_true]
        unfold Model.metadata
        cases m.kind <;> exact ⟨rfl, rfl⟩)
  refine ⟨_, parse_of_not_breaksLines hvalid hdistinct hdescribed hlines, ?_, ?_,
    fun handroid => ?_⟩
  · rw [hsame, ofMetadata_of_isSpelledBy hspelled, hkind]
  · rw [hplatforms, declaredIn_of_isSpelledBy hspelled, if_pos hkind, eraseDups_of_nodup hdistinct]
  · rw [horganization, organizationIn_of_isSpelledBy hspelled hvalid.organization hkind handroid]

end Pubspec

/-- What a requested plugin is made for is detected in its metadata, if neither its name nor its
organization has a line break, and its description is in printable ASCII. -/
theorem plugin_of_metadata {settings : Settings} {request : Request} {m : Model}
    (h : Model.ofRequest settings request = .ok m) (hkind : m.kind = .plugin)
    (hname : '\n' ∉ m.name.toList) (horganization : '\n' ∉ m.organization.toList)
    (hdescription : ∀ c ∈ m.description.toList, ' ' ≤ c ∧ c ≤ '~') (strict : Bool) (today : Date) :
    ∃ text metadata, Catalogue.standard.render strict (Layout.metadataTemplate m.kind)
        (m.bindings today) = .ok text ∧
      Metadata.parse text = .ok metadata ∧ Kind.ofMetadata metadata = .plugin ∧
      Platform.declaredIn metadata = m.platforms ∧
      (.android ∈ m.platforms → Subject.organizationIn metadata m.name = some m.organization) := by
  have hdescribed : (Pubspec.described m.description).IsRead :=
    Pubspec.isRead_described (fun c hc => isWritable_of_printable (hdescription c hc))
      (isKept_of_printable hdescription)
  have hlines : ¬ m.BreaksLines := by
    simp [Model.BreaksLines, Name.endsInBreak_eq_false hname,
      Name.endsInBreak_eq_false horganization]
  obtain ⟨metadata, hdetected⟩ := Pubspec.detected (Model.isValid_of_ofRequest h)
    (nodup_platforms_of_ofRequest h) hdescribed hlines hkind
  rw [Catalogue.render_metadata]
  exact ⟨_, metadata, rfl, hdetected⟩

/-- A plugin whose name ends its organization, and is read as a truth value. -/
theorem plugin_of_metadata_yes :
    ∃ m, Model.ofRequest .standard
        { kind := .text "plugin", name := .text "yes", organization := some "com.yes"
          platforms := some (.text "web, android"), description := .text "It says: \"yes\" # no" } =
        .ok m ∧ m.kind = .plugin ∧ m.platforms = [.web, .android] ∧ m.organization = "com.yes" ∧
      ∃ text metadata, Catalogue.standard.render true (Layout.metadataTemplate m.kind)
          (m.bindings ⟨2024, 3, 5⟩) = .ok text ∧
        Metadata.parse text = .ok metadata ∧ Kind.ofMetadata metadata = .plugin ∧
        Platform.declaredIn metadata = m.platforms ∧
        (.android ∈ m.platforms → Subject.organizationIn metadata m.name = some m.organization) := by
  have hmodel : ∃ m, Model.ofRequest .standard
      { kind := .text "plugin", name := .text "yes", organization := some "com.yes"
        platforms := some (.text "web, android"), description := .text "It says: \"yes\" # no" } =
      .ok m ∧ m.kind = .plugin ∧ m.platforms = [.web, .android] ∧ m.name = "yes" ∧
      m.organization = "com.yes" ∧ m.description = "It says: \"yes\" # no" :=
    ⟨_, @Model.ofRequest_eq_ok _ _ .plugin "yes" _ _ _ [.web, .android] _ (by decide) (by decide)
      (by decide) rfl (by decide) rfl rfl rfl, rfl, rfl, rfl, rfl, rfl⟩
  obtain ⟨m, hmodel, hkind, hplatforms, hname, horganization, hdescription⟩ := hmodel
  exact ⟨m, hmodel, hkind, hplatforms, horganization,
    plugin_of_metadata hmodel hkind (by rw [hname]; decide) (by rw [horganization]; decide)
      (by rw [hdescription]; decide) true ⟨2024, 3, 5⟩⟩

end PackageScaffold
