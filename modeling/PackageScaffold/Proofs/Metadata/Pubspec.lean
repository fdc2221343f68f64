import PackageScaffold.Proofs.Catalogue.Pubspec
import PackageScaffold.Proofs.Metadata.Address
import PackageScaffold.Proofs.Metadata.Declaration

/-!
# The metadata of a new project as a mapping

The text that the metadata template of a kind is rendered to is a block mapping.  Its sections are
written one below the other, with a blank line in front of each.

* `Pubspec.block`: the mapping of a project, with how its name and its description are written;
* `Pubspec.document_block`: it is written as the text of the metadata;
* `Pubspec.entries_block`: the entries that it stands for.
-/

namespace PackageScaffold

open Yaml

namespace Pubspec

/-! ## The parts of the mapping -/

/-- The site that new projects are said to be at. -/
def site : String := "https://github.com/yourorg/"

/-- Where the users of a library find more about it, with blank lines behind each address. -/
def publication (blanks : Nat) (name tracker : String) (rest : Block) : Block :=
  .scalar 0 "homepage" (.plain (site ++ name)) <|
  .scalar blanks "repository" (.plain (site ++ name)) <|
  .scalar blanks "issue_tracker" (.plain tracker) rest

/-- What a library says of itself behind its description. -/
def library (version name : String) (rest : Block) : Block :=
  .scalar 0 "version" (.plain version) <|
  publication 0 name (site ++ name ++ "/issues") <|
  .scalar 0 "documentation" (.plain ("https://pub.dev/documentation/" ++ name ++ "/latest/")) rest

/-- A dependency on a part of the Flutter tools. -/
def flutterPart (name : String) (rest : Block) : Block :=
  .nested 0 name (.scalar 0 "sdk" (.plain "flutter") .nil) rest

/-- The versions of the tools that a Flutter project asks for. -/
def flutterEnvironment : Block :=
  .scalar 0 "sdk" (.plain sdkConstraint) <|
  .scalar 0 "flutter" (.quoted (flutterConstraint.toList ++ ['"']) flutterConstraint) .nil

/-- What a Flutter project needs for its own development. -/
def flutterDevelopment : Block :=
  flutterPart "flutter_test" (.scalar 0 "flutter_lints" (.plain "^5.0.0") .nil)

/-- The metadata of an application behind its description. -/
def application : Block :=
  .scalar 0 "publish_to" (.plain "none") <|
  .scalar 0 "version" (.plain "1.0.0+1") <|
  .nested 1 "environment" flutterEnvironment <|
  .nested 1 "dependencies"
    (flutterPart "flutter" (.scalar 0 "cupertino_icons" (.plain "^1.0.8") .nil)) <|
  .nested 1 "dev_dependencies" flutterDevelopment <|
  .nested 1 "flutter" (.scalar 0 "uses-material-design" (.word "true" (.bool true)) <|
    .items 0 "assets" ["assets/images/"] .nil) .nil

/-- The sections of a package. -/
def packageSections : Block :=
  .nested 1 "environment" (.scalar 0 "sdk" (.plain sdkConstraint) .nil) <|
  .nested 1 "dependencies" (.scalar 0 "meta" (.plain "^1.15.0") .nil) <|
  .nested 1 "dev_dependencies"
    (.scalar 0 "lints" (.plain "^5.0.0") <| .scalar 0 "test" (.plain "^1.25.0") .nil) .nil

/-- What a plugin depends on. -/
def pluginDependencies (isWeb : Bool) : Block :=
  flutterPart "flutter" <| .scalar 0 "plugin_platform_interface" (.plain "^2.1.8") <|
    if isWeb then flutterPart "flutter_web_plugins" (.scalar 0 "web" (.plain "^1.1.0") .nil) else .nil

/-- The sections of a plugin, of which the last is about its platforms. -/
def pluginSections (isWeb : Bool) (platforms : Block) : Block :=
  .nested 1 "environment" flutterEnvironment <|
  .nested 1 "dependencies" (pluginDependencies isWeb) <|
  .nested 1 "dev_dependencies" flutterDevelopment <|
  .nested 1 "flutter" (.nested 0 "plugin" (.nested 0 "platforms" platforms .nil) .nil) .nil

/-- The class that implements a plugin on a platform, and for the web its file. -/
def implementation (m : Model) (target : Platform) : Block :=
  .scalar 0 "pluginClass" (.plain (target.pluginClass m.pascalName)) <|
    if target = .web then .scalar 0 "fileName" (.plain (m.name ++ "_web.dart")) .nil else .nil

/-- What a plugin says of one of its platforms. -/
def platform (m : Model) (target : Platform) : Block :=
  if target = .android then .scalar 0 "package" (.plain m.androidPackage) (implementation m target)
  else implementation m target

/-- What a plugin says of some of its platforms, and what follows. -/
def platforms (m : Model) (rest : Block) : List Platform → Block
  | [] => rest
  | target :: targets => .nested 0 target.text (platform m target) (platforms m rest targets)

/-- The metadata of a project behind its description. -/
def further (m : Model) : Block :=
  match m.kind with
  | .application => application
  | .plugin =>
    library "0.0.1" m.name (pluginSections (m.platforms.contains .web) (platforms m .nil m.platforms))
  | .package => library "1.0.0" m.name packageSections

/-- A mapping that begins with a name and a description.  There may be blank lines between them. -/
def titled (blanks : Nat) (name description : Scalar) (rest : Block) : Block :=
  .scalar 0 "name" name (.scalar blanks "description" description rest)

/-- The metadata of a project. -/
def block (m : Model) (blanks : Nat) (name description : Scalar) : Block :=
  titled blanks name description (further m)

/-! ## How they are written -/

theorem document_titled (blanks : Nat) (name description : Scalar) (rest : Block) :
    (titled blanks name description rest).document = "name: ".toList ++
      (name.source ++ List.replicate blanks '\n') ++ "\ndescription: ".toList ++
        description.source ++
      (rest.text 0 ++ ['\n']) := by
  have hgap : lineGap blanks 0 = List.replicate blanks '\n' ++ ['\n'] := by
    simp [lineGap, List.replicate_succ']
  simp [titled, Block.document, Block.text, hgap, show lineGap 0 0 = ['\n'] from rfl]

/-- What the template of a library says between the description and the sections. -/
def libraryText (version name : String) : String :=
  "\nversion: " ++ version ++ "\nhomepage: " ++ site ++ name ++ "\nrepository: " ++ site ++ name ++
  "\nissue_tracker: " ++ site ++ name ++ "/issues" ++
  "\ndocumentation: " ++ "https://pub.dev/documentation/" ++ name ++ "/latest/"

/-- An entry on a line of its own, behind some blank lines. -/
theorem text_plain (blanks : Nat) (key text : String) (rest : Block) :
    (Block.scalar blanks key (.plain text) rest).text 0 =
      List.replicate blanks '\n' ++ (("\n" ++ key ++ ": " ++ text).toList ++ rest.text 0) := by
  simp [Block.text, lineGap, Scalar.plain, Scalar.word, List.replicate_succ']

theorem text_library (version name : String) (rest : Block) :
    (library version name rest).text 0 = (libraryText version name).toList ++ rest.text 0 := by
  unfold library publication libraryText
  simp only [text_plain, String.reduceAppend, String.toList_append, List.append_assoc,
    List.replicate_zero, List.nil_append]

/-- What the template of an application says behind the description. -/
def applicationText : String :=
  "\npublish_to: none\nversion: " ++ Kind.firstVersion .application ++
  "+1\n\nenvironment:\n  sdk: " ++ sdkConstraint ++
  "\n  flutter: \"" ++ flutterConstraint ++
  "\"\n\ndependencies:\n  flutter:\n    sdk: flutter\n  cupertino_icons: ^1.0.8\n" ++
  "\ndev_dependencies:\n  flutter_test:\n    sdk: flutter\n  flutter_lints: ^5.0.0\n" ++
  "\nflutter:\n  uses-material-design: true\n" ++ "  assets:\n" ++ "    - " ++ "assets/images/" ++
  "\n"

/-- What the template of a package says behind the address of its documentation. -/
def packageText : String :=
  "\n\nenvironment:\n  sdk: " ++ sdkConstraint ++
  "\n\ndependencies:\n  meta: ^1.15.0\n" ++ "\ndev_dependencies:\n  lints: ^5.0.0\n  test: ^1.25.0\n"

/-- What the template of a plugin says between the address of its documentation and its
platforms. -/
def pluginText (isWeb : Bool) : String :=
  "\n\nenvironment:\n  sdk: " ++ sdkConstraint ++
  "\n  flutter: \"" ++ flutterConstraint ++
  "\"\n\ndependencies:\n  flutter:\n    sdk: flutter\n  plugin_platform_interface: ^2.1.8\n" ++
  (if isWeb then "  flutter_web_plugins:\n    sdk: flutter\n  web: ^1.1.0\n" else "") ++
  "\ndev_dependencies:\n  flutter_test:\n    sdk: flutter\n  flutter_lints: ^5.0.0\n"

set_option maxRecDepth 2000 in
theorem text_application : application.text 0 ++ ['\n'] = applicationText.toList := by
  -- the characters of the text come first, and then those of the entries
  symm
  apply Eq.trans
  · unfold applicationText sdkConstraint flutterConstraint Kind.firstVersion
    repeat' with_reducible first
      | apply Catalogue.toList_append_of
      | exact String.toList_ofList
  · rfl

theorem text_packageSections : packageSections.text 0 ++ ['\n'] = packageText.toList := by
  symm
  apply Eq.trans
  · unfold packageText sdkConstraint
    repeat' with_reducible first
      | apply Catalogue.toList_append_of
      | exact String.toList_ofList
  · rfl

set_option maxRecDepth 2000 in
theorem text_pluginSections (isWeb : Bool) (platforms : Block) :
    (pluginSections isWeb platforms).text 0 = (pluginText isWeb).toList ++
      ("\nflutter:\n  plugin:\n    platforms:".toList ++ platforms.text 6) := by
  have hfront : (pluginSections isWeb .nil).text 0 = (pluginText isWeb).toList ++
      "\nflutter:\n  plugin:\n    platforms:".toList := by
    symm
    rw [← String.toList_append]
    cases isWeb
    all_goals
      apply Eq.trans
      · unfold pluginText sdkConstraint flutterConstraint
        first | rewrite [if_pos rfl] | rewrite [if_neg Bool.false_ne_true]
        repeat' with_reducible first
          | apply Catalogue.toList_append_of
          | exact String.toList_ofList
      · rfl
  rw [← List.append_assoc, ← hfront]
  simp only [pluginSections, Block.text, List.append_assoc, List.cons_append, List.append_nil]
  rfl

/-- What a plugin says of its platforms, each on lines of its own. -/
theorem text_platforms (m : Model) (targets : List Platform) :
    (platforms m .nil targets).text 6 ++ ['\n'] =
      '\n' :: (String.join (targets.map m.platformMetadata)).toList := by
  induction targets with
  | nil => rfl
  | cons target targets ih =>
      rw [String.toList_join] at ih ⊢
      rw [List.map_cons, List.flatMap_cons]
      have hfirst : (Block.nested 0 target.text (platform m target) .nil).text 6 ++ ['\n'] =
          '\n' :: (m.platformMetadata target).toList := by
        cases target <;>
          simp [Model.platformMetadata, platform, implementation, Block.text, lineGap,
            Block.indentation, Scalar.plain, Scalar.word, Platform.text, List.replicate_succ]
      calc (platforms m .nil (target :: targets)).text 6 ++ ['\n']
          = (Block.nested 0 target.text (platform m target) .nil).text 6 ++
              ((platforms m .nil targets).text 6 ++ ['\n']) := by
            simp [platforms, Block.text]
        _ = _ := by
            rw [ih, ← List.singleton_append, ← List.append_assoc, hfirst, List.cons_append]

/-- What the template of a kind says behind the description. -/
def furtherText (m : Model) : String :=
  match m.kind with
  | .application => applicationText
  | .plugin => libraryText "0.0.1" m.name ++ pluginText (m.platforms.contains .web) ++
    "\nflutter:\n  plugin:\n    platforms:\n" ++ String.join (m.platforms.map m.platformMetadata)
  | .package => libraryText "1.0.0" m.name ++ packageText

theorem metadataText_eq (m : Model) : m.metadataText =
    "name: " ++ m.name ++ "\ndescription: " ++ Json.quote m.description ++ furtherText m := by
  unfold Model.metadataText furtherText
  cases hkind : m.kind with
  | application =>
      unfold Model.applicationMetadata applicationText
      simp [hkind, String.append_assoc, -String.reduceAppend]
  | plugin =>
      unfold Model.pluginMetadata pluginText libraryText Model.repository site
      simp [hkind, String.append_assoc, -String.reduceAppend, Kind.firstVersion]
  | package =>
      unfold Model.packageMetadata packageText libraryText Model.repository site
      simp [hkind, String.append_assoc, -String.reduceAppend, Kind.firstVersion]

theorem toList_metadataText (m : Model) : m.metadataText.toList =
    "name: ".toList ++ m.name.toList ++ "\ndescription: ".toList ++
      (Json.quote m.description).toList ++ (furtherText m).toList := by
  rw [metadataText_eq]
  simp only [String.toList_append]

theorem text_further (m : Model) : (further m).text 0 ++ ['\n'] = (furtherText m).toList := by
  unfold further furtherText
  cases m.kind with
  | application => exact text_application
  | plugin =>
      simp only
      have hbreak : "\nflutter:\n  plugin:\n    platforms:\n".toList =
          "\nflutter:\n  plugin:\n    platforms:".toList ++ ['\n'] := by decide
      rw [text_library, text_pluginSections, List.append_assoc, List.append_assoc,
        List.append_assoc, text_platforms, String.toList_append, String.toList_append,
          String.toList_append, hbreak]
      simp only [List.append_assoc, List.singleton_append]
  | package =>
      simp only
      rw [text_library, List.append_assoc, text_packageSections, String.toList_append]

/-- The text of the metadata is how the mapping is written. -/
theorem document_block {m : Model} {blanks : Nat} {name description : Scalar}
    (hname : name.source ++ List.replicate blanks '\n' = m.name.toList)
    (hdescription : description.source = (Json.quote m.description).toList) :
    (block m blanks name description).document = m.metadataText.toList := by
  rw [block, document_titled, hname, hdescription, text_further, toList_metadataText]

end Pubspec

end PackageScaffold
