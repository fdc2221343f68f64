import PackageScaffold.Proofs.Plan.Finished
import PackageScaffold.Proofs.Plan.SingleFile
import PackageScaffold.Proofs.Review.Derivation
import PackageScaffold.Proofs.Review.Ending
import PackageScaffold.Proofs.Review.Standing

/-!
# The native parts of a plugin

For every platform that a plugin declares, the rule for the layout looks for a native part: a
directory that is not empty or, on the web, a file.  It only asks whether there is content, so it
takes a file for such a directory as well, and a directory for such a file.  A part without content
is reported once, with a repair that writes one file for it.

* `Platform.IsPart`, `Platform.PassesForPart`: what a native part is, and what else is taken for one;
* `RuleOutcome.about_ofChecks`, `filter_checkLayout`: what is reported of a part comes from exactly one
  check;
* `exists_error_of_checkLayout`: the rule fails only where one of its paths cannot be looked at;
* `MendsPart`, `mendsPart_of_hasContent`: what the repair of a part does;
* `ReportsPart`, `nativePart_reported`: what is reported of a part.
-/

namespace PackageScaffold

open Disk FileM

variable {settings : Settings} {s : Subject} {d : Disk} {name : String} {platform : Platform}

/-! ## What stands for a part -/

namespace Platform

/-- The native part on a platform is a directory that is not empty, and on the web a file. -/
def IsPart : Platform → FileTree → Prop
  | .web, tree => ∃ content, tree = .file content
  | _, tree => ∃ entries, tree = .directory entries ∧ entries ≠ []

/-- What a review takes for the native part as well: a file, and on the web a directory that is not
empty. -/
def PassesForPart : Platform → FileTree → Prop
  | .web, tree => ∃ entries, tree = .directory entries ∧ entries ≠ []
  | _, tree => ∃ content, tree = .file content

theorem isPart_or_passesForPart_iff {tree : FileTree} :
    platform.IsPart tree ∨ platform.PassesForPart tree ↔ tree ≠ .directory [] := by
  cases platform <;> cases tree <;> simp [IsPart, PassesForPart]

end Platform

/-- A review looks for content, and does not ask what kind of thing has it. -/
theorem hasContent_eq {path : Path} {found : Option FileTree} (h : d.look? path = .ok found)
    (platform : Platform) :
    ∃ isThere, hasContent d path = .ok isThere ∧ (isThere = true ↔
      ∃ tree, found = some tree ∧ (platform.IsPart tree ∨ platform.PassesForPart tree)) := by
  simp only [Platform.isPart_or_passesForPart_iff, hasContent, h, bind, Except.bind]
  rcases found with _ | content | entries
  · exact ⟨false, rfl, by simp⟩
  · exact ⟨true, rfl, by simp⟩
  · exact ⟨!entries.isEmpty, rfl, by simp⟩

/-! ## What an outcome says about one thing -/

/-- Whether a check would be reported with a message, or is about a path. -/
def Check.isAbout (message subject : String) : Check → Bool
  | .passed success => success == message
  | .failed _ _ path _ => path == subject

/-- The part of an outcome that is reported with a message, or is about a path. -/
def RuleOutcome.about (outcome : RuleOutcome) (message subject : String) : RuleOutcome where
  category := outcome.category
  findings := outcome.findings.filter (·.subject == subject)
  passed := outcome.passed.filter (·.message == message)
  repairs := outcome.repairs.filter (·.1 == subject)

theorem filter_filterMap_of {α β : Type} {f : α → Option β} {p : α → Bool} {q : β → Bool}
    (h : ∀ x, (f x).filter q = if p x then f x else none) (xs : List α) :
    (xs.filterMap f).filter q = (xs.filter p).filterMap f := by
  rw [List.filter_filterMap, List.filterMap_filter]
  exact List.filterMap_congr fun x _ => h x

/-- What an outcome says about one thing comes from the checks of that thing. -/
theorem RuleOutcome.about_ofChecks (category : Category) (checks : List Check)
    (message subject : String) :
    (ofChecks category checks).about message subject =
      ofChecks category (checks.filter (Check.isAbout message subject)) := by
  simp only [about, ofChecks, mk.injEq, true_and]
  refine ⟨filter_filterMap_of (fun check => ?_) checks,
    filter_filterMap_of (fun check => ?_) checks,
    filter_filterMap_of (fun check => ?_) checks⟩
  · cases check with
    | passed success => simp [Check.finding?]
    | failed severity text path repair => simp [Check.finding?, Check.isAbout, Option.filter]
  · cases check with
    | passed success => simp [Check.passed?, Check.isAbout, Option.filter]
    | failed severity text path repair => simp [Check.passed?]
  · cases check with
    | passed success => simp [Check.repair?]
    | failed severity text path repair =>
        by_cases hnil : repair = [] <;> simp [Check.repair?, Check.isAbout, Option.filter, hnil]

/-! ## The check of a part among the others -/

/-- Texts differ where their first characters do. -/
theorem append_ne_append {n : Nat} {front front' : String} (hlength : n ≤ front.toList.length)
    (hlength' : n ≤ front'.toList.length) (h : front.toList.take n ≠ front'.toList.take n)
    (back back' : String) : front ++ back ≠ front' ++ back' := by
  intro heq
  have htake := congrArg (fun text => text.toList.take n) heq
  simp only [String.toList_append, List.take_append_of_le_length, hlength, hlength'] at htake
  exact h htake

theorem Platform.three_le_length_text (platform : Platform) : 3 ≤ platform.text.toList.length := by
  cases platform <;> decide

/-- Three characters tell the platforms apart. -/
theorem Platform.eq_of_take_text {first second : Platform}
    (h : first.text.toList.take 3 = second.text.toList.take 3) : first = second := by
  cases first <;> cases second <;> first | rfl | exact absurd h (by decide)

/-- The message for a part is told from others by its first three characters. -/
theorem partMessage_ne {front : String} (hlength : 3 ≤ front.toList.length)
    (h : platform.text.toList.take 3 ≠ front.toList.take 3) (back : String) :
    front ++ back ≠ partMessage name platform := by
  rw [partMessage, String.append_assoc, String.append_assoc]
  exact append_ne_append hlength platform.three_le_length_text h.symm _ _

section Message

variable {message subject : String}

theorem isAbout_of {success path : String} (hmessage : success ≠ message) (hpath : path ≠ subject)
    (holds : Bool) (severity : Severity) (text : String) (repair : List PlanEntry) :
    (Check.of holds success (.failed severity text path repair)).isAbout message
      subject = false := by
  cases holds <;> simp [Check.of, Check.isAbout, hmessage, hpath]

theorem isAbout_checkDirectory {directory : String} {severity : Severity} {repair : List PlanEntry}
    {check : Check} (h : checkDirectory s d directory severity repair = .ok check)
    (hmessage : directory ++ "/ directory present" ≠ message) (hpath : directory ≠ subject) :
    check.isAbout message subject = false := by
  rcases checkDirectory_eq_ok h with ⟨-, -, rfl⟩ | ⟨-, -, rfl⟩ | ⟨-, rfl⟩ <;>
    simp [Check.isAbout, hmessage, hpath]

end Message

section Subject

variable (hs : s.Sound) (hname : s.name = some name)

include hs hname

theorem steps_nativePath (platform : Platform) :
    (Path.ofString (nativePath name platform)).steps = nativeSteps name platform := by
  obtain rfl := hs.name_eq hname
  exact (spells_nativePath hs.named platform).steps_eq

/-- A part stands alone, or in the library under a name of its own. -/
theorem nativePath_ne_of_steps {path : String} {steps : List String}
    (hsteps : (Path.ofString path).steps = steps) (hfirst : steps.head? = some "lib")
    (hother : steps ≠ ["lib", name ++ "_web.dart"]) (platform : Platform) :
    path ≠ nativePath name platform := by
  rintro rfl
  rw [steps_nativePath hs hname, nativeSteps] at hsteps
  split at hsteps
  · exact hother hsteps.symm
  · subst hsteps
    exact Added.platform_ne_lib platform (Option.some.inj hfirst)

theorem nativePath_injective : Function.Injective (nativePath name) := by
  intro first second heq
  have hsteps := congrArg (fun path => (Path.ofString path).steps) heq
  simp only [steps_nativePath hs hname, nativeSteps] at hsteps
  by_cases hfirst : first = .web <;> by_cases hsecond : second = .web
  · rw [hfirst, hsecond]
  · simp [hfirst, hsecond] at hsteps
  · simp [hfirst, hsecond] at hsteps
  · rw [if_neg hfirst, if_neg hsecond] at hsteps
    exact Platform.text_injective (List.singleton_inj.mp hsteps)

/-- Of the checks of a library, none is about a native part. -/
theorem isAbout_checkLibrary {check : Check} (h : checkLibrary s d name = .ok check)
    (platform : Platform) :
    check.isAbout (partMessage name platform) (nativePath name platform) = false := by
  obtain ⟨isThere, -, h⟩ := bind_eq_ok h
  obtain rfl := Except.ok.inj h
  have hfront : ∀ platform : Platform, platform.text.toList.take 3 ≠ "lib/".toList.take 3 := by
    intro platform
    cases platform <;> decide
  have hmessage : "lib/" ++ (name ++ ".dart" ++ " present") ≠ partMessage name platform :=
    partMessage_ne (by decide) (hfront platform) _
  refine isAbout_of (by simpa only [String.append_assoc] using hmessage) ?_ isThere _ _ _
  have hsteps : (Path.ofString ("lib/" ++ name ++ ".dart")).steps = ["lib", name ++ ".dart"] := by
    obtain rfl := hs.name_eq hname
    exact Layout.steps_libraryPath hs.named
  exact nativePath_ne_of_steps hs hname hsteps rfl (fun heq => by simp at heq) platform

/-- The check of a part in Dart is about none that is native. -/
theorem isAbout_checkPart {label ending : String} {entry : PlanEntry} {check : Check}
    (h : checkPart s d label entry = .ok check) (hlength : 3 ≤ label.toList.length)
    (hlabel : platform.text.toList.take 3 ≠ label.toList.take 3)
    (hpath : entry.path = "lib/src/" ++ s.layout.model.name ++ ending)
    (hslash : '/' ∉ ending.toList) (hending : 2 ≤ ending.toList.length) :
    check.isAbout (partMessage name platform) (nativePath name platform) = false := by
  obtain ⟨isThere, -, h⟩ := bind_eq_ok h
  obtain rfl := Except.ok.inj h
  have hmessage : label ++ (" present (" ++ entry.path ++ ")") ≠ partMessage name platform :=
    partMessage_ne hlength hlabel _
  refine isAbout_of (by simpa only [String.append_assoc] using hmessage) ?_ isThere _ _ _
  have hsteps := Layout.steps_source hs.named ending hslash hending
  rw [← hpath] at hsteps
  exact nativePath_ne_of_steps hs hname hsteps rfl (by simp) platform

/-- The check of a native part is about no other one. -/
theorem isAbout_checkNative {other : Platform} (hother : other ≠ platform) {check : Check}
    (h : checkNative s d name other = .ok check) :
    check.isAbout (partMessage name platform) (nativePath name platform) = false := by
  obtain ⟨isThere, -, h⟩ := bind_eq_ok h
  obtain rfl := Except.ok.inj h
  have hmessage : other.text ++ (" platform present (" ++ nativePath name other ++ ")") ≠
      partMessage name platform :=
    partMessage_ne other.three_le_length_text
      (fun htake => hother (Platform.eq_of_take_text htake).symm) _
  exact isAbout_of (by simpa only [String.append_assoc] using hmessage)
    (fun heq => hother (nativePath_injective hs hname heq)) isThere _ _ _

/-- Of the checks of a layout, exactly one is about a native part. -/
theorem filter_checkLayout (hkind : s.kind = .plugin) (hnodup : s.platforms.Nodup)
    (hplatform : platform ∈ s.platforms) {checks : List Check} (h : checkLayout s d = .ok checks)
    {check : Check} (hcheck : checkNative s d name platform = .ok check) :
    checks.filter (Check.isAbout (partMessage name platform) (nativePath name platform)) =
      [check] := by
  obtain ⟨lib, library, test, parts, hlib, hlibrary, htest, hparts, rfl⟩ := checkLayout_eq_ok h
  obtain ⟨interface, channel, natives, hinterface, hchannel, hnatives, rfl⟩ :=
    checkPlugin_eq_ok (checkPlugin_of_checkParts hkind hname hparts)
  -- none of the other checks has a message that begins like that of a platform
  have hhead : ∀ front ∈ ["lib", "test", "platform interface", "method channel implementation"],
      platform.text.toList.take 3 ≠ front.toList.take 3 := by
    cases platform <;> decide
  have htext : ∀ other : Platform, other.text ≠ "test" := by
    intro other
    cases other <;> decide
  have hlibOff : lib.isAbout (partMessage name platform) (nativePath name platform) = false :=
    isAbout_checkDirectory hlib (partMessage_ne (by decide) (hhead "lib" (by simp)) _)
      (nativePath_ne Added.platform_ne_lib (by decide) platform).symm
  have htestOff : test.isAbout (partMessage name platform) (nativePath name platform) = false :=
    isAbout_checkDirectory htest (partMessage_ne (by decide) (hhead "test" (by simp)) _)
      (nativePath_ne htext (by decide) platform).symm
  have hinterfaceOff := isAbout_checkPart hs hname hinterface (by decide)
    (hhead "platform interface" (by simp)) rfl (by decide) (by decide)
  have hchannelOff := isAbout_checkPart hs hname hchannel (by decide)
    (hhead "method channel implementation" (by simp)) rfl (by decide) (by decide)
  have hlibraryOff : library.filter
      (Check.isAbout (partMessage name platform) (nativePath name platform)) = [] := by
    refine List.filter_eq_nil_iff.mpr fun check hmem => ?_
    obtain ⟨other, hother, hcheck⟩ := exists_of_mem_mapM hlibrary hmem
    rw [hname, Option.mem_toList, Option.some.injEq] at hother
    rw [isAbout_checkLibrary hs hname (hother ▸ hcheck) platform]
    exact Bool.false_ne_true
  have hself : check.isAbout (partMessage name platform) (nativePath name platform) = true := by
    obtain ⟨isThere, -, hcheck⟩ := bind_eq_ok hcheck
    obtain rfl := Except.ok.inj hcheck
    cases isThere <;> simp [Check.of, Check.isAbout, partMessage]
  have hnative := filter_of_mapM hcheck hself hnatives hnodup hplatform
    fun other _ hne _ hother => isAbout_checkNative hs hname hne hother
  simp only [List.filter_append, List.filter_cons, List.filter_nil, hlibOff, htestOff,
    hinterfaceOff, hchannelOff, hlibraryOff, hnative, Bool.false_eq_true, if_false, List.nil_append]

end Subject

/-! ## Layouts that cannot be looked at -/

/-- The paths that the rule for the layout of a plugin looks at. -/
def Subject.layoutPaths (s : Subject) (name : String) : List String :=
  ["lib", "lib/" ++ name ++ ".dart", "test", s.layout.platformInterface.path,
    s.layout.methodChannel.path] ++ s.platforms.map (nativePath name)

section Unseen

variable {failure : Failure}

theorem exists?_of_checkDirectory {directory : String} {severity : Severity}
    {repair : List PlanEntry}
    (h : checkDirectory s d directory severity repair = .error failure) :
    d.exists? (s.inside directory) = .error failure := by
  rcases bind_eq_error h with hlook | ⟨found, -, hcheck⟩
  · rw [exists?, hlook]
    rfl
  · rcases found with _ | content | entries <;> cases hcheck

theorem exists?_of_checkThere {path : Path} {success : String} {otherwise : Check}
    (h : checkThere d path success otherwise = .error failure) :
    d.exists? path = .error failure := by
  rcases bind_eq_error h with hexists | ⟨isThere, -, hcheck⟩
  · exact hexists
  · cases hcheck

theorem exists?_of_checkNative (h : checkNative s d name platform = .error failure) :
    d.exists? (s.inside (nativePath name platform)) = .error failure := by
  rcases bind_eq_error h with hcontent | ⟨isThere, -, hcheck⟩
  · exact hasContent_eq_error_iff.mp hcontent
  · cases hcheck

/-- The rule for the layout of a plugin fails only where one of its paths cannot be looked at. -/
theorem exists_error_of_checkLayout (hkind : s.kind = .plugin) (hname : s.name = some name)
    (h : checkLayout s d = .error failure) :
    ∃ looked ∈ s.layoutPaths name, d.exists? (s.inside looked) = .error failure := by
  rw [checkLayout_eq] at h
  rcases bind_eq_error h with hlib | ⟨lib, -, h⟩
  · exact ⟨"lib", by simp [Subject.layoutPaths], exists?_of_checkDirectory hlib⟩
  rcases bind_eq_error h with hlibrary | ⟨library, -, h⟩
  · obtain ⟨other, hother, hfailed⟩ := exists_error_of_mapM hlibrary
    rw [hname, Option.mem_toList, Option.some.injEq] at hother
    subst hother
    exact ⟨"lib/" ++ name ++ ".dart", by simp [Subject.layoutPaths], exists?_of_checkThere hfailed⟩
  rcases bind_eq_error h with htest | ⟨test, -, h⟩
  · exact ⟨"test", by simp [Subject.layoutPaths], exists?_of_checkDirectory htest⟩
  rcases bind_eq_error h with hparts | ⟨parts, -, h⟩
  · simp only [checkParts, hkind, hname, checkPlugin] at hparts
    rcases bind_eq_error hparts with hinterface | ⟨interface, -, hparts⟩
    · exact ⟨_, by simp [Subject.layoutPaths], exists?_of_checkThere hinterface⟩
    rcases bind_eq_error hparts with hchannel | ⟨channel, -, hparts⟩
    · exact ⟨_, by simp [Subject.layoutPaths], exists?_of_checkThere hchannel⟩
    rcases bind_eq_error hparts with hnatives | ⟨natives, -, hparts⟩
    · obtain ⟨platform, hplatform, hfailed⟩ := exists_error_of_mapM hnatives
      exact ⟨_, List.mem_append_right _ (List.mem_map_of_mem hplatform),
        exists?_of_checkNative hfailed⟩
    · cases hparts
  · cases h

end Unseen

/-! ## What a repair of a part does -/

/-- The path of the file that brings a native part back. -/
def Subject.stubPath (s : Subject) (platform : Platform) : String :=
  Layout.pluginStubPath s.layout.model platform

theorem Subject.plannedFiles_pluginStub (s : Subject) (platform : Platform) :
    plannedFiles [s.layout.pluginStub platform] = [s.stubPath platform] := by
  rw [Layout.pluginStub, plannedFiles_file, plannedFiles_nil, Subject.stubPath]

theorem Subject.plannedDirectories_pluginStub (s : Subject) (platform : Platform) :
    plannedDirectories [s.layout.pluginStub platform] = [] := by
  rw [Layout.pluginStub, plannedDirectories_file, plannedDirectories_nil]

theorem Subject.stubPath_web (s : Subject) :
    s.stubPath .web = nativePath s.layout.model.name .web := rfl

/-- What the repair of a native part that is missing does.  It writes one file, which stands in the
directory that was looked for or, on the web, in its place.  Nothing is in its way but, on the web,
a file in the place of the library or a directory in its own place; and what is there it leaves
alone, although it was not enough. -/
structure MendsPart (settings : Settings) (s : Subject) (d : Disk) (platform : Platform) : Prop where
  inside : ∃ more, ".." ∉ more ∧ (more = [] ↔ platform = .web) ∧
    (Path.ofString (s.stubPath platform)).steps =
      (Path.ofString (nativePath s.layout.model.name platform)).steps ++ more
  written : d.Permits (s.inside (s.stubPath platform)) →
    (platform = .web → d.isDirectory (s.inside (s.stubPath .web)) = .ok false ∧
      d.holdsFile (s.inside "lib") = false) →
    ∃ text after, renderPlan settings.strictTemplates [s.layout.pluginStub platform] =
        .ok [(s.stubPath platform, text)] ∧
      (repair settings s.root [s.layout.pluginStub platform]).outcome d =
        (.ok [s.stubPath platform], after) ∧
      Grows d after ∧ after.itemAt (s.inside (s.stubPath platform)) = .ok (.file (.text text))
  kept : platform = .web → d.isDirectory (s.inside (s.stubPath .web)) = .ok true →
    (repair settings s.root [s.layout.pluginStub platform]).outcome d = (.ok [], d)

section Mends

variable {top : List String} (hs : s.Sound) (h : Rooted d s.root top)

include h in
/-- A part without content is no file. -/
theorem item?_ne_file_of_hasContent {path : String} (hinner : Path.IsInner path)
    (hnull : (s.inside path).hasNull = false) (hempty : hasContent d (s.inside path) = .ok false)
    (content : Content) :
    d.tree.item? (top ++ (Path.ofString path).steps) ≠ some (.file content) := by
  rcases hasContent_eq_ok hempty with ⟨hfree, -⟩ | ⟨-, -, hfalse⟩ | ⟨-, place, hlocate, hitem, -⟩
  · rw [h.item?_of_not_exists hinner hnull hfree]
    simp
  · simp at hfalse
  · rw [Subject.inside, Path.extend_eq_below hinner] at hlocate
    rw [← h.eq_append_of_locate hinner.forward hlocate, hitem]
    simp

include hs

/-- The file for a native part has a content. -/
theorem exists_renderPlan_pluginStub (strict : Bool) (platform : Platform) :
    ∃ text, renderPlan strict [s.layout.pluginStub platform] =
      .ok [(s.stubPath platform, text)] := by
  obtain ⟨today, hlayout⟩ := hs.layout_eq
  obtain ⟨text, htext⟩ := Catalogue.rendersAll_bindings s.layout.model today
    ("native/plugin/" ++ platform.text) (by cases platform <;> decide +kernel)
  refine ⟨text, renderPlan_file (l := s.layout) ?_ _⟩
  rw [hlayout]
  exact htext strict

include h

/-- It is written where nothing is in its way. -/
theorem exists_repair_pluginStub {steps : List String} {last : String}
    (hsteps : (Path.ofString (s.stubPath platform)).steps = steps ++ [last])
    (hpermits : d.Permits (s.inside (s.stubPath platform))) (hopen : d.IsOpen (top ++ steps))
    (hfree : d.tree.item? (top ++ (steps ++ [last])) = none) (settings : Settings) :
    ∃ text after, renderPlan settings.strictTemplates [s.layout.pluginStub platform] =
        .ok [(s.stubPath platform, text)] ∧
      (repair settings s.root [s.layout.pluginStub platform]).outcome d =
        (.ok [s.stubPath platform], after) ∧
      Grows d after ∧ after.itemAt (s.inside (s.stubPath platform)) = .ok (.file (.text text)) := by
  obtain ⟨text, hrender⟩ := exists_renderPlan_pluginStub hs settings.strictTemplates platform
  have hinner := Layout.isInner_pluginStubPath hs.named platform
  have hlookup : List.lookup (s.stubPath platform) [(s.stubPath platform, text)] = some text := by
    simp
  obtain ⟨done, after, hcarry, hwritten, hgrows, hafter⟩ := carryOut_file h
    (s.plannedFiles_pluginStub platform) (s.plannedDirectories_pluginStub platform) hinner hsteps
      hpermits
    hopen hfree hlookup
  refine ⟨text, after, hrender, ?_, hgrows, hafter⟩
  rw [outcome_repair, hrender]
  simp only [hcarry, Except.map, hwritten]

/-- Nothing stands in the way in a directory that is missing or empty. -/
theorem MendsPart.of_ne_web (hweb : platform ≠ .web)
    (hempty : hasContent d (s.inside (nativePath s.layout.model.name platform)) = .ok false) :
    MendsPart settings s d platform := by
  have hspells := spells_nativePath hs.named platform
  have hinner := Layout.isInner_pluginStubPath hs.named platform
  obtain ⟨more, hmore, hsteps⟩ := Layout.steps_pluginStubPath (m := s.layout.model) hweb
  have hback := hinner.forward
  rw [hsteps] at hback
  rw [nativeSteps, if_neg hweb] at hspells
  refine ⟨⟨more, fun hmem => hback (List.mem_cons_of_mem _ hmem), by simp [hmore, hweb], ?_⟩,
    fun hpermits _ => ?_, fun heq => absurd heq hweb⟩
  · rw [Subject.stubPath, hsteps, hspells.steps_eq]
    rfl
  · have hfits : Fits platform.text ∧ Path.isNullStep platform.text = false := by
      cases platform <;> exact ⟨⟨by decide, by decide⟩, by decide⟩
    have hnull : (s.inside (nativePath s.layout.model.name platform)).hasNull = false := by
      rw [Subject.inside, Path.extend_eq_below hspells.isInner, hspells.steps_eq,
        Path.hasNull_below h.noNull]
      simpa using hfits.2
    have hfile := item?_ne_file_of_hasContent h hspells.isInner hnull hempty
    have hbelow : hasContent d (s.root.below [platform.text]) = .ok false := by
      rwa [Subject.inside, Path.extend_eq_below hspells.isInner, hspells.steps_eq] at hempty
    have hnone := item?_eq_none_of_hasContent h hfits.1 hfits.2 hbelow
    rw [hspells.steps_eq] at hfile
    -- the directory of the platform is missing or empty, so nothing stands on the way below it
    obtain ⟨above, last, rfl⟩ := (List.eq_nil_or_concat' more).resolve_left hmore
    have hplace : (Path.ofString (s.stubPath platform)).steps = (platform.text :: above) ++
      [last] := hsteps
    refine exists_repair_pluginStub hs h hplace hpermits
      (h.isOpen fun made content hmade hfront => ?_) ?_ settings
    · rcases List.prefix_cons_iff.mp hfront with rfl | ⟨rest, rfl, -⟩
      · exact absurd rfl hmade
      · cases rest with
        | nil => exact hfile content
        | cons step rest => simp [hnone step rest]
    · obtain ⟨step, rest, hcons⟩ := List.exists_cons_of_ne_nil hmore
      rw [List.cons_append, hcons]
      exact hnone step rest

/-- On the web, only a file in the place of the library and a directory stand in the way. -/
theorem MendsPart.of_web
    (hempty : hasContent d (s.inside (nativePath s.layout.model.name .web)) = .ok false) :
    MendsPart settings s d .web := by
  have hspells : Path.Spells (s.stubPath .web) (["lib"] ++ [s.layout.model.name ++ "_web.dart"]) :=
    Layout.spells_webPath (l := s.layout) hs.named
  have hname : '\x00' ∉ ("lib/" ++ s.layout.model.name ++ "_web.dart").toList := by
    simp [Name.null_not_mem_of_isPackageName hs.named]
  have hnull : (s.inside (s.stubPath .web)).hasNull = false := Path.hasNull_extend h.noNull hname
  rw [← s.stubPath_web] at hempty
  refine ⟨⟨[], by simp, by simp, by rw [List.append_nil, s.stubPath_web]⟩, fun hpermits hway => ?_,
    fun _ hdirectory => ?_⟩
  · obtain ⟨hdirectory, hlib⟩ := hway rfl
    have hfree : d.exists? (s.inside (s.stubPath .web)) = .ok false := by
      rcases hasContent_eq_ok hempty with ⟨hfree, -⟩ | ⟨-, -, hfalse⟩ |
        ⟨-, place, hlocate, hitem, -⟩
      · exact hfree
      · simp at hfalse
      · have hthere := isDirectory_of_locate hnull hlocate hitem
        simp [hdirectory] at hthere
    have hnone := h.item?_of_not_exists hspells.isInner hnull hfree
    rw [hspells.steps_eq] at hnone
    refine exists_repair_pluginStub hs h hspells.steps_eq hpermits
      (h.isOpen fun made content hmade hfront hfile => ?_) hnone settings
    obtain rfl : made = ["lib"] := by
      rcases List.prefix_cons_iff.mp hfront with rfl | ⟨rest, rfl, hrest⟩
      · exact absurd rfl hmade
      · rw [List.prefix_nil.mp hrest]
    have hplace : d.place (s.inside "lib") = top ++ ["lib"] := by
      have hstep : Path.IsStep "lib" := by decide
      rw [Subject.inside, place_extend (hstep.isInner (by decide)), ← h.eq_place,
        Path.steps_of_isStep hstep]
    simp [holdsFile, hplace, hfile] at hlib
  · obtain ⟨text, hrender⟩ := exists_renderPlan_pluginStub hs settings.strictTemplates .web
    obtain ⟨hnull, hitem⟩ := isDirectory_true_iff.mp hdirectory
    obtain ⟨place, hlocate, -⟩ := exists_locate_of_itemAt hitem
    rw [Subject.inside, Path.extend_eq_below hspells.isInner, hspells.steps_eq] at hlocate
    have hforward := hspells.forward
    have habove := itemAt_above h hforward hlocate
    -- a directory in the place of the file counts as that file, and the library is there above it
    have hsettled : IsSettled s.root .skip [(s.stubPath .web, text)] [s.layout.pluginStub .web]
        d := by
      refine ⟨fun directory hmem => ?_, fun file hmem => ?_, by simp⟩
      · have hplan : IsInnerPlan [s.layout.pluginStub .web] :=
          isInnerPlan_file (Layout.isInner_pluginStubPath hs.named .web)
        obtain ⟨-, hlib⟩ := extend_of_mem_wantedDirectories hplan (s.plannedFiles_pluginStub .web)
          (s.plannedDirectories_pluginStub .web) hspells.steps_eq s.root directory hmem
        have hnull' : (s.root.below ["lib"]).hasNull = false := by
          rw [Path.hasNull_below h.noNull]
          decide
        rw [hlib]
        exact exists?_true_iff.mpr ⟨hnull', _, habove⟩
      · obtain rfl : file = s.stubPath .web := by
          rwa [s.plannedFiles_pluginStub, List.mem_singleton] at hmem
        exact exists?_of_isDirectory hdirectory
    have hrun : (carryOut [s.layout.pluginStub .web] s.root [(s.stubPath .web, text)] .skip
        none).outcome d = _ := hsettled.outcome_carryOut rfl
    rw [outcome_repair, hrender]
    simp only [hrun]
    rfl

theorem mendsPart_of_hasContent (settings : Settings)
    (hempty : hasContent d (s.inside (nativePath s.layout.model.name platform)) = .ok false) :
    MendsPart settings s d platform := by
  by_cases hweb : platform = .web
  · subst hweb
    exact .of_web hs h hempty
  · exact .of_ne_web hs h hweb hempty

end Mends

/-! ## The result -/

/-- What the rule for the layout of a plugin reports about its native part on a platform: one passed
check if it was found, or one warning with the repair for it, and nothing else in either case.  The
rule fails as a whole if one of the paths that it looks at is too long. -/
inductive ReportsPart (settings : Settings) (s : Subject) (d : Disk) (name : String)
    (platform : Platform) : Prop
  | found {tree : FileTree} (hlook : d.look? (s.inside (nativePath name platform)) = .ok (some tree))
      (hcounts : platform.IsPart tree ∨ platform.PassesForPart tree)
      (hreport : (RuleOutcome.ofRule s d .layout).about (partMessage name platform)
        (nativePath name platform) = .ofChecks .layout [.passed (partMessage name platform)])
  | missed {found : Option FileTree} (hlook : d.look? (s.inside (nativePath name platform)) = .ok found)
      (hnot : ∀ tree, found = some tree → ¬ (platform.IsPart tree ∨ platform.PassesForPart tree))
      (hreport : (RuleOutcome.ofRule s d .layout).about (partMessage name platform)
        (nativePath name platform) = .ofChecks .layout [partMissed s.layout name platform])
      (hmends : MendsPart settings s d platform)
  | unseen {looked : String} (hlooked : looked ∈ s.layoutPaths name)
      (hlong : (s.inside looked).ExceedsLimits)
      (hreport : RuleOutcome.ofRule s d .layout =
        .ofFailure .layout (.unreachable (described (s.inside looked) .tooLong)))

/-- One of the checks is about the part, and that looks for content. -/
theorem reportsPart_of_rooted (hs : s.Sound) {top : List String} (h : Rooted d s.root top)
    (hkind : s.kind = .plugin) (hname : s.name = some name) (hnodup : s.platforms.Nodup)
    (hplatform : platform ∈ s.platforms) (settings : Settings) :
    ReportsPart settings s d name platform := by
  cases hchecks : checkLayout s d with
  | error failure =>
      -- the rule fails as a whole only over a path beyond the limits
      obtain ⟨looked, hlooked, hfailed⟩ := exists_error_of_checkLayout hkind hname hchecks
      obtain ⟨hlong, rfl⟩ := exceedsLimits_of_exists? hfailed
      refine .unseen hlooked hlong ?_
      simp only [RuleOutcome.ofRule, Category.checks, hchecks]
  | ok checks =>
      obtain ⟨check, -, hcheck⟩ := exists_checkNative hkind hname hplatform hchecks
      have habout : (RuleOutcome.ofRule s d .layout).about (partMessage name platform)
          (nativePath name platform) = .ofChecks .layout [check] := by
        simp only [RuleOutcome.ofRule, Category.checks, hchecks, RuleOutcome.about_ofChecks,
          filter_checkLayout hs hname hkind hnodup hplatform hchecks hcheck]
      obtain ⟨_, hlooked, -⟩ := bind_eq_ok hcheck
      obtain ⟨found, hlook, -⟩ := bind_eq_ok hlooked
      obtain ⟨isThere, hcontent, hcounts⟩ := hasContent_eq hlook platform
      rw [checkNative_of_hasContent hcontent] at hcheck
      obtain rfl := Except.ok.inj hcheck
      cases isThere with
      | true =>
          obtain ⟨tree, rfl, hpart⟩ := hcounts.mp rfl
          exact .found hlook hpart habout
      | false =>
          refine .missed hlook (fun tree htree hpart => ?_) habout ?_
          · exact Bool.false_ne_true (hcounts.mpr ⟨tree, htree, hpart⟩)
          · rw [← hs.name_eq hname] at hcontent
            exact mendsPart_of_hasContent hs h settings hcontent

/-- In a directory with the metadata of a plugin that has a valid name, the rule for the layout says
of each declared platform whether there is a native part, or something that passes for it.  Where
there is neither, it says so once, and the repair writes a file in the place of the part or below
it. -/
theorem nativePart_reported {metadata : Entries} {root : Path} (hroot : d.isDirectory root = .ok true)
    (hfound : Subject.readMetadata d root = .ok (some (.ok metadata)))
    (hname : Subject.nameIn metadata = some name) (hplatform : platform ∈ Platform.declaredIn metadata)
    (settings : Settings) (today : Date) (strict : Bool) :
    ∃ s, Subject.ofDisk settings today strict root d = .ok s ∧ s.root = root ∧ s.name = some name ∧
      ReportsPart settings s d name platform := by
  obtain ⟨m, hmodel⟩ := exists_modelFor settings root metadata
  obtain ⟨text, hparse⟩ := Subject.exists_parse_of_readMetadata hfound
  have hread : Subject.ofDisk settings today strict root d = .ok _ :=
    Subject.ofDisk_of_readMetadata hfound hmodel
  obtain ⟨top, hrooted⟩ := exists_rooted hroot
  refine ⟨_, hread, rfl, hname, ?_⟩
  exact reportsPart_of_rooted (Subject.sound_of_ofDisk hread) hrooted
    (plugin_of_mem_declaredIn hplatform)
    hname (nodup_declaredIn (Metadata.namesOnce_of_parse hparse)) hplatform settings

/-- The metadata of a plugin for Android and iOS. -/
def twoPlatformsText : String :=
  "name: geo\nflutter:\n  plugin:\n    platforms:\n" ++
    "      android:\n        package: io.acme.geo\n      ios:\n        pluginClass: GeoPlugin\n"

/-- The plugin, with a file in the place of its Android directory, and nothing for iOS. -/
def strayFileDisk : Disk :=
  { tree := .directory [("geo", .directory [("pubspec.yaml", .file (.text twoPlatformsText)),
      ("android", .file (.text ""))])] }

/-- The file is reported as the Android part; the part for iOS is missed, and its repair
brings it back. -/
theorem nativePart_reported_strayFile :
    let root := Path.ofString "geo"
    ∃ metadata s after, strayFileDisk.isDirectory root = .ok true ∧
      Subject.readMetadata strayFileDisk root = .ok (some (.ok metadata)) ∧
      Subject.nameIn metadata = some "geo" ∧ Platform.declaredIn metadata = [.android, .ios] ∧
      Subject.ofDisk .standard ⟨2024, 3, 5⟩ false root strayFileDisk = .ok s ∧
      (RuleOutcome.ofRule s strayFileDisk .layout).about "android platform present (android)" "android" =
        .ofChecks .layout [.passed "android platform present (android)"] ∧
      (RuleOutcome.ofRule s strayFileDisk .layout).about "ios platform present (ios)" "ios" =
        .ofChecks .layout [partMissed s.layout "geo" .ios] ∧
      (repair .standard root [s.layout.pluginStub .ios]).outcome strayFileDisk =
        (.ok ["ios/Classes/SwiftGeoPlugin.swift"], after) := by
  intro root
  have hread : (Subject.readMetadata strayFileDisk root).map (fun found =>
      (found.bind Except.toOption).map fun metadata => (Subject.nameIn metadata,
        Platform.declaredIn metadata)) = .ok (some (some "geo", [.android, .ios])) := by
    decide +kernel
  obtain ⟨metadata, hfound, hread⟩ := Subject.exists_readMetadata_of_map hread
  obtain ⟨hname, hplatforms⟩ := Prod.mk.injEq .. ▸ hread
  have hroot : strayFileDisk.isDirectory root = .ok true := by decide +kernel
  have handroid : .android ∈ Platform.declaredIn metadata := by simp [hplatforms]
  have hios : .ios ∈ Platform.declaredIn metadata := by simp [hplatforms]
  obtain ⟨s, hs, hsRoot, -, handroid⟩ :=
    nativePart_reported hroot hfound hname handroid .standard ⟨2024, 3, 5⟩ false
  obtain ⟨s', hs', -, -, hios⟩ :=
    nativePart_reported hroot hfound hname hios .standard ⟨2024, 3, 5⟩ false
  obtain rfl : s = s' := Except.ok.inj (hs.symm.trans hs')
  have hlooked : (Subject.ofDisk .standard ⟨2024, 3, 5⟩ false root strayFileDisk).map (fun s =>
      ((RuleOutcome.ofRule s strayFileDisk .layout).passed.isEmpty, s.stubPath .ios)) =
      .ok (false, "ios/Classes/SwiftGeoPlugin.swift") := by
    decide +kernel
  rw [hs] at hlooked
  obtain ⟨hpassed, hstub⟩ := Prod.mk.injEq .. ▸ Except.ok.inj hlooked
  have hseen : ∀ failure, RuleOutcome.ofRule s strayFileDisk .layout ≠ .ofFailure .layout failure :=
    fun failure hfailed => by simp [hfailed, RuleOutcome.ofFailure] at hpassed
  have hfile : strayFileDisk.look? (s.inside "android") = .ok (some (.file (.text ""))) := by
    rw [Subject.inside, hsRoot]
    rfl
  have hnothing : strayFileDisk.look? (s.inside "ios") = .ok none := by
    rw [Subject.inside, hsRoot]
    rfl
  have hpermits : strayFileDisk.Permits (s.inside (s.stubPath .ios)) := by
    rw [Subject.inside, hsRoot, hstub]
    exact ⟨by decide +kernel, by decide +kernel, by decide +kernel, by decide +kernel⟩
  cases handroid with
  | unseen _ _ hreport => exact absurd hreport (hseen _)
  | missed hlook hnot _ _ =>
      obtain rfl := Except.ok.inj (hfile.symm.trans hlook)
      exact absurd (.inr ⟨_, rfl⟩) (hnot _ rfl)
  | found _ _ hpresent =>
      cases hios with
      | unseen _ _ hreport => exact absurd hreport (hseen _)
      | found hlook _ _ => cases hnothing.symm.trans hlook
      | missed _ _ hmissed hmends =>
          obtain ⟨text, after, -, hrepair, -⟩ := hmends.written hpermits (by simp)
          rw [hsRoot, hstub] at hrepair
          exact ⟨metadata, s, after, hroot, hfound, hname, hplatforms, hs, hpresent, hmissed, hrepair⟩

end PackageScaffold
