import PackageScaffold.Plan.Layout
import PackageScaffold.Proofs.Catalogue.Rendering
import PackageScaffold.Proofs.Template.Mention

/-!
# What the templates of repairs mention

A file that is brought back is made from a model that was read off the metadata.  The metadata do
not say everything about the model that the file was first made from: the organization of a project
without Android sources is lost, and so are the platforms of an application.  The templates of
repairs mention neither, so the file comes out the same.

* `Model.Alike`: two models of one kind with the same name and texts;
* `get?_bindings_of_alike`: what two such models bind alike;
* `render_of_alike`, `render_library_of_alike`: the templates of repairs give the same text for
  both, and so does the stub for Android if the organization is the same.
-/

namespace PackageScaffold

open Template

/-- Two models of one kind with the same name and the same texts. -/
structure Model.Alike (m m' : Model) : Prop where
  kind : m'.kind = m.kind
  name : m'.name = m.name
  description : m'.description = m.description
  author : m'.author = m.author

namespace Catalogue

/-! ## Bindings -/

/-- The names of what depends on the platforms of a project. -/
def platformNames : List String := ["has_web", "platforms"]

/-- The names of what depends on the organization of a project. -/
def organizationNames : List String := ["organization", "android_package", "android_package_path"]

variable {m m' : Model}

/-- The value of one key does not matter to what another name is bound to. -/
theorem get?_cons_congr {key value value' : Value} {rest rest' : Entries} {name : String}
    (hvalue : value' = value ∨ key ≠ .text name)
    (hrest : Entries.get? rest' name = Entries.get? rest name) :
    Entries.get? ((key, value') :: rest') name = Entries.get? ((key, value) :: rest) name := by
  rw [Entries.get?_cons, Entries.get?_cons key value, hrest]
  rcases hvalue with rfl | hkey
  · rfl
  · have hnone : ∀ value, Entries.get? [(key, value)] name = none := by
      intro value
      cases key with
      | text text =>
          have hne : text ≠ name := fun heq => hkey (congrArg Value.text heq)
          simp [Entries.get?, hne]
      | _ => rfl
    rw [hnone, hnone]

/-- Models that are alike bind alike what depends neither on the platforms nor, unless it is the
same, on the organization. -/
theorem get?_bindings_of_alike (h : m.Alike m') (today : Date) {name : String}
    (hplatform : name ∉ platformNames)
    (horganization : name ∈ organizationNames → m'.organization = m.organization) :
    Entries.get? (m'.bindings today) name = Entries.get? (m.bindings today) name := by
  have hplatforms : ∀ key ∈ platformNames, Value.text key ≠ .text name := by
    rintro key hkey heq
    exact hplatform (Value.text.inj heq ▸ hkey)
  have hpackage : m'.organization = m.organization →
      m'.androidPackage = m.androidPackage ∧ m'.androidPackagePath = m.androidPackagePath := by
    intro heq
    unfold Model.androidPackagePath Model.androidPackage
    rw [heq, h.name]
    exact ⟨rfl, rfl⟩
  have hplaces : m'.organization = m.organization ∨
      ∀ key ∈ organizationNames, Value.text key ≠ .text name := by
    by_cases hmem : name ∈ organizationNames
    · exact .inl (horganization hmem)
    · exact .inr fun key hkey heq => hmem (Value.text.inj heq ▸ hkey)
  unfold Model.bindings Model.textBinding Model.switchBinding Model.listBinding Model.usageExample
    Model.featureRecords Model.exportRecords Model.repository Model.pascalName Model.textBinding
  rw [h.kind, h.name, h.description, h.author]
  -- entry by entry, the bindings are the same or those of another name
  repeat first
    | with_reducible exact rfl
    | refine get?_cons_congr (.inl (by with_reducible rfl)) ?_
    | refine get?_cons_congr (.inr (hplatforms _ (by decide))) ?_
    | refine get?_cons_congr (hplaces.imp (congrArg Value.text) fun hkey => hkey _ (by decide)) ?_
    | refine get?_cons_congr (hplaces.imp (fun heq => congrArg Value.text (hpackage heq).1)
        fun hkey => hkey _ (by decide)) ?_
    | refine get?_cons_congr (hplaces.imp (fun heq => congrArg Value.text (hpackage heq).2)
        fun hkey => hkey _ (by decide)) ?_

/-! ## The names in the templates of repairs -/

/-- Whether none of some names stands in a template with the given tokens. -/
def avoids (names : List String) (tokens : List Token) : Bool :=
  (Node.namesAll (nodesOfTokens tokens)).all fun name => !names.contains name

/-- The templates of repairs, by name, each with names that do not stand in it. -/
def avoidedNames : List (String × String × List String) :=
  [("docs/readme", readme, platformNames ++ organizationNames),
   ("docs/changelog", changelog, platformNames ++ organizationNames),
   ("docs/license_mit", license, platformNames ++ organizationNames),
   ("config/analysis_options", analysisOptions, platformNames ++ organizationNames),
   ("dart/library", library, platformNames ++ organizationNames),
   ("dart/base_class", baseClass, platformNames ++ organizationNames),
   ("dart/platform_interface", platformInterface, platformNames ++ organizationNames),
   ("dart/method_channel", methodChannel, platformNames ++ organizationNames),
   ("native/plugin/android", androidStub, platformNames),
   ("native/plugin/ios", iosStub, platformNames ++ organizationNames),
   ("native/plugin/web", webStub, platformNames ++ organizationNames),
   ("native/plugin/windows", windowsStub, platformNames ++ organizationNames),
   ("native/plugin/linux", linuxStub, platformNames ++ organizationNames),
   ("native/plugin/macos", macosStub, platformNames ++ organizationNames)]

theorem lookup_of_mem_avoidedNames {name template : String} {names : List String}
    (h : (name, template, names) ∈ avoidedNames) : standard.lookup name = some template := by
  simp only [avoidedNames, List.mem_cons, Prod.mk.injEq, List.not_mem_nil, or_false] at h
  rcases h with ⟨rfl, rfl, -⟩ | ⟨rfl, rfl, -⟩ | ⟨rfl, rfl, -⟩ | ⟨rfl, rfl, -⟩ | ⟨rfl, rfl, -⟩ |
    ⟨rfl, rfl, -⟩ | ⟨rfl, rfl, -⟩ | ⟨rfl, rfl, -⟩ | ⟨rfl, rfl, -⟩ | ⟨rfl, rfl, -⟩ | ⟨rfl, rfl, -⟩ |
    ⟨rfl, rfl, -⟩ | ⟨rfl, rfl, -⟩ | ⟨rfl, rfl, -⟩ <;> rfl

/-- The names that are to be avoided do not stand in the templates. -/
theorem avoids_of_mem_avoidedNames {name template : String} {names : List String}
    (h : (name, template, names) ∈ avoidedNames) : avoids names (tokenize template) = true := by
  simp only [avoidedNames, List.mem_cons, Prod.mk.injEq, List.not_mem_nil, or_false] at h
  rcases h with ⟨-, rfl, rfl⟩ | ⟨-, rfl, rfl⟩ | ⟨-, rfl, rfl⟩ | ⟨-, rfl, rfl⟩ | ⟨-, rfl, rfl⟩ |
    ⟨-, rfl, rfl⟩ | ⟨-, rfl, rfl⟩ | ⟨-, rfl, rfl⟩ | ⟨-, rfl, rfl⟩ | ⟨-, rfl, rfl⟩ | ⟨-, rfl, rfl⟩ |
    ⟨-, rfl, rfl⟩ | ⟨-, rfl, rfl⟩ | ⟨-, rfl, rfl⟩
  -- what is decided is decided on characters, so the templates are taken apart line by line
  all_goals apply checked_of_chars
  any_goals unfold readme
  any_goals unfold changelog
  any_goals unfold license
  any_goals unfold analysisOptions
  any_goals unfold library
  any_goals unfold baseClass
  any_goals unfold platformInterface
  any_goals unfold methodChannel
  any_goals unfold androidStub
  any_goals unfold iosStub
  any_goals unfold webStub
  any_goals unfold windowsStub
  any_goals unfold linuxStub
  any_goals unfold macosStub
  all_goals
    repeat' with_reducible first
      | exact toList_lines_nil
      | apply toList_lines_cons
      | apply toList_var
      | apply toList_opens
      | apply toList_closes
      | apply toList_append_of
      | exact String.toList_ofList
  all_goals decide +kernel

/-- Bindings that differ only in what a template avoids give the same text. -/
theorem render_congr {name template : String} {names : List String}
    (h : (name, template, names) ∈ avoidedNames) {bindings other : Entries}
    (hbindings : ∀ key ∉ names, Entries.get? bindings key = Entries.get? other key)
    (strict : Bool) :
    standard.render strict name bindings = standard.render strict name other := by
  have hlookup := lookup_of_mem_avoidedNames h
  have havoids := avoids_of_mem_avoidedNames h
  have hexpand : expandWith strict template bindings = expandWith strict template other := by
    refine expandWith_congr (fun key hkey => hbindings key fun hmem => ?_) strict
    have hnot := List.all_eq_true.mp havoids key hkey
    simp [hmem] at hnot
  rw [render_of_lookup template hlookup, render_of_lookup template hlookup, hexpand]

/-! ## Files of models that are alike -/

section Alike

variable (h : m.Alike m') (today : Date) (strict : Bool)

include h

/-- Models that are alike bind alike what does not depend on platforms and organization. -/
theorem get?_bindings_of_not_mem {key : String} (hkey : key ∉ platformNames ++ organizationNames) :
    Entries.get? (m'.bindings today) key = Entries.get? (m.bindings today) key := by
  rw [List.mem_append, not_or] at hkey
  exact get?_bindings_of_alike h today hkey.1 fun hmem => absurd hmem hkey.2

/-- The templates of repairs give the same text for models that are alike. -/
theorem render_of_alike {name : String}
    (hmem : ∃ template, (name, template, platformNames ++ organizationNames) ∈ avoidedNames) :
    standard.render strict name (m'.bindings today) =
      standard.render strict name (m.bindings today) := by
  obtain ⟨template, hmem⟩ := hmem
  exact render_congr hmem (fun _ hkey => get?_bindings_of_not_mem h today hkey) strict

/-- With the same organization the stub for Android is the same as well. -/
theorem render_android_of_alike (horganization : m'.organization = m.organization) :
    standard.render strict "native/plugin/android" (m'.bindings today) =
      standard.render strict "native/plugin/android" (m.bindings today) := by
  have hmem : ("native/plugin/android", androidStub, platformNames) ∈ avoidedNames := by
    simp [avoidedNames]
  exact render_congr hmem
    (fun _ hkey => get?_bindings_of_alike h today hkey fun _ => horganization) strict

/-- The files of a library are the same for models that are alike. -/
theorem renderPlan_library_of_alike :
    renderPlan strict (m'.layout today).library = renderPlan strict (m.layout today).library := by
  have hexports : m'.exportRecords = m.exportRecords := by
    unfold Model.exportRecords
    rw [h.name]
  have hbindings : ∀ key ∉ platformNames ++ organizationNames,
      Entries.get? (Entries.put (m'.bindings today) (.text "exports")
        (.list (m'.exportRecords.map Value.map))) key =
      Entries.get? (Entries.put (m.bindings today) (.text "exports")
        (.list (m.exportRecords.map Value.map))) key := by
    intro key hkey
    rw [Entries.get?_put, Entries.get?_put, hexports, get?_bindings_of_not_mem h today hkey]
  have hpath : Layout.libraryPath m' = Layout.libraryPath m := by
    unfold Layout.libraryPath
    rw [h.name]
  have hlibrary : ("dart/library", library, platformNames ++ organizationNames) ∈ avoidedNames := by
    simp [avoidedNames]
  have hbase : ("dart/base_class", baseClass, platformNames ++ organizationNames) ∈
      avoidedNames := by
    simp [avoidedNames]
  simp only [Layout.library, Model.layout, Layout.file, PlanEntry.rendered, renderPlan,
    PlanEntry.source?, PlanEntry.path, hpath, h.name, render_congr hlibrary hbindings strict,
    render_congr hbase hbindings strict]
  rfl

end Alike

end Catalogue

end PackageScaffold
