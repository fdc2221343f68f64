import PackageScaffold.Plan.Layout
import PackageScaffold.Proofs.Catalogue.Rendering
import PackageScaffold.Proofs.Template.Form

/-!
# What the built-in templates rely on

All projects bind the same names to values of the same forms, whatever their kinds, platforms and
texts are, and every built-in template is well formed under these.  So each template is rendered for
each project, also those that its kind has no use for, and strict rendering gives what the other
gives.

* `signature`: the names that a project binds, with the forms of their values;
* `binds_bindings`: every project binds them;
* `isFormedTemplate_of_mem_standard`: the built-in templates are well formed;
* `RendersAll`, `rendersAll_of_binds`: they are all rendered;
* `isOk_renderPlan_library`, `isOk_renderPlan_builtIn`: plans that are always rendered.
-/

namespace PackageScaffold

open Template

namespace Catalogue

/-! ## The names that a project binds -/

/-- The fields of the record of a platform. -/
def platformFields : Signature :=
  [("android", .switch), ("ios", .switch), ("web", .switch), ("windows", .switch), ("linux", .switch),
   ("macos", .switch), ("platform", .text), ("plugin_class", .text), ("package", .text),
   ("file_name", .text)]

/-- The names that a project binds, with the forms of their values. -/
def signature : Signature :=
  [("project_name", .text),
   ("pascal_name", .text),
   ("camel_name", .text),
   ("upper_name", .text),
   ("description", .text),
   ("description_yaml", .text),
   ("author", .text),
   ("organization", .text),
   ("version", .text),
   ("year", .text),
   ("date", .text),
   ("kind_label", .text),
   ("is_app", .switch),
   ("is_plugin", .switch),
   ("is_package", .switch),
   ("is_dart", .switch),
   ("is_flutter", .switch),
   ("is_library", .switch),
   ("has_web", .switch),
   ("has_assets", .switch),
   ("assets", .records [("path", .text)]),
   ("homepage", .text),
   ("repository", .text),
   ("issue_tracker", .text),
   ("documentation", .text),
   ("sdk_constraint", .text),
   ("flutter_constraint", .text),
   ("lints_include", .text),
   ("pub_command", .text),
   ("android_package", .text),
   ("android_package_path", .text),
   ("features", .records [("feature", .text)]),
   ("dependencies", .records [("name", .text), ("version", .text)]),
   ("dev_dependencies", .records [("name", .text), ("version", .text)]),
   ("exports", .records [("export", .text)]),
   ("platforms", .records platformFields),
   ("usage_example", .text)]

theorem binds_text {entries : Entries} {rest : Signature} {name value : String}
    (h : Binds entries rest) :
    Binds (Model.textBinding name value :: entries) ((name, .text) :: rest) :=
  .cons name (.text value) h

theorem binds_switch {entries : Entries} {rest : Signature} {name : String} {isOn : Bool}
    (h : Binds entries rest) :
    Binds (Model.switchBinding name isOn :: entries) ((name, .switch) :: rest) :=
  .cons name (.switch isOn) h

theorem binds_list {entries : Entries} {rest fields : Signature} {name : String}
    {items : List Entries}
    (hitems : ∀ item ∈ items, Binds item fields) (h : Binds entries rest) :
    Binds (Model.listBinding name items :: entries) ((name, .records fields) :: rest) :=
  .cons name (.records hitems) h

variable (m : Model) (today : Date)

theorem binds_platformRecord (platform : Platform) :
    Binds (m.platformRecord platform) platformFields :=
  binds_switch <| binds_switch <| binds_switch <| binds_switch <| binds_switch <| binds_switch <|
  binds_text <| binds_text <| binds_text <| binds_text .nil

theorem binds_exportRecords : ∀ record ∈ m.exportRecords, Binds record [("export", .text)] := by
  simpa [Model.exportRecords] using binds_text .nil

/-- Every project binds the same names to values of the same forms. -/
theorem binds_bindings : Binds (m.bindings today) signature := by
  have hassets : ∀ record ∈ (if m.kind == .application then
      [[Model.textBinding "path" "assets/images/"]] else []), Binds record [("path", .text)] := by
    intro record hrecord
    obtain rfl : record = [Model.textBinding "path" "assets/images/"] := by
      split at hrecord <;> simp_all
    exact binds_text .nil
  have hfeatures : ∀ record ∈ m.featureRecords, Binds record [("feature", .text)] := by
    intro record hrecord
    obtain ⟨feature, -, rfl⟩ := List.mem_map.mp hrecord
    exact binds_text .nil
  have hexports : ∀ record ∈ (if m.kind == .package then m.exportRecords else []),
      Binds record [("export", .text)] := by
    intro record hrecord
    split at hrecord
    · exact binds_exportRecords m record hrecord
    · simp at hrecord
  have hplatforms : ∀ record ∈ m.platforms.map m.platformRecord, Binds record platformFields := by
    intro record hrecord
    obtain ⟨platform, -, rfl⟩ := List.mem_map.mp hrecord
    exact binds_platformRecord m platform
  -- the bindings in their order: texts, switches, and lists with the fields of their records
  exact
    binds_text <| binds_text <| binds_text <| binds_text <| binds_text <| binds_text <|
    binds_text <| binds_text <| binds_text <| binds_text <| binds_text <| binds_text <|
    binds_switch <| binds_switch <| binds_switch <| binds_switch <| binds_switch <| binds_switch <|
    binds_switch <| binds_switch <| binds_list hassets <|
    binds_text <| binds_text <| binds_text <| binds_text <| binds_text <| binds_text <|
    binds_text <| binds_text <| binds_text <| binds_text <|
    binds_list hfeatures <| binds_list (by simp) <| binds_list (by simp) <| binds_list hexports <|
    binds_list hplatforms <| binds_text .nil

/-! ## The templates -/

/-- All built-in templates are well formed under the names that a project binds. -/
theorem isFormedTemplate_of_mem_standard :
    ∀ entry ∈ standard, isFormedTemplate signature (tokenize entry.2) = true := by
  simp only [standard, List.forall_mem_cons, List.not_mem_nil, false_imp_iff, forall_const,
    and_true]
  and_intros
  all_goals apply checked_of_chars
  any_goals
    delta applicationPubspec pluginPubspec packagePubspec examplePubspec readme changelog license
      analysisOptions ignoredFiles workflow library baseClass applicationMain applicationLibrary
      pluginLibrary platformInterface methodChannel test testPlaceholder pluginExample
      pluginExampleReadme packageExample androidRunner iosRunner macosRunner webRunner
      windowsRunner linuxRunner androidStub iosStub macosStub webStub windowsStub linuxStub
  -- the characters come first, line by line, and then what is scanned from them
  all_goals
    repeat' with_reducible first
      | exact toList_lines_nil
      | apply toList_lines_cons
      | apply toList_var
      | apply toList_opens
      | apply toList_closes
      | apply toList_append_of
      | exact String.toList_ofList
  all_goals decide +kernel

/-! ## Rendering them -/

/-- All built-in templates are rendered under some bindings, strictly or not to the same text. -/
def RendersAll (bindings : Entries) : Prop :=
  ∀ name ∈ standard.map Prod.fst, ∃ text, ∀ strict, standard.render strict name bindings = .ok text

theorem rendersAll_of_binds {bindings : Entries} (h : Binds bindings signature) :
    RendersAll bindings := by
  intro name hname
  obtain ⟨template, hlookup⟩ : ∃ template, standard.lookup name = some template := by
    obtain ⟨entry, hentry, rfl⟩ := List.mem_map.mp hname
    rw [← Option.isSome_iff_exists, List.lookup_isSome_iff]
    exact ⟨entry, hentry, beq_self_eq_true _⟩
  have hmem : (name, template) ∈ standard := by
    obtain ⟨before, after, hsplit, -⟩ := List.lookup_eq_some_iff.mp hlookup
    simp [hsplit]
  obtain ⟨text, htext⟩ :=
    exists_expandWith_of_isFormedTemplate h (isFormedTemplate_of_mem_standard _ hmem)
  refine ⟨text, fun strict => ?_⟩
  rw [render_of_lookup template hlookup, htext]
  rfl

/-- A project renders all built-in templates. -/
theorem rendersAll_bindings : RendersAll (m.bindings today) :=
  rendersAll_of_binds (binds_bindings m today)

/-- A project renders all built-in templates also if it exports what packages export. -/
theorem rendersAll_put_exports :
    RendersAll (Entries.put (m.bindings today) (.text "exports")
      (.list (m.exportRecords.map Value.map))) := by
  have hform : signature.lookup "exports" = some (.records [("export", .text)]) := rfl
  exact rendersAll_of_binds ((binds_bindings m today).put hform (.records (binds_exportRecords m)))

end Catalogue

/-! ## Plans -/

/-- The plan of a single file has the contents that its template comes to. -/
theorem renderPlan_file {l : Layout} {strict : Bool} {name text : String}
    (h : Catalogue.standard.render strict name l.bindings = .ok text) (path : String) :
    renderPlan strict [l.file path name] = .ok [(path, text)] := by
  simp only [renderPlan, Layout.file, PlanEntry.rendered, PlanEntry.source?, h]
  rfl

theorem isOk_renderPlan_file {l : Layout} {strict : Bool} {path name : String}
    (h : ∃ text, ∀ strict, Catalogue.standard.render strict name l.bindings = .ok text)
    (rest : List PlanEntry) :
    (renderPlan strict (l.file path name :: rest)).isOk = (renderPlan strict rest).isOk := by
  obtain ⟨text, htext⟩ := h
  simp only [renderPlan, Layout.file, PlanEntry.rendered, PlanEntry.source?, htext]
  cases renderPlan strict rest <;> rfl

section Plans

variable (strict : Bool) (m : Model) (today : Date)

/-- The plan of a library can always be carried out, as far as its contents go. -/
theorem isOk_renderPlan_library : (renderPlan strict (m.layout today).library).isOk = true := by
  have hrenders := Catalogue.rendersAll_put_exports m today
  unfold Layout.library
  rw [isOk_renderPlan_file (hrenders _ (by decide +kernel)),
    isOk_renderPlan_file (hrenders _ (by decide +kernel))]
  rfl

/-- So can that of any file that is made from a built-in template. -/
theorem isOk_renderPlan_builtIn {name : String} (h : name ∈ Catalogue.standard.map Prod.fst)
    (path : String) : (renderPlan strict [(m.layout today).file path name]).isOk = true := by
  obtain ⟨text, htext⟩ := Catalogue.rendersAll_bindings m today name h
  rw [renderPlan_file (l := m.layout today) (htext strict)]
  rfl

end Plans

end PackageScaffold
