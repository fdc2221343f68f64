import PackageScaffold.Proofs.Except
import PackageScaffold.Proofs.Plan.Completion
import PackageScaffold.Proofs.Plan.Places

/-!
# Parts of a plan

Some files of a plan are a plan of their own.  Where the whole plan was carried out, the part is
rendered to the same contents, and all it makes is there.

* `lookup_renderPlan`: a file with a path of its own has the text that its template gives;
* `IsPart`: files of a plan with paths of their own;
* `IsPart.holdsPlan`: a disk that holds a plan holds each part of it;
* `Layout.isPart_spelled`, `Layout.isPart_nativeFile`: files that are parts of the plan of a
  project.
-/

namespace PackageScaffold

variable {strict : Bool} {entries part : List PlanEntry} {contents : Contents} {entry : PlanEntry}

/-! ## Contents -/

/-- What comes to a result has rendered its first entry, if that is to be rendered, and the rest. -/
theorem renderPlan_cons_eq_ok (h : renderPlan strict (entry :: entries) = .ok contents) :
    ∃ rest, renderPlan strict entries = .ok rest ∧
      ((entry.source? = none ∧ contents = rest) ∨ ∃ source text, entry.source? = some source ∧
        Catalogue.standard.render strict source.template source.bindings = .ok text ∧
        contents = if (rest.lookup entry.path).isSome then rest else (entry.path, text) ::
          rest) := by
  rw [renderPlan] at h
  cases hsource : entry.source? with
  | none =>
      simp only [hsource] at h
      exact ⟨contents, h, .inl ⟨rfl, rfl⟩⟩
  | some source =>
      simp only [hsource] at h
      obtain ⟨text, htext, h⟩ := bind_eq_ok h
      obtain ⟨rest, hrest, h⟩ := bind_eq_ok h
      exact ⟨rest, hrest, .inr ⟨source, text, rfl, htext, (Except.ok.inj h).symm⟩⟩

/-- Only what an entry was rendered for has a content. -/
theorem exists_of_lookup_renderPlan (h : renderPlan strict entries = .ok contents)
    {path text : String}
    (hlookup : contents.lookup path = some text) :
    ∃ entry ∈ entries, entry.source? ≠ none ∧ entry.path = path := by
  induction entries generalizing contents with
  | nil =>
      obtain rfl := Except.ok.inj h
      simp at hlookup
  | cons first rest ih =>
      obtain ⟨more, hmore, ⟨-, rfl⟩ | ⟨source, text', hsource, -, rfl⟩⟩ := renderPlan_cons_eq_ok h
      · obtain ⟨entry, hmem, hentry⟩ := ih hmore hlookup
        exact ⟨entry, List.mem_cons_of_mem _ hmem, hentry⟩
      · by_cases hpath : first.path = path
        · exact ⟨first, List.mem_cons_self, by simp [hsource], hpath⟩
        · have hrest : more.lookup path = some text := by
            split at hlookup
            · exact hlookup
            · rwa [List.lookup_cons, beq_false_of_ne (Ne.symm hpath)] at hlookup
          obtain ⟨entry, hmem, hentry⟩ := ih hmore hrest
          exact ⟨entry, List.mem_cons_of_mem _ hmem, hentry⟩

/-- An entry is the only one with a source and its path. -/
def PlanEntry.IsAlone (entry : PlanEntry) (entries : List PlanEntry) : Prop :=
  ∀ other ∈ entries, other.source? ≠ none → other.path = entry.path → other = entry

/-- What later entries give to a path stays. -/
theorem lookup_renderPlan_of_rest {rest : Contents}
    (h : renderPlan strict (entry :: entries) = .ok contents)
    (hrest : renderPlan strict entries = .ok rest) {path text : String}
    (hlookup : rest.lookup path = some text) : contents.lookup path = some text := by
  obtain ⟨more, hmore, hcontents⟩ := renderPlan_cons_eq_ok h
  obtain rfl := Except.ok.inj (hmore.symm.trans hrest)
  rcases hcontents with ⟨-, rfl⟩ | ⟨source, text', -, -, rfl⟩
  · exact hlookup
  · split
    · exact hlookup
    · rename_i hnone
      by_cases hpath : entry.path = path
      · simp [hpath, hlookup] at hnone
      · rwa [List.lookup_cons, beq_false_of_ne (Ne.symm hpath)]

/-- A file has the text that its template gives, unless a later one has its path. -/
theorem lookup_renderPlan_of_last {front back : List PlanEntry}
    (h : renderPlan strict (front ++ entry :: back) = .ok contents)
    (hlast : ∀ other ∈ back, other.source? ≠ none → other.path ≠ entry.path) {source : FileSource}
    (hsource : entry.source? = some source) :
    ∃ text, Catalogue.standard.render strict source.template source.bindings = .ok text ∧
      contents.lookup entry.path = some text := by
  induction front generalizing contents with
  | nil =>
      obtain ⟨rest, hrest, ⟨hnone, -⟩ | ⟨source', text, hsource', htext, rfl⟩⟩ :=
        renderPlan_cons_eq_ok h
      · simp [hsource] at hnone
      · obtain rfl : source' = source := Option.some.inj (hsource'.symm.trans hsource)
        have hfree : rest.lookup entry.path = none := by
          cases hlookup : rest.lookup entry.path with
          | none => rfl
          | some text =>
              obtain ⟨other, hother, hrendered, hpath⟩ := exists_of_lookup_renderPlan hrest hlookup
              exact absurd hpath (hlast other hother hrendered)
        exact ⟨text, htext, by simp [hfree]⟩
  | cons first front ih =>
      obtain ⟨more, hmore, -⟩ := renderPlan_cons_eq_ok h
      obtain ⟨text, htext, hlookup⟩ := ih hmore
      exact ⟨text, htext, lookup_renderPlan_of_rest h hmore hlookup⟩

/-- A file with a path of its own has the text that its template gives. -/
theorem lookup_renderPlan (h : renderPlan strict entries = .ok contents) (hmem : entry ∈ entries)
    (halone : entry.IsAlone entries) {source : FileSource} (hsource : entry.source? = some source) :
    ∃ text, Catalogue.standard.render strict source.template source.bindings = .ok text ∧
      contents.lookup entry.path = some text := by
  induction entries generalizing contents with
  | nil => simp at hmem
  | cons first rest ih =>
      obtain ⟨-, hrest⟩ := List.forall_mem_cons.mp halone
      by_cases hlater : entry ∈ rest
      · obtain ⟨more, hmore, -⟩ := renderPlan_cons_eq_ok h
        obtain ⟨text, htext, hlookup⟩ := ih hmore hlater hrest
        exact ⟨text, htext, lookup_renderPlan_of_rest h hmore hlookup⟩
      · obtain rfl : entry = first := (List.mem_cons.mp hmem).resolve_right hlater
        have hfirst : renderPlan strict ([] ++ entry :: rest) = .ok contents := h
        refine lookup_renderPlan_of_last hfirst (fun other hother hrendered hpath => ?_) hsource
        exact hlater (hrest other hother hrendered hpath ▸ hother)

/-- A plan whose files can all be rendered is rendered. -/
theorem exists_renderPlan_eq_ok (h : ∀ entry ∈ entries, ∀ source, entry.source? = some source →
    ∃ text, Catalogue.standard.render strict source.template source.bindings = .ok text) :
    ∃ contents, renderPlan strict entries = .ok contents := by
  induction entries with
  | nil => exact ⟨[], rfl⟩
  | cons first rest ih =>
      obtain ⟨hfirst, hrest⟩ := List.forall_mem_cons.mp h
      obtain ⟨more, hmore⟩ := ih hrest
      rw [renderPlan]
      cases hsource : first.source? with
      | none => exact ⟨more, hmore⟩
      | some source =>
          obtain ⟨text, htext⟩ := hfirst source hsource
          simp only [htext, hmore, bind, Except.bind]
          exact ⟨_, rfl⟩

/-! ## Parts -/

/-- Files of a plan that are made from templates and have paths of their own. -/
structure IsPart (part entries : List PlanEntry) : Prop where
  rendered : ∀ entry ∈ part, entry.source? ≠ none
  subset : part ⊆ entries
  alone : ∀ entry ∈ part, entry.IsAlone entries

namespace IsPart

variable (h : IsPart part entries)

include h

/-- A part is rendered to the contents that its files have in the plan. -/
theorem exists_renderPlan (hcontents : renderPlan strict entries = .ok contents) :
    ∃ contents', renderPlan strict part = .ok contents' ∧
      ∀ file ∈ plannedFiles part, contents'.lookup file = contents.lookup file := by
  obtain ⟨contents', hcontents'⟩ : ∃ contents', renderPlan strict part = .ok contents' := by
    refine exists_renderPlan_eq_ok fun entry hmem source hsource => ?_
    obtain ⟨text, htext, -⟩ :=
      lookup_renderPlan hcontents (h.subset hmem) (h.alone entry hmem) hsource
    exact ⟨text, htext⟩
  refine ⟨contents', hcontents', fun file hfile => ?_⟩
  simp only [plannedFiles, List.mem_map, List.mem_filter] at hfile
  obtain ⟨entry, ⟨hmem, -⟩, rfl⟩ := hfile
  obtain ⟨source, hsource⟩ := Option.ne_none_iff_exists'.mp (h.rendered entry hmem)
  have halone : entry.IsAlone part := fun other hother => h.alone entry hmem other (h.subset hother)
  obtain ⟨text, htext, hlookup⟩ :=
    lookup_renderPlan hcontents (h.subset hmem) (h.alone entry hmem) hsource
  obtain ⟨text', htext', hlookup'⟩ := lookup_renderPlan hcontents' hmem halone hsource
  rw [hlookup, hlookup', Except.ok.inj (htext'.symm.trans htext)]

/-- Where a plan was carried out, all that a part of it makes is there. -/
theorem holdsPlan {disk : Disk} {root : Path} (hholds : HoldsPlan disk root entries contents)
    (hcontents : renderPlan strict entries = .ok contents) :
    ∃ contents', renderPlan strict part = .ok contents' ∧ HoldsPlan disk root part contents' := by
  obtain ⟨contents', hcontents', hlookup⟩ := h.exists_renderPlan hcontents
  refine ⟨contents', hcontents', fun directory hmem => hholds.directories directory
    (wantedDirectories_subset h.subset hmem), fun file hfile => ?_⟩
  obtain ⟨hinner, hnull, ⟨text, htext, hitem⟩, hdraft⟩ :=
    hholds.files file (plannedFiles_subset h.subset hfile)
  exact ⟨hinner, hnull, ⟨text, (hlookup file hfile).trans htext, hitem⟩, hdraft⟩

end IsPart

/-! ## Parts of the plan of a project -/

namespace Layout

variable {l : Layout} (hname : Name.isPackageName l.model.name = true)

include hname

omit hname in
theorem mem_plan_iff (hrendered : entry.source? ≠ none) : entry ∈ l.plan ↔ entry ∈ l.files := by
  rw [plan_eq, withDirectories, List.mem_append, List.mem_map]
  refine ⟨fun h => h.resolve_left ?_, .inr⟩
  rintro ⟨directory, -, rfl⟩
  exact hrendered rfl

/-- Files of a project are a part of its plan if no other file has the path of one of them. -/
theorem isPart_of_files (hsubset : part ⊆ l.files)
    (halone : ∀ entry ∈ part, ∀ other ∈ l.files, other.path = entry.path → other = entry) :
    IsPart part l.plan where
  rendered _ hmem := rendered_of_mem_files hname (hsubset hmem)
  subset _ hmem := (mem_plan_iff (rendered_of_mem_files hname (hsubset hmem))).mpr (hsubset hmem)
  alone entry hmem other hother hrendered hpath :=
    halone entry hmem other ((mem_plan_iff hrendered).mp hother) hpath

/-- A spelled file shares its path with no other, unless it is a library of an application. -/
theorem eq_of_path_eq_spelled {steps : List String} (h : (entry, steps) ∈ l.spelledFiles)
    (hkind : l.model.kind ≠ .application ∨ steps.length = 1) {other : PlanEntry}
    (hother : other ∈ l.files) (hpath : other.path = entry.path) : other = entry := by
  have hspelled := isSpelled_of_mem hname h
  have hspells : Path.Spells entry.path steps := hspelled.spells
  rcases mem_files_iff.mp hother with ⟨steps', h'⟩ | ⟨platform, -, rfl⟩
  · have hspells' : Path.Spells other.path steps' := (isSpelled_of_mem hname h').spells
    have hsteps := hspells'.steps_eq
    rw [hpath, hspells.steps_eq] at hsteps
    subst hsteps
    exact eq_of_steps_eq h' h hkind
  · exfalso
    rcases nativeFile_cases hname platform with hhead | ⟨hnative, -, hplugin⟩
    · rw [hpath, hspells.steps_eq] at hhead
      exact hspelled.head platform hhead
    · have hsteps : (Path.ofString (l.nativeFile platform).path).steps =
          ["lib", l.model.name ++ "_web.dart"] := hnative.spells.steps_eq
      rw [hpath, hspells.steps_eq] at hsteps
      subst hsteps
      exact webPath_not_spelled hplugin h

theorem isPart_spelled {steps : List String} (h : (entry, steps) ∈ l.spelledFiles)
    (hkind : l.model.kind ≠ .application ∨ steps.length = 1) : IsPart [entry] l.plan := by
  refine isPart_of_files hname ?_ ?_
  · simpa using mem_files_iff.mpr (.inl ⟨steps, h⟩)
  · simpa using fun other hother => eq_of_path_eq_spelled hname h hkind hother

/-- The native part of a project on a platform shares its path with no other file. -/
theorem eq_of_path_eq_nativeFile {platform : Platform} {other : PlanEntry}
    (hother : other ∈ l.files)
    (hpath : other.path = (l.nativeFile platform).path) : other = l.nativeFile platform := by
  rcases nativeFile_cases hname platform with hhead | ⟨hnative, rfl, hplugin⟩
  · exact eq_nativeFile_of_head hname hother (hpath ▸ hhead)
  · have hsteps : (Path.ofString (l.nativeFile .web).path).steps =
        ["lib", l.model.name ++ "_web.dart"] := hnative.spells.steps_eq
    rcases mem_files_iff.mp hother with ⟨steps, hspelled⟩ | ⟨platform, -, rfl⟩
    · have hspells : Path.Spells other.path steps := (isSpelled_of_mem hname hspelled).spells
      rw [← hpath, hspells.steps_eq] at hsteps
      subst hsteps
      exact absurd hspelled (webPath_not_spelled hplugin)
    · rw [platform_of_head_eq hname (congrArg (fun path => (Path.ofString path).steps.head?) hpath)]

theorem isPart_nativeFile {platform : Platform} (h : platform ∈ l.model.platforms) :
    IsPart [l.nativeFile platform] l.plan := by
  refine isPart_of_files hname ?_ ?_
  · simpa using mem_files_iff.mpr (.inr ⟨platform, h, rfl⟩)
  · simpa using fun other hother => eq_of_path_eq_nativeFile hname hother

/-- The libraries of a package are a part of its plan. -/
theorem isPart_library (hkind : l.model.kind = .package) : IsPart l.library l.plan := by
  have hlibrary : (l.exporting.file (libraryPath l.model) "dart/library",
      ["lib", l.model.name ++ ".dart"]) ∈ l.spelledFiles := by
    simp [spelledFiles, spelledKindFiles, hkind]
  have hbase : (l.exporting.file ("lib/src/" ++ l.model.name ++ "_base.dart") "dart/base_class",
      ["lib", "src", l.model.name ++ "_base.dart"]) ∈ l.spelledFiles := by
    simp [spelledFiles, spelledKindFiles, hkind]
  have hother : l.model.kind ≠ .application := by simp [hkind]
  rw [library_eq]
  refine isPart_of_files hname ?_ ?_
  · simp only [List.cons_subset, List.nil_subset, and_true]
    exact ⟨mem_files_iff.mpr (.inl ⟨_, hlibrary⟩), mem_files_iff.mpr (.inl ⟨_, hbase⟩)⟩
  · simp only [List.forall_mem_cons]
    exact ⟨fun _ => eq_of_path_eq_spelled hname hlibrary (.inl hother),
      fun _ => eq_of_path_eq_spelled hname hbase (.inl hother), by simp⟩

/-! ## What a project holds -/

/-- Whatever a plugin or a package holds is on the way to one of its files. -/
theorem exists_file_of_newPlanned (hkind : l.model.kind ≠ .application) {top steps : List String}
    {contents : Contents} {item : Item} (h : NewPlanned top l.plan contents (top ++ steps) item) :
    ∃ file ∈ l.files, steps <+: (Path.ofString file.path).steps := by
  have hfiles : ∀ entry ∈ l.files, entry.isDirectory = false :=
    fun _ => isDirectory_of_mem_files hname
  have hplanned := plannedFiles_plan hname
  rcases h.cases (isInnerPlan_plan hname) with
    ⟨-, ⟨directory, hmem, made, hmade, hplace⟩ | ⟨file, hmem, made, hmade, hplace⟩⟩ |
    ⟨file, hmem, text, -, hplace, -⟩
  · obtain rfl := List.append_cancel_left hplace
    rw [plan_eq] at hmem
    obtain ⟨path, hneeder, reached, hspells, hreached⟩ :=
      exists_of_mem_withDirectories hfiles (fun _ => isInner_of_mem_needers hname) hmem
    rw [needers_eq, if_neg hkind, List.append_nil] at hneeder
    obtain ⟨entry, hentry, rfl⟩ := List.mem_map.mp hneeder
    rw [hspells.steps_eq] at hmade
    exact ⟨entry, hentry, hmade.trans (hreached.trans (List.dropLast_prefix _))⟩
  · obtain rfl := List.append_cancel_left hplace
    rw [hplanned] at hmem
    obtain ⟨entry, hentry, rfl⟩ := List.mem_map.mp hmem
    exact ⟨entry, hentry, hmade.trans (List.dropLast_prefix _)⟩
  · obtain rfl := List.append_cancel_left hplace
    rw [hplanned] at hmem
    obtain ⟨entry, hentry, rfl⟩ := List.mem_map.mp hmem
    exact ⟨entry, hentry, List.prefix_refl _⟩

end Layout

end PackageScaffold
