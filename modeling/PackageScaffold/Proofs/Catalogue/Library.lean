import PackageScaffold.Proofs.Catalogue.Pubspec
import PackageScaffold.Proofs.Plan.Assembly
import PackageScaffold.Proofs.Project.ClassName
import PackageScaffold.Proofs.Template.Source
import PackageScaffold.Proofs.Text.Lines

/-!
# The head of a library

The library that users of a project import begins with the description, as a comment in front of the
directive that names the library.  There is one mark for the whole description, so its first line is
commented and the others are as they are.

* `Text.IsComment`, `LineRule.IsCommented`: what stands in front of the directive;
* `LineRule.FitsComment`, `HeadsLibrary.isCommented_iff`: the descriptions of which nothing gets out of the
  comment;
* `staysClear`: templates in which no line begins as the directive does, whatever the values are;
* `headsLibrary_of_render`: all libraries have this head.
-/

namespace PackageScaffold

open Template Text

/-! ## Comments -/

/-- A line that is blank or has the mark of a comment in front. -/
def Text.IsComment (line : List Char) : Prop :=
  (∀ c ∈ line, isBlank c = true) ∨ "///".toList <+: line

instance (line : List Char) : Decidable (IsComment line) :=
  inferInstanceAs (Decidable (_ ∨ _))

/-- A line that names the library. -/
def Text.IsDirective (line : List Char) : Prop :=
  "library ".toList <+: line

namespace Text.LineRule

variable (rule : LineRule)

/-- All lines in front of one that names the library are comments. -/
def IsCommented (text : String) : Prop :=
  ∀ before line after, rule.lines text.toList = before ++ line :: after → IsDirective line →
    ∀ other ∈ before, IsComment other

/-- One of the lines names the library. -/
def IsNamed (text : String) : Prop :=
  ∃ line ∈ rule.lines text.toList, IsDirective line

/-- Behind its first line, a description has comments and blank lines only. -/
def FitsComment (description : String) : Prop :=
  ∀ line ∈ (rule.lines description.toList).tail, IsComment line

instance (description : String) : Decidable (rule.FitsComment description) :=
  inferInstanceAs (Decidable (∀ line ∈ (rule.lines description.toList).tail, IsComment line))

variable {rule}

/-- A description of one line fits. -/
theorem fitsComment_of_line {description : String}
    (h : ∀ c ∈ description.toList, rule.ends c = false) :
    rule.FitsComment description := by
  rw [FitsComment, lines, List.splitOnP_eq_singleton h]
  simp

end Text.LineRule

/-! ## The head -/

/-- A library begins with the description and its name; no line further down begins as the directive
does. -/
def HeadsLibrary (description text : String) : Prop :=
  ∃ rest, IsLaidOut 'l' false rest ∧
    text.toList = "/// ".toList ++ (description.toList ++ '\n' :: ("library ".toList ++ rest))

namespace HeadsLibrary

variable {description text : String} (h : HeadsLibrary description text) (rule : LineRule)

include h

/-- The lines of a library: the comment, the rest of the description, the directive, and lines that
begin otherwise. -/
theorem exists_lines : ∃ first more directive rest,
    rule.lines description.toList = first :: more ∧
    rule.lines text.toList = ("/// ".toList ++ first) :: more ++ directive :: rest ∧
    IsDirective directive ∧ ∀ line ∈ rest, ¬ IsDirective line := by
  obtain ⟨rest, hrest, htext⟩ := h
  obtain ⟨hlines, -⟩ := hrest.head?_ne rule
  have hmark : ∀ c ∈ "/// ".toList, ' ' ≤ c ∧ c ≤ '~' := by decide
  have hkeyword : ∀ c ∈ "library ".toList, ' ' ≤ c ∧ c ≤ '~' := by decide
  obtain ⟨first, more, hfirst⟩ := List.exists_cons_of_ne_nil (rule.lines_ne_nil description.toList)
  obtain ⟨behind, others, hbehind⟩ := List.exists_cons_of_ne_nil (rule.lines_ne_nil rest)
  refine ⟨first, more, "library ".toList ++ behind, others, hfirst, ?_, List.prefix_append _ _, ?_⟩
  · rw [htext, LineRule.lines_append_of_printed hmark, LineRule.lines_append_feed,
      LineRule.lines_append_of_printed hkeyword, hfirst, hbehind]
    rfl
  · intro line hline hdirective
    rw [hbehind, List.tail_cons] at hlines
    obtain ⟨more, rfl⟩ := hdirective
    exact hlines _ hline rfl

theorem isNamed : rule.IsNamed text := by
  obtain ⟨first, more, directive, rest, -, hlines, hdirective, -⟩ := h.exists_lines rule
  exact ⟨directive, by simp [hlines], hdirective⟩

/-- What is not in the first line of the description is commented if it is a comment itself. -/
theorem isCommented_iff : rule.IsCommented text ↔ rule.FitsComment description := by
  obtain ⟨first, more, directive, rest, hdescription, hlines, hdirective, hrest⟩ :=
    h.exists_lines rule
  rw [LineRule.IsCommented, LineRule.FitsComment, hdescription, hlines, List.tail_cons]
  constructor
  · intro hcommented line hline
    exact hcommented _ directive rest rfl hdirective line (List.mem_cons_of_mem _ hline)
  · intro hfits before line after hsplit hline other hother
    have hfront : ∀ line ∈ ("/// ".toList ++ first) :: more, IsComment line :=
      List.forall_mem_cons.mpr ⟨.inr ⟨' ' :: first, rfl⟩, hfits⟩
    -- behind the directive no line names the library, so `before` is not longer than what is in front of it
    rcases List.append_eq_append_iff.mp hsplit with ⟨between, rfl, hbehind⟩ | ⟨between, hbefore, -⟩
    · rcases List.cons_eq_append_iff.mp hbehind with ⟨rfl, -⟩ | ⟨more', -, hafter⟩
      · exact hfront other (by simpa using hother)
      · exact absurd hline (hrest line (by simp [hafter]))
    · exact hfront other (hbefore ▸ List.mem_append_left _ hother)

end HeadsLibrary

/-! ## Names in a library -/

namespace Name

variable {s : String} {initial : Char}

/-- A name may end in a line break, but no line begins in it. -/
theorem isLaidOut_name (h : isPackageName s = true) (hinitial : initial ≠ '\n') :
    IsLaidOut initial false s.toList := by
  have hprinted : ∀ c, isNameChar c = true → ' ' ≤ c ∧ c ≤ '~' := fun c hc =>
    Yaml.char_of_forall (P := fun c => isNameChar c = true → ' ' ≤ c ∧ c ≤ '~') (by decide)
      (isNameChar_ne hc).2.2 hc
  have hmarks := (isSegment_of_isPackageName h).marks
  have hstem : IsLaidOut initial false (withoutLineBreak s.toList) :=
    .of_line fun c hc => hprinted c (isNameChar_iff.mpr (hmarks c hc))
  rcases withoutLineBreak_cases s.toList with ⟨front, hs, hfront⟩ | ⟨-, hsame⟩
  · have hbreak : IsLaidOut initial true ['\n'] :=
      ⟨by decide, by simpa [opensLine] using hinitial.symm⟩
    rw [hs, ← hfront]
    exact hstem.append_of_start hbreak
  · rwa [hsame] at hstem

theorem isLaidOut_pascalCase (h : isPackageName s = true) :
    IsLaidOut initial false (pascalCase s).toList :=
  .of_line fun c hc => by
    obtain ⟨hascii, halphanum⟩ := alphanum_pascalCase (isSegment_of_isPackageName h) c hc
    exact Yaml.char_of_forall (P := fun c => c.isAlphanum = true → ' ' ≤ c ∧ c ≤ '~') (by decide)
      hascii halphanum

end Name

namespace Catalogue

/-! ## Libraries of applications and plugins -/

/-- Whether a line may begin behind a character of a template: behind a line feed, and behind a
marker, since a name can end in one. -/
def mayBreak (c : Char) : Bool :=
  c == '\n' || c == '}'

/-- Whether neither a marker nor a certain character stands in a template where a line may begin. -/
def staysClear (initial : Char) : Char → List Char → Bool
  | _, [] => true
  | before, c :: cs =>
    isPrinted c && !(mayBreak before && (c == initial || c == '{')) && staysClear initial c cs

variable {initial before : Char}

theorem staysClear_append {first second : List Char} :
    staysClear initial before (first ++ second) =
      (staysClear initial before first && staysClear initial (first.getLast?.getD before)
        second) := by
  induction first generalizing before with
  | nil => simp [staysClear]
  | cons c first ih =>
      have hlast : (c :: first).getLast?.getD before = first.getLast?.getD c := by
        cases first <;> simp [List.getLast?_cons]
      rw [List.cons_append, staysClear, ih, staysClear, hlast]
      simp only [Bool.and_assoc]

theorem isLaidOut_of_staysClear {cs : List Char} (h : staysClear initial before cs = true) :
    IsLaidOut initial (mayBreak before) cs := by
  induction cs generalizing before with
  | nil => exact ⟨by simp, rfl⟩
  | cons c cs ih =>
      rw [staysClear, Bool.and_eq_true, Bool.and_eq_true, Bool.not_eq_true', Bool.and_eq_false_iff,
        Bool.or_eq_false_iff] at h
      obtain ⟨⟨hprinted, hfirst⟩, hcs⟩ := h
      have hrest : IsLaidOut initial (c == '\n') cs :=
        (ih hcs).mono fun hfeed => by rw [mayBreak, hfeed, Bool.true_or]
      refine ⟨List.forall_mem_cons.mpr ⟨hprinted, hrest.printed⟩, ?_⟩
      rw [opensLine, hrest.closed, Bool.or_false, Bool.and_eq_false_iff]
      exact hfirst.imp id And.left

/-- The names that a library of an application or a plugin mentions below its head. -/
def libraryNames : List String := ["project_name", "pascal_name"]

/-- Whether a token is a literal or stands for a name. -/
def isNamed : Token → Bool
  | .literal _ => true
  | .marker kind name _ consumed => kind == .variable && libraryNames.contains name && consumed == var name

/-- Values in which no line begins let none begin in a template that is clear. -/
theorem exists_spells_of_staysClear {bindings : Entries}
    (hvalues : ∀ name ∈ libraryNames, ∃ value, Entries.get? bindings name = some (.text value) ∧
      IsLaidOut initial false value.toList) {tokens : List Token}
    (hnamed : tokens.all isNamed = true)
    (hclear : staysClear initial before (sources tokens) = true) :
    ∃ nodes, Spells tokens nodes ∧
      IsLaidOut initial (mayBreak before) (Node.expandAll [bindings] nodes).toList := by
  induction tokens generalizing before with
  | nil => exact ⟨[], .nil, by simp [Node.expandAll], by simp [Node.expandAll, opensLine]⟩
  | cons token tokens ih =>
      rw [List.all_cons, Bool.and_eq_true] at hnamed
      rw [sources_cons, staysClear_append, Bool.and_eq_true] at hclear
      obtain ⟨hfirst, hrest⟩ := hclear
      obtain ⟨nodes, hspells, hlaid⟩ := ih hnamed.2 hrest
      cases token with
      | literal text =>
          refine ⟨.literal text :: nodes, .literal text hspells, ?_⟩
          rw [Node.expandAll, Node.expand, String.toList_append]
          refine (isLaidOut_of_staysClear hfirst).append (hlaid.mono fun hend => ?_)
          rw [Token.source] at *
          unfold endsLine at hend
          cases hlast : text.toList.getLast? with
          | none => simpa [hlast] using hend
          | some c =>
              rw [hlast, Option.map_some, Option.getD_some] at hend
              rw [Option.getD_some, mayBreak, hend, Bool.true_or]
      | marker kind name source consumed =>
          simp only [isNamed, Bool.and_eq_true, beq_iff_eq, List.contains_iff_mem] at hnamed
          obtain ⟨⟨⟨rfl, hname⟩, rfl⟩, -⟩ := hnamed
          have hconsumed : (Token.marker .variable name source (var name)).source.toList =
              '{' :: '{' :: (name.toList ++ ['}', '}']) := by
            simp [Token.source, var]
          -- a marker does not stand where a line may begin, and a line may begin behind it
          rw [hconsumed] at hfirst hlaid
          rw [staysClear, Bool.and_eq_true, Bool.and_eq_true] at hfirst
          have hbefore : mayBreak before = false := by simpa using hfirst.1.2
          have hafter : ('{' :: '{' :: (name.toList ++ ['}', '}'])).getLast?.getD before = '}' := by
            simp [List.getLast?_cons]
          obtain ⟨value, hvalue, hin⟩ := hvalues name hname
          have hexpand : Node.expand [bindings] (.variable name source) = value := by
            simp [Node.expand, Scopes.get?, hvalue, scalarText?]
          refine ⟨.variable name source :: nodes, .value name source (var name) hspells, ?_⟩
          rw [Node.expandAll, hexpand, String.toList_append, hbefore]
          rw [hafter] at hlaid
          exact hin.append_of_start hlaid

/-- Whether tokens begin with the head of a library, and the text of a template stays
clear below it. -/
def isLibrary (tokens : List Token) (template : List Char) : Bool :=
  match tokens with
  | .literal mark :: .marker kind name _ consumed :: .literal keyword :: tokens =>
    mark == "/// " && kind == .variable && name == "description" && consumed == var "description" &&
      keyword == "\nlibrary " && tokens.all isNamed &&
      staysClear 'l' ' ' (template.drop ("/// " ++ var "description" ++ "\nlibrary ").toList.length)
  | _ => false

theorem isLibrary_of_chars {template : String} {cs : List Char} (hchars : template.toList = cs)
    (h : isLibrary (scan [] true 0 cs) cs = true) :
    isLibrary (tokenize template) template.toList = true := by
  rwa [tokenize, hchars]

/-- The libraries of applications and of plugins. -/
theorem isLibrary_of_mem : ∀ template ∈ [applicationLibrary, pluginLibrary],
    isLibrary (tokenize template) template.toList = true := by
  simp only [List.forall_mem_cons, List.not_mem_nil, false_imp_iff, forall_const, and_true]
  and_intros
  all_goals apply isLibrary_of_chars
  any_goals delta applicationLibrary pluginLibrary
  all_goals
    repeat' with_reducible first
      | exact toList_lines_nil
      | apply toList_lines_cons
      | apply toList_var
      | apply toList_append_of
      | exact String.toList_ofList
  all_goals decide +kernel

theorem headsLibrary_expandAll {template : String} {bindings : Entries} {description : String}
    (h : isLibrary (tokenize template) template.toList = true)
    (hdescription : Entries.get? bindings "description" = some (.text description))
    (hvalues : ∀ name ∈ libraryNames, ∃ value, Entries.get? bindings name = some (.text value) ∧
      IsLaidOut 'l' false value.toList) :
    HeadsLibrary description (Node.expandAll [bindings] (nodesOfTokens (tokenize template))) := by
  have hsources := sources_tokenize template
  unfold isLibrary at h
  split at h
  · rename_i mark kind name source consumed keyword tokens htokens
    simp only [Bool.and_eq_true, beq_iff_eq] at h
    obtain ⟨⟨⟨⟨⟨⟨rfl, rfl⟩, rfl⟩, rfl⟩, rfl⟩, hnamed⟩, hclear⟩ := h
    rw [htokens, sources_cons, sources_cons, sources_cons, Token.source, Token.source, Token.source,
      ← List.append_assoc, ← List.append_assoc, ← String.toList_append, ← String.toList_append]
        at hsources
    rw [← hsources, List.drop_left] at hclear
    obtain ⟨nodes, hspells, hlaid⟩ := exists_spells_of_staysClear hvalues hnamed hclear
    have hexpand : Node.expand [bindings] (.variable "description" source) = description := by
      simp [Node.expand, Scopes.get?, hdescription, scalarText?]
    refine ⟨_, hlaid, ?_⟩
    rw [htokens, nodesOfTokens_of_spells (.literal _ (.value _ _ _ (.literal _ hspells))),
      Node.expandAll, Node.expandAll, Node.expandAll, hexpand, Node.expand, Node.expand]
    simp
  · cases h

variable {m : Model} {today : Date} {strict : Bool} {text : String}

/-- The names that a library mentions are bound to texts in which no line begins. -/
theorem exists_libraryNames (hname : Name.isPackageName m.name = true) : ∀ name ∈ libraryNames,
    ∃ value, Entries.get? (m.bindings today) name = some (.text value) ∧
      IsLaidOut 'l' false value.toList := by
  simp only [libraryNames, List.forall_mem_cons, List.not_mem_nil, false_imp_iff, forall_const,
    and_true]
  exact ⟨⟨m.name, rfl, Name.isLaidOut_name hname (by decide)⟩,
    ⟨m.pascalName, rfl, Name.isLaidOut_pascalCase hname⟩⟩

theorem headsLibrary_of_render {name template : String}
    (hlookup : standard.lookup name = some template)
    (htemplate : template ∈ [applicationLibrary, pluginLibrary])
    (hname : Name.isPackageName m.name = true)
    (h : standard.render strict name (m.bindings today) = .ok text) :
    HeadsLibrary m.description text := by
  rw [← text_of_render template hlookup h]
  exact headsLibrary_expandAll (isLibrary_of_mem template htemplate) rfl (exists_libraryNames hname)

/-! ## Libraries of packages -/

/-- The tree of the library of a package. -/
def libraryNodes : List Node :=
  [.literal "/// ", variableNode "description",
   .literal "\nlibrary ", variableNode "project_name",
   .literal ";\n\n",
   sectionNode "exports" [.literal "export '", variableNode "export", .literal "';\n"]]

theorem spells_library : Spells (tokenize library) libraryNodes := by
  have htree : isTree libraryNodes (tokenize library) = true := by
    apply checked_of_chars
    unfold library
    all_goals
      repeat' with_reducible first
        | exact toList_lines_nil
        | apply toList_lines_cons
        | apply toList_var
        | apply toList_opens
        | apply toList_closes
        | apply toList_append_of
        | exact String.toList_ofList
    all_goals decide +kernel
  rw [show tokenize library = _ from beq_iff_eq.mp htree]
  exact Node.spells_lineTokensAll _

/-- What the library of a package says below the directive: its name and what it exports. -/
def exportText (name : String) : String :=
  name ++ ";\n\n" ++ ("export '" ++ ("src/" ++ name ++ "_base.dart") ++ "';\n")

theorem isLaidOut_exportText {name : String} (hname : Name.isPackageName name = true) :
    IsLaidOut 'l' false (exportText name).toList := by
  have hlaid : IsLaidOut 'l' false name.toList := Name.isLaidOut_name hname (by decide)
  have hfront : IsLaidOut 'l' true ";\n\nexport 'src/".toList := ⟨by decide, by decide⟩
  have hback : IsLaidOut 'l' true "_base.dart';\n".toList := ⟨by decide, by decide⟩
  have htext : (exportText name).toList =
      name.toList ++ (";\n\nexport 'src/".toList ++ (name.toList ++ "_base.dart';\n".toList)) := by
    simp [exportText]
  rw [htext]
  exact hlaid.append_of_start (hfront.append (hlaid.append_of_start hback))

/-- The text of the library of a package. -/
theorem render_library (m : Model) (today : Date) (strict : Bool) :
    standard.render strict "dart/library" (m.layout today).exporting.bindings =
      .ok ("/// " ++ m.description ++ "\nlibrary " ++ exportText m.name) := by
  have hexports : Scopes.get? [(m.layout today).exporting.bindings] "exports" = some (.list
      (([m.name].map fun name => [Model.textBinding "export" ("src/" ++ name ++ "_base.dart")]).map
        Value.map)) := by
    rw [Scopes.get?_cons, Layout.exporting, Entries.get?_put]
    rfl
  have hwrites : Writes [(m.layout today).exporting.bindings] libraryNodes _ :=
    .literal _ <| .bound _ (Layout.get?_exporting (by decide)) <| .literal _ <|
      .bound _ (Layout.get?_exporting (by decide)) <| .literal _ <|
      .records hexports (fun _ _ => .literal _ <| .value _ rfl <| .literal _ .nil) .nil
  rw [render_of_lookup library rfl, expandWith_of_writes spells_library hwrites]
  simp [Except.mapError, exportText, String.append_assoc, -String.reduceAppend]

theorem headsLibrary_of_render_library (hname : Name.isPackageName m.name = true)
    (h : standard.render strict "dart/library" (m.layout today).exporting.bindings = .ok text) :
    HeadsLibrary m.description text := by
  obtain rfl := Except.ok.inj ((render_library m today strict).symm.trans h)
  exact ⟨_, isLaidOut_exportText hname, by simp⟩

end Catalogue

end PackageScaffold
