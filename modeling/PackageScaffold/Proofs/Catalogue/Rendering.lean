import PackageScaffold.Catalogue
import PackageScaffold.Proofs.Template.Strict

/-!
# What built-in templates are rendered to

Built-in templates are written as lists of lines.  What their tokens are is computed from their
characters, which are spelled out line by line.  A template of the catalogue is rendered as it is
expanded, and what its tokens say is in its text: a readme says certain things whatever the project.

* `toList_lines_cons`, `toList_var` and the other lemmas of their kind give the characters of templates,
  and `checked_of_chars` what is known of their tokens;
* `render_of_lookup`, `text_of_render`: rendering by name;
* `infix_render_readme`: what every readme says;
* `prefix_render_androidStub`: what the Android side of a plugin starts with.
-/

namespace PackageScaffold

open Template

namespace Catalogue

/-! ## Characters -/

theorem toList_lines_nil : (lines []).toList = [] := by
  simp [lines]

theorem toList_lines_cons {line : String} {rest : List String} {cs ds : List Char}
    (hline : line.toList = cs) (hrest : (lines rest).toList = ds) :
    (lines (line :: rest)).toList = cs ++ '\n' :: ds := by
  rw [lines, String.toList_append, String.toList_append, hline, hrest]
  simp

theorem toList_append_of {first second : String} {cs ds : List Char} (hfirst : first.toList = cs)
    (hsecond : second.toList = ds) : (first ++ second).toList = cs ++ ds := by
  rw [String.toList_append, hfirst, hsecond]

theorem toList_var {name : String} {cs : List Char} (h : name.toList = cs) :
    (var name).toList = spell cs := by
  simp [var, spell, h]

theorem toList_opens {name : String} {cs : List Char} (h : name.toList = cs) :
    (opens name).toList = spell ('#' :: cs) := by
  simp [opens, spell, h]

theorem toList_closes {name : String} {cs : List Char} (h : name.toList = cs) :
    (closes name).toList = spell ('/' :: cs) := by
  simp [closes, spell, h]

/-- What is known of the tokens of a template can be computed from its characters. -/
theorem checked_of_chars {template : String} {check : List Token → Bool} {cs : List Char}
    (hchars : template.toList = cs) (hscan : check (scan [] true 0 cs) = true) :
    check (tokenize template) = true := by
  rwa [tokenize, hchars]

/-! ## What readmes are made of -/

/-- The end of the example in a readme. -/
def readmeExample : String := "\n```\n\n## Additional information\n\nThis "

/-- The end of a readme. -/
def readmeEnd : String :=
  " was generated with FPD Toolkit. Run\n`fpd-toolkit validate .` to check it against the package " ++
    ("quality rubric.\n\n## License\n\nThis project is licensed under the MIT License - see the " ++
      "[LICENSE](LICENSE) file for details.\n")

/-- What a readme says in any case. -/
def readmePieces : List String := [readmeExample, readmeEnd]

/-- Whether a node is a literal with the given text. -/
def isLiteral (text : String) : Node → Bool
  | .literal found => found == text
  | _ => false

/-- Whether tokens are those of a readme, as far as it says the same of every project. -/
def isReadme (tokens : List Token) : Bool :=
  readmePieces.all fun piece => (nodesOfTokens tokens).any (isLiteral piece)

/-- A readme says the same of every project in two places. -/
theorem isReadme_tokenize : isReadme (tokenize readme) = true := by
  apply checked_of_chars
  unfold readme
  -- the characters come first, line by line, and then what is scanned from them
  all_goals
    repeat' with_reducible first
      | exact toList_lines_nil
      | apply toList_lines_cons
      | apply toList_var
      | apply toList_opens
      | apply toList_closes
      | apply toList_append_of
      | exact String.toList_ofList
  all_goals decide +kernel

/-! ## What Android sources start with -/

/-- Whether tokens are those of a file that declares the Android package in its first line. -/
def declaresPackage (tokens : List Token) : Bool :=
  match nodesOfTokens tokens with
  | .literal keyword :: .variable name _ :: .literal rest :: _ =>
    keyword == "package " && name == "android_package" && [';', '\n'].isPrefixOf rest.toList
  | _ => false

theorem declaresPackage_tokenize : declaresPackage (tokenize androidStub) = true := by
  apply checked_of_chars
  unfold androidStub
  all_goals
    repeat' with_reducible first
      | exact toList_lines_nil
      | apply toList_lines_cons
      | apply toList_var
      | apply toList_append_of
      | exact String.toList_ofList
  all_goals decide +kernel

/-! ## Rendering -/

theorem render_of_lookup {catalogue : Catalogue} {strict : Bool} {name : String}
    {bindings : Entries} (template : String) (hlookup : catalogue.lookup name = some template) :
    render catalogue strict name bindings =
      (expandWith strict template bindings).mapError (.within name) := by
  simp only [render, find, hlookup, bind, Except.bind]
  cases expandWith strict template bindings <;> rfl

theorem text_of_render {catalogue : Catalogue} {strict : Bool} {name : String} {bindings : Entries}
    {text : String} (template : String) (hlookup : catalogue.lookup name = some template)
    (h : render catalogue strict name bindings = .ok text) :
    Node.expandAll [bindings] (nodesOfTokens (tokenize template)) = text := by
  rw [render_of_lookup template hlookup, mapError_eq_ok_iff] at h
  exact expandWith_eq_ok h

/-! ## Readmes -/

/-- Literal text outside all sections is written wherever it stands. -/
theorem infix_expandAll {scopes : Scopes} {text : String} {nodes : List Node}
    (h : .literal text ∈ nodes) : text.toList <:+: (Node.expandAll scopes nodes).toList := by
  obtain ⟨before, after, rfl⟩ := List.append_of_mem h
  refine ⟨(Node.expandAll scopes before).toList, (Node.expandAll scopes after).toList, ?_⟩
  rw [expandAll_append, Node.expandAll, Node.expand, String.toList_append, String.toList_append,
    List.append_assoc]

/-- A readme says the same of every project, strictly or not. -/
theorem infix_render_readme {strict : Bool} {bindings : Entries} {text : String}
    (h : standard.render strict "docs/readme" bindings = .ok text) :
    ∀ piece ∈ readmePieces, piece.toList <:+: text.toList := by
  intro piece hpiece
  obtain ⟨node, hnode, hliteral⟩ :=
    List.any_eq_true.mp (List.all_eq_true.mp isReadme_tokenize piece hpiece)
  cases node with
  | literal found =>
      obtain rfl : found = piece := by simpa [isLiteral] using hliteral
      rw [← text_of_render readme rfl h]
      exact infix_expandAll hnode
  | «variable» name source => simp [isLiteral] at hliteral
  | block name children opening closing => simp [isLiteral] at hliteral

/-! ## Android sources -/

theorem prefix_expandAll_of_declaresPackage {tokens : List Token} {bindings : Entries}
    {package : String}
    (h : declaresPackage tokens = true)
    (hpackage : Entries.get? bindings "android_package" = some (.text package)) :
    ("package " ++ package ++ ";\n").toList <+:
      (Node.expandAll [bindings] (nodesOfTokens tokens)).toList := by
  unfold declaresPackage at h
  split at h
  · rename_i keyword name source rest nodes hnodes
    simp only [Bool.and_eq_true, beq_iff_eq, List.isPrefixOf_iff_prefix] at h
    obtain ⟨⟨rfl, rfl⟩, after, hrest⟩ := h
    have hvalue : ((Scopes.get? [bindings] "android_package").bind scalarText?).getD source =
        package := by
      simp [Scopes.get?, hpackage, scalarText?]
    rw [hnodes, Node.expandAll, Node.expandAll, Node.expandAll, Node.expand, Node.expand,
      Node.expand, hvalue]
    refine ⟨after ++ (Node.expandAll [bindings] nodes).toList, ?_⟩
    simp [← hrest]
  · cases h

/-- The Android side of a plugin declares the Android package that is bound. -/
theorem prefix_render_androidStub {strict : Bool} {bindings : Entries} {text package : String}
    (hpackage : Entries.get? bindings "android_package" = some (.text package))
    (h : standard.render strict "native/plugin/android" bindings = .ok text) :
    ("package " ++ package ++ ";\n").toList <+: text.toList := by
  rw [← text_of_render androidStub rfl h]
  exact prefix_expandAll_of_declaresPackage declaresPackage_tokenize hpackage

end Catalogue

end PackageScaffold
