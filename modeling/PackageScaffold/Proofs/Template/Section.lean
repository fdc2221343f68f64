import PackageScaffold.Catalogue.Line
import PackageScaffold.Proofs.Template.Line
import PackageScaffold.Proofs.Template.Marker
import PackageScaffold.Proofs.Template.Nesting
import PackageScaffold.Proofs.Template.Scopes

/-!
# Sections on lines of their own

A section whose two markers stand on lines of their own is written where it stands and has no
influence on the text around it, provided that the markers before it, in it and behind it are
well nested.

The text is followed through the three passes:

* the tokens are those before the section, the opening marker, those of the body, the closing
  marker and those behind it (`tokenize_section`);
* the two markers find each other, whatever sections of the same name the body holds, since the
  body leaves the stack of open sections as it is (`parse_section`);
* the scopes that the section puts in front of the bindings are merged with them
  (`expand_block`).
-/

namespace PackageScaffold.Template

/-! ## What a section writes -/

/-- What a section with the given body writes if its name has the given value: the body as often as
the value says, each time under one mapping. -/
def sectionText (body : String) (bindings : Entries) : Option Value → String
  | none => ""
  | some value =>
    match value.items?, value.entries? with
    | some items, _ => String.join (items.map fun item =>
      match item.entries? with
      | some entries => expand body (bindings.override entries)
      | none => expand body (bindings.override [(.text ".", item)]))
    | none, some entries => expand body (bindings.override entries)
    | none, none => if isTruthy value then expand body bindings else ""

theorem expand_block (name body opening closing : String) (bindings : Entries) :
    Node.expandAll [bindings] [.block name (parse body) opening closing] =
      sectionText body bindings (Entries.get? bindings name) := by
  have hlookup : Scopes.get? [bindings] name = Entries.get? bindings name := by
    rw [Scopes.get?_cons, Scopes.get?, Option.or_none]
  have hjoin : ∀ text : String, String.join [text] = text := fun text => by simp
  simp only [Node.expandAll, Node.expand, hlookup, String.append_empty]
  cases Entries.get? bindings name with
  | none => rfl
  | some value =>
      cases hitems : value.items? with
      | some items =>
          simp only [bodyScopes, sectionText, hitems, List.map_map]
          congr 1
          refine List.map_congr_left fun item _ => ?_
          simp only [Function.comp, expandAll_override, itemScope]
          cases item.entries? <;> rfl
      | none =>
          cases hentries : value.entries? with
          | some entries =>
              simp only [bodyScopes, sectionText, hitems, hentries, List.map_cons, List.map_nil,
                hjoin, expandAll_override]
              rfl
          | none =>
              simp only [bodyScopes, sectionText, hitems, hentries]
              split
              · exact hjoin _
              · rfl

/-! ## The tokens and the tree -/

theorem toList_opens (name : String) :
    (Catalogue.opens name).toList = spell ('#' :: name.toList) := by
  simp [Catalogue.opens, spell]

theorem toList_closes (name : String) :
    (Catalogue.closes name).toList = spell ('/' :: name.toList) := by
  simp [Catalogue.closes, spell]

section Lines

variable {name pre body : String} (hname : isName name.toList = true)
  (hpre : EndsLine pre.toList) (hbody : EndsLine body.toList)
  {indent indent' tail tail' : String}
  (hindent : ∀ c ∈ indent.toList, isIndent c = true)
  (hindent' : ∀ c ∈ indent'.toList, isIndent c = true)
  (htail : ∀ c ∈ tail.toList, isLineEnd c = true)
  (htail' : ∀ c ∈ tail'.toList, isLineEnd c = true)

include hname hpre hbody hindent hindent' htail htail'

/-- The two marker lines of a section cut the tokens of a template. -/
theorem tokenize_section (post : String) :
    ∃ opened closed, tokenize (pre ++ (indent ++ Catalogue.opens name ++ tail ++ "\n") ++ body ++
        (indent' ++ Catalogue.closes name ++ tail' ++ "\n") ++ post) =
      tokenize pre ++ .marker .opening name (Catalogue.opens name) opened ::
        (tokenize body ++ .marker .closing name (Catalogue.closes name) closed ::
          tokenize post) := by
  obtain ⟨-, hchars⟩ := isName_chars hname
  obtain ⟨hopening, hclosing⟩ := read?_section hname
  have hplain : ∀ c ∈ name.toList, isPlain c = true := fun c hc => (hchars c hc).2.1
  obtain ⟨closed, hclose⟩ := scan_lines_marker hbody hindent'
    (List.forall_mem_cons.mpr ⟨by decide, hplain⟩) hclosing rfl htail' post.toList
  obtain ⟨opened, hopen⟩ := scan_lines_marker hpre hindent
    (List.forall_mem_cons.mpr ⟨by decide, hplain⟩) hopening rfl htail
    (body.toList ++ (indent'.toList ++
      (spell ('/' :: name.toList) ++ (tail'.toList ++ '\n' :: post.toList))))
  refine ⟨opened, closed, ?_⟩
  have htext : (pre ++ (indent ++ Catalogue.opens name ++ tail ++ "\n") ++ body ++
      (indent' ++ Catalogue.closes name ++ tail' ++ "\n") ++ post).toList =
      pre.toList ++ (indent.toList ++ (spell ('#' :: name.toList) ++ (tail.toList ++ '\n' ::
        (body.toList ++ (indent'.toList ++
          (spell ('/' :: name.toList) ++ (tail'.toList ++ '\n' :: post.toList))))))) := by
    simp only [String.toList_append, toList_opens, toList_closes, List.append_assoc]
    rfl
  rw [tokenize, htext, hopen, hclose]
  simp only [← toList_opens, ← toList_closes, String.ofList_toList, tokenize]

/-- The two marker lines of a section pair with each other. -/
theorem parse_section {post : String} (hpres : ∃ nodes, parseStrict pre = .ok nodes)
    (hbodies : ∃ nodes, parseStrict body = .ok nodes)
    (hposts : ∃ nodes, parseStrict post = .ok nodes) :
    parse (pre ++ (indent ++ Catalogue.opens name ++ tail ++ "\n") ++ body ++
        (indent' ++ Catalogue.closes name ++ tail' ++ "\n") ++ post) =
      parse pre ++ [.block name (parse body) (Catalogue.opens name) (Catalogue.closes name)] ++
        parse post := by
  obtain ⟨opened, closed, htokens⟩ :=
    tokenize_section hname hpre hbody hindent hindent' htail htail' post
  obtain ⟨before, hbefore⟩ := hpres
  obtain ⟨inner, hinner⟩ := hbodies
  obtain ⟨after, hafter⟩ := hposts
  have hspre := spells_of_nodesOfTokensStrict hbefore
  have hsbody := spells_of_nodesOfTokensStrict hinner
  have hspost := spells_of_nodesOfTokensStrict hafter
  have hwhole := hspre.append
    (.block name (Catalogue.opens name) opened (Catalogue.closes name) closed hsbody hspost)
  have hparse : ∀ {text : String} {nodes : List Node}, Spells (tokenize text) nodes →
      parse text = nodes := fun h => nodesOfTokens_of_spells h
  rw [hparse hspre, hparse hsbody, hparse hspost, parse, htokens, nodesOfTokens_of_spells hwhole]
  simp

/-- In a permissive expansion a section on lines of its own is written between the texts before
and behind it, as often as the value of its name says.  The lines of its markers leave nothing. -/
theorem expand_section_lines {post : String} (bindings : Entries)
    (hpres : ∃ nodes, parseStrict pre = .ok nodes)
    (hbodies : ∃ nodes, parseStrict body = .ok nodes)
    (hposts : ∃ nodes, parseStrict post = .ok nodes) :
    expand (pre ++ (indent ++ Catalogue.opens name ++ tail ++ "\n") ++ body ++
        (indent' ++ Catalogue.closes name ++ tail' ++ "\n") ++ post) bindings =
      expand pre bindings ++ sectionText body bindings (Entries.get? bindings name) ++
        expand post bindings := by
  have hparse := parse_section hname hpre hbody hindent hindent' htail htail' hpres hbodies hposts
  simp only [expand, hparse, expandAll_append]
  rw [← expand_block name body (Catalogue.opens name) (Catalogue.closes name) bindings]

end Lines

/-- A list of a text and a mapping, in a body with a section of the same name. -/
theorem expand_section_lines_list :
    let bindings : Entries :=
      [(.text "n", .list [.text "p", .map [(.text ".", .text "q"), (.text "n", .bool true)]])]
    let body := Catalogue.opens "n" ++ Catalogue.var "." ++ Catalogue.closes "n" ++ "\n"
    expand ("a\n" ++ ("  " ++ Catalogue.opens "n" ++ "\r" ++ "\n") ++ body ++
        ("" ++ Catalogue.closes "n" ++ " " ++ "\n") ++ "z\n") bindings =
      expand "a\n" bindings ++ sectionText body bindings (Entries.get? bindings "n") ++
        expand "z\n" bindings := by
  intro bindings body
  have hline : ∀ c : Char, c = 'a' ∨ c = 'z' →
      ∃ nodes, parseStrict (String.ofList [c, '\n']) = .ok nodes := by
    rintro c (rfl | rfl)
    · exact ⟨[.literal "a\n"], rfl⟩
    · exact ⟨[.literal "z\n"], rfl⟩
  have htokens : tokenize body =
      [.marker .opening "n" (Catalogue.opens "n") (Catalogue.opens "n"),
        .marker .variable "." (Catalogue.var ".") (Catalogue.var "."),
        .marker .closing "n" (Catalogue.closes "n") (Catalogue.closes "n"), .literal "\n"] := by
    decide
  have hbody : ∃ nodes, parseStrict body = .ok nodes :=
    ⟨_, by rw [parseStrict, htokens]; rfl⟩
  have hindent : ∀ c ∈ "  ".toList, isIndent c = true := List.all_eq_true.mp (by decide)
  have htail : ∀ {tail : String}, tail = "\r" ∨ tail = " " →
      ∀ c ∈ tail.toList, isLineEnd c = true := by
    rintro tail (rfl | rfl) <;> exact List.all_eq_true.mp (by decide)
  exact @expand_section_lines "n" "a\n" body (by decide) (by decide) (by decide) "  " "" "\r" " "
    hindent (by simp) (htail (.inl rfl)) (htail (.inr rfl)) "z\n" bindings
    (hline 'a' (.inl rfl)) hbody (hline 'z' (.inr rfl))

end PackageScaffold.Template
