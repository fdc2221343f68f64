import PackageScaffold.Catalogue.Line
import PackageScaffold.Proofs.Template.Scopes

/-!
# Bound text is inert

A text that a name is bound to is written wherever the name stands, and has no other influence.  It
is not read as a template again, and as long as it is not empty it does not decide which parts of
the template are written.

* `fill`: fixed parts of a text, with gaps between them that another text is put into;
* `Inserts`: texts that depend on another text by having it put into gaps;
* `Scopes.get?_binding`: what a name is bound to behind some scopes does not depend on that text, or it
  is that text;
* `Node.inserts_expandAll`: nodes put a text that a name is bound to into gaps;
* `expand_put_text`: a template puts it between segments that do not depend on it.
-/

namespace PackageScaffold.Template

/-! ## Texts with gaps -/

/-- The text of some parts, with another text in place of each gap. -/
def fill (value : String) (parts : List (Option String)) : String :=
  String.join (parts.map (·.getD value))

theorem fill_append (value : String) (first second : List (Option String)) :
    fill value (first ++ second) = fill value first ++ fill value second := by
  simp [fill]

/-- What stands between the gaps, one text more than there are gaps. -/
def segments : List (Option String) → List String
  | [] => [""]
  | some text :: parts => (segments parts).modifyHead (text ++ ·)
  | none :: parts => "" :: segments parts

theorem segments_ne_nil (parts : List (Option String)) : segments parts ≠ [] := by
  induction parts with
  | nil => simp [segments]
  | cons part parts ih => cases part <;> simp [segments, ih]

/-- Filling the gaps puts the text between the segments. -/
theorem fill_eq_intercalate (value : String) (parts : List (Option String)) :
    fill value parts = value.intercalate (segments parts) := by
  induction parts with
  | nil => simp [fill, segments]
  | cons part parts ih =>
      have hcons : fill value (part :: parts) = part.getD value ++ fill value parts := by
        simp [fill]
      obtain ⟨first, rest, hsegments⟩ := List.exists_cons_of_ne_nil (segments_ne_nil parts)
      rw [hsegments] at ih
      cases part with
      | none =>
          rw [hcons, ih, segments, hsegments,
            String.intercalate_cons_of_ne_nil (List.cons_ne_nil _ _)]
          simp
      | some text =>
          rw [hcons, ih, segments, hsegments, List.modifyHead_cons]
          by_cases hrest : rest = []
          · simp [hrest]
          · simp only [String.intercalate_cons_of_ne_nil hrest, Option.getD_some,
              String.append_assoc]

/-! ## Putting a text into gaps -/

/-- A text that depends on another one, which is not empty, by having it put into gaps. -/
def Inserts (text : String → String) : Prop :=
  ∃ parts, ∀ value, value ≠ "" → text value = fill value parts

namespace Inserts

theorem of_eq {text other : String → String} (h : Inserts text)
    (heq : ∀ value, value ≠ "" → other value = text value) : Inserts other := by
  obtain ⟨parts, hparts⟩ := h
  exact ⟨parts, fun value hvalue => (heq value hvalue).trans (hparts value hvalue)⟩

theorem const (text : String) : Inserts fun _ => text :=
  ⟨[some text], fun _ _ => by simp [fill]⟩

theorem itself : Inserts fun value => value :=
  ⟨[none], fun _ _ => by simp [fill]⟩

theorem append {first second : String → String} (hfirst : Inserts first)
    (hsecond : Inserts second) :
    Inserts fun value => first value ++ second value := by
  obtain ⟨parts, hparts⟩ := hfirst
  obtain ⟨more, hmore⟩ := hsecond
  refine ⟨parts ++ more, fun value hvalue => ?_⟩
  simp only [hparts value hvalue, hmore value hvalue, fill_append]

theorem join {α : Type} {items : List α} {text : α → String → String}
    (h : ∀ item ∈ items, Inserts (text item)) :
    Inserts fun value => String.join (items.map fun item => text item value) := by
  induction items with
  | nil => exact const ""
  | cons item items ih =>
      obtain ⟨hitem, hitems⟩ := List.forall_mem_cons.mp h
      exact (hitem.append (ih hitems)).of_eq fun value _ => by simp

end Inserts

/-! ## Scopes -/

variable (bindings : Entries) (name : String)

/-- A chain of scopes that ends in some bindings, with one name bound to a text. -/
abbrev Scopes.binding (fronts : Scopes) (value : String) : Scopes :=
  fronts ++ [bindings.put (.text name) (.text value)]

/-- What a name is bound to behind some scopes does not depend on a text in the outermost bindings,
or it is that text. -/
theorem Scopes.get?_binding (fronts : Scopes) (other : String) :
    (∃ found, ∀ value, Scopes.get? (Scopes.binding bindings name fronts value) other = found) ∨
      ∀ value, Scopes.get? (Scopes.binding bindings name fronts value) other =
        some (.text value) := by
  have hget : ∀ value, Scopes.get? (Scopes.binding bindings name fronts value) other =
      (Scopes.get? fronts other).or
        ((Entries.get? [(.text name, .text value)] other).or (Entries.get? bindings other)) := by
    intro value
    rw [Scopes.binding, Scopes.get?_append, Scopes.get?_cons, Entries.get?_put]
    simp [Scopes.get?]
  cases hfront : Scopes.get? fronts other with
  | some found =>
      exact .inl ⟨some found, fun value => by rw [hget, hfront, Option.some_or]⟩
  | none =>
      by_cases hname : name = other
      · refine .inr fun value => ?_
        rw [hget, hfront]
        simp [Entries.get?, hname]
      · refine .inl ⟨Entries.get? bindings other, fun value => ?_⟩
        rw [hget, hfront]
        simp [Entries.get?, hname]

/-! ## Nodes -/

mutual

theorem Node.inserts_expand : ∀ (node : Node) (fronts : Scopes),
    Inserts fun value => node.expand (Scopes.binding bindings name fronts value)
  | .literal text, _ => by
      simp only [Node.expand]
      exact .const text
  | .variable other source, fronts => by
      simp only [Node.expand]
      rcases Scopes.get?_binding bindings name fronts other with ⟨found, hfound⟩ | hitself
      · simp only [hfound]
        exact .const _
      · simp only [hitself]
        exact .itself
  | .block other children _ _, fronts => by
      simp only [Node.expand]
      rcases Scopes.get?_binding bindings name fronts other with ⟨found, hfound⟩ | hitself
      · obtain ⟨inner, hinner⟩ := exists_bodyScopes found
        simp only [hfound, hinner, List.map_map]
        refine .join fun front _ => ?_
        have hchildren := Node.inserts_expandAll children (front ++ fronts)
        simpa only [Function.comp_apply, Scopes.binding, List.append_assoc] using hchildren
      · -- a text that is not empty counts as true, so the body is written once
        refine (Node.inserts_expandAll children fronts).of_eq fun value hvalue => ?_
        have hbodies : bodyScopes (Scopes.binding bindings name fronts value) (some (.text value)) =
            [Scopes.binding bindings name fronts value] := by
          simp [bodyScopes, Value.items?, Value.entries?, isTruthy, hvalue]
        rw [hitself, hbodies]
        simp

/-- Nodes put a text that a name is bound to in the outermost bindings into gaps. -/
theorem Node.inserts_expandAll : ∀ (nodes : List Node) (fronts : Scopes),
    Inserts fun value => Node.expandAll (Scopes.binding bindings name fronts value) nodes
  | [], _ => by
      simp only [Node.expandAll]
      exact .const ""
  | node :: nodes, fronts => by
      simp only [Node.expandAll]
      exact (Node.inserts_expand node fronts).append (Node.inserts_expandAll nodes fronts)

end

/-- A text that a name is bound to is written between segments that do not depend on it. -/
theorem expand_put_text (template : String) (bindings : Entries) (name : String) :
    ∃ segments : List String, segments ≠ [] ∧ ∀ value, value ≠ "" →
      expand template (bindings.put (.text name) (.text value)) = value.intercalate segments := by
  obtain ⟨parts, hparts⟩ := Node.inserts_expandAll bindings name (parse template) []
  refine ⟨segments parts, segments_ne_nil parts, fun value hvalue => ?_⟩
  calc expand template (bindings.put (.text name) (.text value))
      = Node.expandAll (Scopes.binding bindings name [] value) (parse template) := rfl
    _ = fill value parts := hparts value hvalue
    _ = value.intercalate (segments parts) := fill_eq_intercalate value parts

/-- A text with a marker in it is written as it is: in a section of its own name, in an item of a
list that does not bind the name, but neither in one that does nor behind a `$`. -/
theorem expand_put_text_marker :
    let template := Catalogue.opens "x" ++ "[" ++ Catalogue.var "x" ++ "]" ++ Catalogue.closes "x" ++
      Catalogue.opens "items" ++ Catalogue.var "x" ++ Catalogue.closes "items" ++ "$" ++ Catalogue.var "x"
    let bindings : Entries := [(.text "items", .list [.map [(.text "x", .text "y")], .int 1])]
    let value := Catalogue.var "items" ++ "\n"
    value ≠ "" ∧
    (∃ segments : List String, segments ≠ [] ∧ ∀ value, value ≠ "" →
      expand template (bindings.put (.text "x") (.text value)) = value.intercalate segments) ∧
    expand template (bindings.put (.text "x") (.text value)) =
      value.intercalate ["[", "]y", "$" ++ Catalogue.var "x"] := by
  intro template bindings value
  exact ⟨by decide +kernel, expand_put_text template bindings "x", by decide +kernel⟩

end PackageScaffold.Template
