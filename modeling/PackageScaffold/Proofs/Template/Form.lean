import PackageScaffold.Proofs.Template.Strict

/-!
# Forms of bindings

What a template can rely on is the form of its bindings, not what they say: which names are bound,
and whether to a text, to a switch or to a list of records.  A tree is well formed under a signature
if each of its variables stands for a text or a switch wherever it is reached, the names of a record
hiding those around it.  Whatever bindings of that form say, every variable that is reached then has
a text.

* `Form`, `Signature`, `Binds`: forms, and bindings that have them;
* `Binds.put`: another value of the same form can be bound;
* `Node.areFormed`: whether nodes are well formed under a signature, which is decided by computing it;
* `Node.resolves_of_areFormed`: well-formed nodes resolve.
-/

namespace PackageScaffold.Template

/-- What is known of a bound value. -/
inductive Form where
  | text
  | switch
  | records (fields : List (String × Form))

/-- Names with the forms that their values have. -/
abbrev Signature := List (String × Form)

mutual

/-- A value has a form. -/
inductive Fits : Value → Form → Prop
  | text (value : String) : Fits (.text value) .text
  | switch (isOn : Bool) : Fits (.bool isOn) .switch
  | records {fields : List (String × Form)} {items : List Entries}
      (bound : ∀ item ∈ items, Binds item fields) :
      Fits (.list (items.map Value.map)) (.records fields)

/-- Bindings bind the names of a signature, in its order, to values of their forms,
and no others. -/
inductive Binds : Entries → Signature → Prop
  | nil : Binds [] []
  | cons {entries : Entries} {signature : List (String × Form)} {value : Value} {form : Form}
      (name : String) (fits : Fits value form) (rest : Binds entries signature) :
      Binds ((.text name, value) :: entries) ((name, form) :: signature)

end

/-- A chain of scopes gives each name of a signature a value of its form. -/
def Provides (scopes : Scopes) (signature : Signature) : Prop :=
  ∀ name form, signature.lookup name = some form →
    ∃ value, Scopes.get? scopes name = some value ∧ Fits value form

/-! ## Looking names up -/

namespace Binds

variable {entries : Entries} {signature : Signature} {name : String} {form : Form}

theorem exists_get? (h : Binds entries signature) (hform : signature.lookup name = some form) :
    ∃ value, Entries.get? entries name = some value ∧ Fits value form := by
  induction entries generalizing signature with
  | nil =>
      cases h
      simp at hform
  | cons entry entries ih =>
      cases h with
      | cons key fits rest =>
          by_cases hkey : name = key
          · subst hkey
            obtain rfl : _ = form := by simpa using hform
            exact ⟨_, by simp [Entries.get?], fits⟩
          · rw [List.lookup_cons, beq_false_of_ne hkey] at hform
            obtain ⟨value, hvalue, hfits⟩ := ih rest hform
            exact ⟨value, by simp [Entries.get?, Ne.symm hkey, hvalue], hfits⟩

theorem get?_eq_none (h : Binds entries signature) (hnone : signature.lookup name = none) :
    Entries.get? entries name = none := by
  induction entries generalizing signature with
  | nil => rfl
  | cons entry entries ih =>
      cases h with
      | cons key fits rest =>
          by_cases hkey : name = key
          · subst hkey
            simp at hnone
          · rw [List.lookup_cons, beq_false_of_ne hkey] at hnone
            simp [Entries.get?, Ne.symm hkey, ih rest hnone]

/-- Bindings keep their form if a name is bound to another value of the form that it has. -/
theorem put {value : Value} (h : Binds entries signature)
    (hform : signature.lookup name = some form)
    (hfits : Fits value form) : Binds (entries.put (.text name) value) signature := by
  induction entries generalizing signature with
  | nil =>
      cases h
      simp at hform
  | cons entry entries ih =>
      cases h with
      | cons key fits rest =>
          -- the first binding of the name keeps its place, so the order of the signature is kept
          by_cases hkey : name = key
          · subst hkey
            obtain rfl : _ = form := by simpa using hform
            rw [Entries.put, if_pos (by simp [Value.sameKey])]
            exact .cons name hfits rest
          · rw [List.lookup_cons, beq_false_of_ne hkey] at hform
            rw [Entries.put, if_neg (by simpa [Value.sameKey] using Ne.symm hkey)]
            exact .cons key fits (ih rest hform)

/-- Bindings stand in front of scopes; their names hide those of the scopes. -/
theorem provides_cons {scopes : Scopes} {outer : Signature} (h : Binds entries signature)
    (houter : Provides scopes outer) : Provides (entries :: scopes) (signature ++ outer) := by
  intro name form hform
  rw [List.lookup_append] at hform
  rw [Scopes.get?]
  -- a name has its form from the signature exactly where the bindings have a value for it
  cases hinner : signature.lookup name with
  | some found =>
      obtain rfl : found = form := by simpa [hinner] using hform
      obtain ⟨value, hvalue, hfits⟩ := h.exists_get? hinner
      exact ⟨value, by rw [hvalue], hfits⟩
  | none =>
      obtain ⟨value, hvalue, hfits⟩ := houter name form (by simpa [hinner] using hform)
      exact ⟨value, by rw [h.get?_eq_none hinner]; exact hvalue, hfits⟩

theorem provides (h : Binds entries signature) : Provides [entries] signature := by
  have hempty : Provides [] [] := by
    intro name form hform
    simp at hform
  simpa using h.provides_cons hempty

end Binds

/-! ## Well-formed nodes -/

/-- Whether values of a form can be written as text. -/
def Form.hasText : Form → Bool
  | .text | .switch => true
  | .records _ => false

/-- The names that a section for a value of a form brings. -/
def Form.fields : Form → Signature
  | .text | .switch => []
  | .records fields => fields

namespace Fits

variable {value : Value} {form : Form} (h : Fits value form)

include h

theorem exists_scalarText? (htext : form.hasText = true) :
    ∃ text, scalarText? value = some text := by
  cases h with
  | text text => exact ⟨text, rfl⟩
  | switch isOn => cases isOn <;> exact ⟨_, rfl⟩
  | records bound => simp [Form.hasText] at htext

/-- In the body of a section, the names that it brings stand in front of those around it. -/
theorem provides {scopes inner : Scopes} {signature : Signature}
    (hscopes : Provides scopes signature)
    (hinner : inner ∈ bodyScopes scopes (some value)) :
    Provides inner (form.fields ++ signature) := by
  cases h with
  | text text =>
      obtain ⟨-, rfl⟩ : text.isEmpty = false ∧ inner = scopes := by
        simpa [bodyScopes, Value.items?, Value.entries?, isTruthy] using hinner
      exact hscopes
  | switch isOn =>
      cases isOn with
      | false => simp [bodyScopes, Value.items?, Value.entries?, isTruthy] at hinner
      | true =>
          obtain rfl : inner = scopes := by
            simpa [bodyScopes, Value.items?, Value.entries?, isTruthy] using hinner
          exact hscopes
  | records bound =>
      obtain ⟨record, hrecord, rfl⟩ : ∃ record ∈ _, record :: scopes = inner := by
        simpa [bodyScopes, Value.items?, itemScope, Value.entries?] using hinner
      exact (bound record hrecord).provides_cons hscopes

end Fits

mutual

/-- Whether each variable in a node has a text where it is reached. -/
def Node.isFormed (signature : Signature) : Node → Bool
  | .literal _ => true
  | .variable name _ => (signature.lookup name).any Form.hasText
  | .block name children _ _ =>
    match signature.lookup name with
    | some form => Node.areFormed (form.fields ++ signature) children
    | none => false

/-- Whether each variable in a sequence of nodes has a text where it is reached. -/
def Node.areFormed (signature : Signature) : List Node → Bool
  | [] => true
  | node :: nodes => node.isFormed signature && Node.areFormed signature nodes

end

mutual

theorem Node.resolves_of_isFormed {scopes : Scopes} {signature : Signature}
    (hscopes : Provides scopes signature) : ∀ (node : Node) {nodes : List Node},
      node.isFormed signature = true → Resolves scopes nodes → Resolves scopes (node :: nodes)
  | .literal text, _, _, hrest => .literal text hrest
  | .variable name source, _, h, hrest => by
      rw [Node.isFormed, Option.any_eq_true] at h
      obtain ⟨form, hform, htext⟩ := h
      obtain ⟨value, hvalue, hfits⟩ := hscopes name form hform
      obtain ⟨text, htext⟩ := hfits.exists_scalarText? htext
      exact .value source (by rw [hvalue]; exact htext) hrest
  | .block name children opening closing, _, h, hrest => by
      rw [Node.isFormed] at h
      split at h
      · rename_i form hform
        obtain ⟨value, hvalue, hfits⟩ := hscopes name form hform
        refine .block opening closing (fun inner hinner => ?_) hrest
        rw [hvalue] at hinner
        exact Node.resolves_of_areFormed (hfits.provides hscopes hinner) children h
      · exact absurd h Bool.false_ne_true

/-- Well-formed nodes resolve in all scopes that provide the signature. -/
theorem Node.resolves_of_areFormed {scopes : Scopes} {signature : Signature}
    (hscopes : Provides scopes signature) : ∀ nodes : List Node,
      Node.areFormed signature nodes = true → Resolves scopes nodes
  | [], _ => .nil
  | node :: nodes, h => by
      rw [Node.areFormed, Bool.and_eq_true] at h
      exact Node.resolves_of_isFormed hscopes node h.1
        (Node.resolves_of_areFormed hscopes nodes h.2)

end

/-- Whether the markers of a template nest and its nodes are well formed under a signature. -/
def isFormedTemplate (signature : Signature) (tokens : List Token) : Bool :=
  match nodesOfTokensStrict tokens with
  | .ok nodes => Node.areFormed signature nodes
  | .error _ => false

/-- A template that is well formed under a signature is expanded, strictly or not. -/
theorem exists_expandWith_of_isFormedTemplate {signature : Signature} {template : String}
    {bindings : Entries} (hbinds : Binds bindings signature)
    (h : isFormedTemplate signature (tokenize template) = true) :
    ∃ text, ∀ strict, expandWith strict template bindings = .ok text := by
  unfold isFormedTemplate at h
  split at h
  · rename_i nodes hnodes
    have hresolves := Node.resolves_of_areFormed hbinds.provides nodes h
    obtain ⟨text, htext⟩ := expandWith_of_resolves (spells_of_nodesOfTokensStrict hnodes)
      hresolves true
    refine ⟨text, fun strict => ?_⟩
    cases strict with
    | true => exact htext
    | false => rw [expandWith, if_neg Bool.false_ne_true, expandWith_eq_ok htext]
  · exact absurd h Bool.false_ne_true

end PackageScaffold.Template
