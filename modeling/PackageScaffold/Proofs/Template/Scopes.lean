import PackageScaffold.Template.Expand

/-!
# Scopes

A text depends on its scopes only through what they bind the names to, so the scopes that a
section opens can be merged with those around it.

* `expandAll_congr`: scopes that bind every name alike give the same text;
* `get?_override`: in a mapping that is overridden by another, a name is looked up in the other
  first, as it is in a chain of the two;
* `expandAll_override`: a chain of two mappings can be replaced by one mapping.
-/

namespace PackageScaffold

/-! ## Overriding -/

/-- The mapping that binds the keys of `other` as `other` does, and every other key as `base` does.
-/
def Entries.override (base other : Entries) : Entries :=
  other.foldr (fun (key, value) merged => merged.put key value) base

/-- A text is the same key as no other value. -/
theorem Value.sameKey_text_left {text : String} {key : Value} :
    (Value.text text).sameKey key = true ↔ key = .text text := by
  cases key
  case text text' => simpa [Value.sameKey] using eq_comm
  all_goals simp [Value.sameKey, Value.quantity?]

theorem Value.sameKey_text_right {text : String} {key : Value} :
    key.sameKey (.text text) = true ↔ key = .text text := by
  cases key <;> simp [Value.sameKey, Value.quantity?]

namespace Entries

theorem get?_cons (key value : Value) (entries : Entries) (name : String) :
    get? ((key, value) :: entries) name = (get? [(key, value)] name).or (get? entries name) := by
  cases key
  case text text =>
    by_cases h : text == name <;> simp [get?, h]
  all_goals simp [get?]

theorem mem_of_get? {entries : Entries} {name : String} {value : Value}
    (h : entries.get? name = some value) : (.text name, value) ∈ entries := by
  fun_induction get? entries name with
  | case1 => cases h
  | case2 key found rest hkey =>
      obtain rfl := Option.some.inj h
      obtain rfl : key = name := by simpa using hkey
      exact List.mem_cons_self
  | case3 key found rest hkey ih => exact List.mem_cons_of_mem _ (ih h)
  | case4 entry rest hother ih => exact List.mem_cons_of_mem _ (ih h)

/-- Keys that are the same bind the same names. -/
theorem get?_congr_key {key other : Value} (h : key.sameKey other = true) (value : Value)
    (name : String) : get? [(key, value)] name = get? [(other, value)] name := by
  cases key
  case text text =>
    rw [Value.sameKey_text_left.mp h]
  all_goals
    cases other
    case text text => simp [Value.sameKey_text_right] at h
    all_goals rfl

/-- A key that is the same as another hides it. -/
theorem get?_hidden {key other : Value} (h : key.sameKey other = true) (value old : Value)
    (rest : Option Value) (name : String) :
    (get? [(other, value)] name).or ((get? [(key, old)] name).or rest) =
      (get? [(other, value)] name).or rest := by
  rw [get?_congr_key h]
  cases other
  case text text =>
    by_cases hname : text == name <;> simp [get?, hname]
  all_goals simp [get?]

/-- Two keys that differ can be looked up in any order. -/
theorem get?_or_comm {key other : Value} (h : key.sameKey other = false) (value old : Value)
    (name : String) :
    (get? [(key, old)] name).or (get? [(other, value)] name) =
      (get? [(other, value)] name).or (get? [(key, old)] name) := by
  cases key
  case text text =>
    cases other
    case text text' =>
      have hne : text ≠ text' := by simpa [Value.sameKey] using h
      by_cases htext : text = name
      · have hother : ¬ text' = name := fun heq => hne (htext.trans heq.symm)
        simp [get?, htext, hother]
      · by_cases hother : text' = name <;> simp [get?, htext, hother]
    all_goals simp [get?]
  all_goals simp [get?]

/-- What a key has been bound to is found first. -/
theorem get?_put (entries : Entries) (key value : Value) (name : String) :
    get? (entries.put key value) name = (get? [(key, value)] name).or (get? entries name) := by
  induction entries with
  | nil => simp [put, get?]
  | cons entry rest ih =>
      obtain ⟨k, old⟩ := entry
      rw [put, get?_cons k old rest]
      by_cases hsame : k.sameKey key = true
      · rw [if_pos hsame, get?_cons, get?_hidden hsame, get?_congr_key hsame]
      · have hdiffer : k.sameKey key = false := by simpa using hsame
        rw [if_neg hsame, get?_cons, ih, ← Option.or_assoc, get?_or_comm hdiffer, Option.or_assoc]

theorem get?_override (base other : Entries) (name : String) :
    get? (base.override other) name = (get? other name).or (get? base name) := by
  induction other with
  | nil => simp [override, get?]
  | cons entry rest ih =>
      obtain ⟨key, value⟩ := entry
      have hput : base.override ((key, value) :: rest) = (base.override rest).put key value := rfl
      rw [hput, get?_put, ih, get?_cons key value rest, Option.or_assoc]

end Entries

namespace Template

/-! ## Chains of scopes -/

theorem Scopes.get?_cons (scope : Entries) (outer : Scopes) (name : String) :
    Scopes.get? (scope :: outer) name = (Entries.get? scope name).or (Scopes.get? outer name) := by
  cases h : Entries.get? scope name <;> simp [Scopes.get?, h]

theorem Scopes.get?_append (front outer : Scopes) (name : String) :
    Scopes.get? (front ++ outer) name =
      (Scopes.get? front name).or (Scopes.get? outer name) := by
  induction front with
  | nil => simp [Scopes.get?]
  | cons scope front ih =>
      rw [List.cons_append, Scopes.get?_cons, ih, Scopes.get?_cons, Option.or_assoc]

/-- A section puts scopes in front of those that are there; which ones depends on its value only. -/
theorem exists_bodyScopes (value : Option Value) :
    ∃ fronts : List Scopes, ∀ scopes, bodyScopes scopes value = fronts.map (· ++ scopes) := by
  cases value with
  | none => exact ⟨[], fun _ => rfl⟩
  | some value =>
      cases hitems : value.items? with
      | some items =>
          refine ⟨items.map fun item => [itemScope item], fun scopes => ?_⟩
          simp [bodyScopes, hitems]
      | none =>
          cases hentries : value.entries? with
          | some entries =>
              exact ⟨[[entries]], fun scopes => by simp [bodyScopes, hitems, hentries]⟩
          | none =>
              refine ⟨if isTruthy value then [[]] else [], fun scopes => ?_⟩
              by_cases htruthy : isTruthy value <;> simp [bodyScopes, hitems, hentries, htruthy]

mutual

/-- Scopes that bind every name alike give a node the same text. -/
theorem Node.expand_congr {s t : Scopes}
    (h : ∀ name, Scopes.get? s name = Scopes.get? t name) :
    ∀ node : Node, node.expand s = node.expand t
  | .literal _ => by simp only [Node.expand]
  | .variable name _ => by simp only [Node.expand, h name]
  | .block name children _ _ => by
      obtain ⟨fronts, hfronts⟩ := exists_bodyScopes (Scopes.get? t name)
      simp only [Node.expand, h name, hfronts, List.map_map]
      congr 1
      refine List.map_congr_left fun front _ => ?_
      refine Node.expandAll_congr (fun name => ?_) children
      rw [Scopes.get?_append, Scopes.get?_append, h name]

/-- Scopes that bind every name alike give a sequence of nodes the same text. -/
theorem Node.expandAll_congr {s t : Scopes}
    (h : ∀ name, Scopes.get? s name = Scopes.get? t name) :
    ∀ nodes : List Node, Node.expandAll s nodes = Node.expandAll t nodes
  | [] => by simp only [Node.expandAll]
  | node :: nodes => by
      simp only [Node.expandAll, Node.expand_congr h node, Node.expandAll_congr h nodes]

end

theorem expandAll_append (scopes : Scopes) (first second : List Node) :
    Node.expandAll scopes (first ++ second) =
      Node.expandAll scopes first ++ Node.expandAll scopes second := by
  induction first with
  | nil => simp [Node.expandAll]
  | cons node first ih => simp only [List.cons_append, Node.expandAll, ih, String.append_assoc]

/-- A chain of two mappings can be replaced by one mapping. -/
theorem expandAll_override (base other : Entries) (nodes : List Node) :
    Node.expandAll [other, base] nodes = Node.expandAll [base.override other] nodes := by
  refine Node.expandAll_congr (fun name => ?_) nodes
  rw [Scopes.get?_cons, Scopes.get?_cons, Scopes.get?_cons, Entries.get?_override, Option.or_assoc]

end Template

end PackageScaffold
