import PackageScaffold.Proofs.Yaml.Content
import PackageScaffold.Yaml.Document

/-!
# What documents stand for

A graph in which every node leads to later ones only is a tree, and what a node stands for is its
content with the values of its nodes in their places.

* `Spells`: the values that the nodes of a tree stand for;
* `Spells.exists_run_valueAt`: a node stands for its value, whatever is known already;
* `Spells.valueOf_eq`: the value of a document is that of its outermost node.
-/

namespace PackageScaffold.Yaml

/-! ## Values of nodes -/

/-- What a content stands for, if it is known what the nodes in it do. -/
def Content.value (value : NodeId → Value) : Content → Value
  | .plain value => value
  | .noNumber => .float (0.0 / 0.0)
  | .list items => .list (items.map value)
  | .pairs items => .list (items.map fun item => .pair (value item.1) (value item.2))
  | .map entries => .map (entries.map fun entry => (value entry.1, value entry.2))
  | .set members => .set (members.map value)

/-- Nodes lead to later ones only, and stand for the given values. -/
structure Spells (held : List Content) (value : NodeId → Value) : Prop where
  value_eq : ∀ (id : NodeId) (content : Content), held[id]? = some content →
    value id = content.value value
  inner : ∀ (id : NodeId) (content : Content), held[id]? = some content →
    ∀ child ∈ content.children, id < child ∧ child < held.length

/-- Values that are known are those that the nodes stand for. -/
def IsSound (value : NodeId → Value) (known : Known) : Prop :=
  ∀ (id : NodeId) (v : Value), known.getD id none = some v → v = value id

theorem IsSound.set {value : NodeId → Value} {known : Known} (h : IsSound value known)
    (id : NodeId) :
    IsSound value (known.setIfInBounds id (some (value id))) := by
  intro other v hv
  rw [Array.getD_eq_getD_getElem?, Array.getElem?_setIfInBounds] at hv
  split at hv
  · rename_i hsame
    split at hv
    · rw [← hsame]
      exact (Option.some.inj hv).symm
    · simp at hv
  · apply h other v
    rw [Array.getD_eq_getD_getElem?, hv]

/-- The first step of a computation with a state. -/
theorem run_bind_of_eq {σ α β : Type} {x : StateM σ α} {f : α → StateM σ β} {s t : σ} {a : α}
    (h : x.run s = (a, t)) : (x >>= f).run s = (f a).run t := by
  rw [StateT.run_bind, h]
  rfl

/-- A computation with a state that gives the expected results, and keeps what is known of the
state. -/
theorem exists_run_mapM {σ α β : Type} {f : α → StateM σ β} {p : σ → Prop} (g : α → β) (xs : List α)
    (h : ∀ x ∈ xs, ∀ s, p s → ∃ t, (f x).run s = (g x, t) ∧ p t) {s : σ} (hs : p s) :
    ∃ t, (xs.mapM f).run s = (xs.map g, t) ∧ p t := by
  induction xs generalizing s with
  | nil => exact ⟨s, rfl, hs⟩
  | cons x xs ih =>
      obtain ⟨hx, hxs⟩ := List.forall_mem_cons.mp h
      obtain ⟨s₁, hfirst, hs₁⟩ := hx s hs
      obtain ⟨s₂, hrest, hs₂⟩ := ih hxs hs₁
      refine ⟨s₂, ?_, hs₂⟩
      rw [List.mapM_cons, run_bind_of_eq hfirst, run_bind_of_eq hrest]
      rfl

/-- The value of a collection, from the values of the nodes in it. -/
def collected (inner : NodeId → StateM Known (Value × Bool)) (content : Content) :
    StateM Known (Value × Bool) := do
  let pair (entry : NodeId × NodeId) : StateM Known ((Value × Value) × Bool) := do
    let (first, isFirstFree) ← inner entry.1
    let (second, isSecondFree) ← inner entry.2
    return ((first, second), isFirstFree && isSecondFree)
  match content with
  | .map entries => do
    let entries ← entries.mapM pair
    pure (Value.map (entries.map (·.1)), entries.all (·.2))
  | .pairs items => do
    let items ← items.mapM pair
    pure (Value.list (items.map fun item => .pair item.1.1 item.1.2), items.all (·.2))
  | .set members => do
    let members ← members.mapM inner
    pure (Value.set (members.map (·.1)), members.all (·.2))
  | .list items => do
    let items ← items.mapM inner
    pure (Value.list (items.map (·.1)), items.all (·.2))
  | .plain _ | .noNumber => pure (.null, true)

variable {held : List Content} {value : NodeId → Value}

theorem all_free {α β : Type} (g : α → β) (xs : List α) :
    ((xs.map fun x => (g x, true)).all fun x => x.2) = true := by
  simp

/-- A collection of nodes that stand for their values stands for its own. -/
theorem exists_run_collected {inner : NodeId → StateM Known (Value × Bool)} {content : Content}
    (hself : content.self? = none)
    (h : ∀ child ∈ content.children, ∀ known, IsSound value known → ∃ known',
      (inner child).run known = ((value child, true), known') ∧ IsSound value known')
    {known : Known} (hknown : IsSound value known) :
    ∃ known', (collected inner content).run known = ((content.value value, true), known') ∧
      IsSound value known' := by
  -- keys are read before what they map to, and each step keeps the known values sound
  have hpairs (entries : List (NodeId × NodeId))
      (hchildren : ∀ entry ∈ entries, entry.1 ∈ content.children ∧ entry.2 ∈ content.children) :
      ∃ known', (entries.mapM fun entry => do
          let (first, isFirstFree) ← inner entry.1
          let (second, isSecondFree) ← inner entry.2
          return ((first, second), isFirstFree && isSecondFree) :
          StateM Known (List ((Value × Value) × Bool))).run known =
        (entries.map fun entry => ((value entry.1, value entry.2), true), known') ∧
        IsSound value known' := by
    apply exists_run_mapM _ _ ?_ hknown
    intro entry hentry known hknown
    obtain ⟨hkey, hmapped⟩ := hchildren entry hentry
    obtain ⟨known₁, hfirst, hknown₁⟩ := h entry.1 hkey known hknown
    obtain ⟨known₂, hsecond, hknown₂⟩ := h entry.2 hmapped known₁ hknown₁
    refine ⟨known₂, ?_, hknown₂⟩
    rw [run_bind_of_eq hfirst]
    simp only
    rw [run_bind_of_eq hsecond]
    rfl
  cases content with
  | plain v => simp [Content.self?] at hself
  | noNumber => simp [Content.self?] at hself
  | list items =>
      obtain ⟨known', hrun, hknown'⟩ :=
        exists_run_mapM (fun item => (value item, true)) items h hknown
      refine ⟨known', ?_, hknown'⟩
      rw [collected, run_bind_of_eq hrun, all_free, List.map_map]
      rfl
  | pairs items =>
      obtain ⟨known', hrun, hknown'⟩ := hpairs items fun entry hentry =>
        ⟨List.mem_flatMap.mpr ⟨entry, hentry, by simp⟩, List.mem_flatMap.mpr
          ⟨entry, hentry, by simp⟩⟩
      refine ⟨known', ?_, hknown'⟩
      rw [collected, run_bind_of_eq hrun, all_free, List.map_map]
      rfl
  | map entries =>
      obtain ⟨known', hrun, hknown'⟩ := hpairs entries fun entry hentry =>
        ⟨List.mem_flatMap.mpr ⟨entry, hentry, by simp⟩, List.mem_flatMap.mpr
          ⟨entry, hentry, by simp⟩⟩
      refine ⟨known', ?_, hknown'⟩
      rw [collected, run_bind_of_eq hrun, all_free, List.map_map]
      rfl
  | set members =>
      obtain ⟨known', hrun, hknown'⟩ := exists_run_mapM (fun item => (value item, true)) members
        h hknown
      refine ⟨known', ?_, hknown'⟩
      rw [collected, run_bind_of_eq hrun, all_free, List.map_map]
      rfl

namespace Spells

theorem getD_map_some (held : List Content) (id : NodeId) :
    (held.map some).toArray.getD id none = held[id]? := by
  rw [Array.getD_eq_getD_getElem?]
  simp
  cases held[id]? <;> rfl

/-- Inside nodes in front of it, a node stands for its value. -/
theorem exists_run_valueAt (h : Spells held value) {fuel : Nat} {path : List NodeId} {id : NodeId}
    (hfuel : held.length < id + fuel) (hpath : ∀ around ∈ path, around < id)
    (hid : id < held.length)
    {known : Known} (hknown : IsSound value known) :
    ∃ known', (valueAt (held.map some).toArray fuel path id).run known =
      ((value id, true), known') ∧ IsSound value known' := by
  induction fuel generalizing path id known with
  | zero => exact absurd hfuel (Nat.not_lt_of_gt hid)
  | succ fuel ih =>
      obtain ⟨content, hheld⟩ : ∃ content, held[id]? = some content :=
        ⟨_, List.getElem?_eq_getElem hid⟩
      have hvalue := h.value_eq id content hheld
      have hchild : ∀ child ∈ content.children, ∀ known : Known, IsSound value known → ∃ known',
          (valueAt (held.map some).toArray fuel (id :: path) child).run known =
            ((value child, true), known') ∧ IsSound value known' := by
        intro child hmem known hknown
        obtain ⟨hlt, hin⟩ := h.inner id content hheld child hmem
        have hless : held.length < child + fuel := calc
          held.length < id + (fuel + 1) := hfuel
          _ = id + 1 + fuel := by rw [Nat.add_right_comm, Nat.add_assoc]
          _ ≤ child + fuel := Nat.add_le_add_right hlt fuel
        refine ih hless ?_ hin hknown
        intro around haround
        rcases List.mem_cons.mp haround with rfl | haround
        · exact hlt
        · exact Nat.lt_trans (hpath around haround) hlt
      have hget {β : Type} (f : Known → StateM Known β) : (get >>= f).run known =
        (f known).run known := rfl
      rw [valueAt, hget]
      simp only [getD_map_some, hheld, Option.getD_some]
      cases hfound : (known.getD id none).or content.self? with
      | some v =>
          have hv : v = value id := by
            cases hkept : known.getD id none with
            | some kept =>
                rw [hkept, Option.some_or] at hfound
                rw [← Option.some.inj hfound]
                exact hknown id kept hkept
            | none =>
                rw [hkept, Option.none_or] at hfound
                rw [hvalue]
                cases content <;> simp [Content.self?] at hfound <;> exact hfound.symm
          exact ⟨known, by rw [hv]; rfl, hknown⟩
      | none =>
          have hnot : path.contains id = false := by
            simpa using fun hmem => Nat.lt_irrefl _ (hpath id hmem)
          obtain ⟨known', hrun, hknown'⟩ :=
            exists_run_collected (Option.or_eq_none_iff.mp hfound).2 hchild hknown
          rw [← hvalue] at hrun
          refine ⟨known'.setIfInBounds id (some (value id)), ?_, hknown'.set id⟩
          simp only [hnot, Bool.false_eq_true, if_false]
          -- what is free of the collections around it is noted
          have hsame := run_bind_of_eq (f := fun p => do
            if p.2 then modify fun known : Known => known.setIfInBounds id (some p.1)
            return (p.1, p.2)) hrun
          refine Eq.trans ?_ (hsame.trans rfl)
          cases content <;> rfl

/-- A document stands for the value of its outermost node. -/
theorem valueOf_eq (h : Spells held value) {root : NodeId} (hroot : root < held.length) :
    valueOf (held.map some).toArray root = value root := by
  have hstart : IsSound value (Array.replicate (held.map some).toArray.size none) := by
    intro id v hv
    rw [Array.getD_eq_getD_getElem?, Array.getElem?_replicate] at hv
    split at hv <;> simp at hv
  -- there are more rounds than nodes, so each node is read to its end
  have hrun : ∀ id < held.length, ∀ known : Known, IsSound value known → ∃ known',
      (do let (value, _) ← valueAt (held.map some).toArray (mostRounds * ((held.map some).toArray.size + 1)) [] id
          return value : StateM Known Value).run known = (value id, known') ∧
            IsSound value known' := by
    intro id hid known hknown
    have hfuel : held.length < id + mostRounds * ((held.map some).toArray.size + 1) := by
      simp [mostRounds]
      omega
    obtain ⟨known', hvalue, hknown'⟩ :=
      h.exists_run_valueAt hfuel (List.forall_mem_nil _) hid hknown
    exact ⟨known', by rw [run_bind_of_eq hvalue]; rfl, hknown'⟩
  obtain ⟨content, hheld⟩ : ∃ content, held[root]? = some content :=
    ⟨_, List.getElem?_eq_getElem hroot⟩
  have hwhole := h.value_eq root content hheld
  unfold valueOf
  simp only [getD_map_some, hheld]
  cases content with
  | map entries =>
      have hentries : ∀ entry ∈ entries, ∀ known : Known, IsSound value known → ∃ known',
          (do let first ← (do let (value, _) ← valueAt (held.map some).toArray
                                (mostRounds * ((held.map some).toArray.size + 1)) [] entry.1
                              return value : StateM Known Value)
              let second ← (do let (value, _) ← valueAt (held.map some).toArray
                                (mostRounds * ((held.map some).toArray.size + 1)) [] entry.2
                               return value : StateM Known Value)
              return (first, second) : StateM Known (Value × Value)).run known =
            ((value entry.1, value entry.2), known') ∧ IsSound value known' := by
        intro entry hentry known hknown
        have hin (child : NodeId) (hchild : child ∈ [entry.1, entry.2]) : child < held.length :=
          (h.inner root _ hheld child (List.mem_flatMap.mpr ⟨entry, hentry, hchild⟩)).2
        obtain ⟨known₁, hfirst, hknown₁⟩ := hrun entry.1 (hin _ (by simp)) known hknown
        obtain ⟨known₂, hsecond, hknown₂⟩ := hrun entry.2 (hin _ (by simp)) known₁ hknown₁
        exact ⟨known₂, by rw [run_bind_of_eq hfirst, run_bind_of_eq hsecond]; rfl, hknown₂⟩
      obtain ⟨known', hall, -⟩ :=
        exists_run_mapM (fun entry => (value entry.1, value entry.2)) entries
        hentries hstart
      rw [hwhole, Content.value]
      exact congrArg (fun result => result.1) (run_bind_of_eq hall)
  | _ =>
      obtain ⟨known', hvalue, -⟩ := hrun root hroot _ hstart
      exact congrArg (fun result => result.1) hvalue

end Spells

end PackageScaffold.Yaml
