import PackageScaffold.Metadata
import PackageScaffold.Proofs.Yaml.Keys

/-!
# Names that are looked up

A value that is read from a document can be looked into: a mapping has entries, and a collection
inside itself has those of the collection that comes again.  Wherever this leads, no name is there
twice.

* `Entries.names`: the texts that are keys of a mapping;
* `Value.NamesOnce`: no mapping that looking into a value leads to has a name twice;
* `valueAt_spec`, `valueOf_spec`: so it is for the values of nodes, whose keys are distinct;
* `namesOnce_of_read`: and so for every value that is read.
-/

namespace PackageScaffold

/-- The texts that are keys of a mapping. -/
def Entries.names (entries : Entries) : List String :=
  entries.filterMap fun entry =>
    match entry.1 with
    | .text name => some name
    | _ => none

/-- No mapping that looking into a value leads to has a name twice. -/
inductive Value.NamesOnce : Value → Prop
  | intro {value : Value} (names : ∀ entries, value.entries? = some entries → entries.names.Nodup)
    (inside : ∀ entries, value.entries? = some entries → ∀ entry ∈ entries, NamesOnce entry.2) :
    NamesOnce value

namespace Value.NamesOnce

variable {value : Value} {entries : Entries}

theorem of_no_entries (h : value.entries? = none) : value.NamesOnce :=
  ⟨by simp [h], by simp [h]⟩

theorem nodup (h : value.NamesOnce) (hentries : value.entries? = some entries) :
    entries.names.Nodup := by
  cases h with
  | intro names inside => exact names entries hentries

/-- What a name leads to can be looked into as well. -/
theorem get? (h : value.NamesOnce) {name : String} {found : Value}
    (hget : value.get? name = some found) :
    found.NamesOnce := by
  obtain ⟨entries, hentries, hfound⟩ := Option.bind_eq_some_iff.mp hget
  cases h with
  | intro names inside => exact inside entries hentries _ (Entries.mem_of_get? hfound)

end Value.NamesOnce

namespace Yaml

variable {contents : Array (Option Content)}

/-! ## Values of nodes -/

/-- The value of a node: no name is there twice wherever one looks, and it is a text only if the
node holds it. -/
structure IsValueOf (contents : Array (Option Content)) (id : NodeId) (value : Value) : Prop where
  namesOnce : value.NamesOnce
  name : ∀ name, value = .text name → nameAt contents id = some name

/-- All values that are known are values of their nodes. -/
def AreValues (contents : Array (Option Content)) (known : Known) : Prop :=
  ∀ id value, known.getD id none = some value → IsValueOf contents id value

theorem AreValues.set {known : Known} (h : AreValues contents known) {id : NodeId} {value : Value}
    (hvalue : IsValueOf contents id value) :
    AreValues contents (known.setIfInBounds id (some value)) := by
  intro other v hv
  rw [Array.getD_eq_getD_getElem?, Array.getElem?_setIfInBounds] at hv
  split at hv
  · rename_i hsame
    split at hv
    · obtain rfl := Option.some.inj hv
      exact hsame ▸ hvalue
    · simp at hv
  · apply h other v
    rw [Array.getD_eq_getD_getElem?, hv]

/-- A computation with a state goes through a list, and each result belongs to its item. -/
theorem exists_run_mapM_forall₂ {σ α β : Type} {f : α → StateM σ β} {p : σ → Prop}
    {R : α → β → Prop}
    (h : ∀ x s, p s → ∃ y t, (f x).run s = (y, t) ∧ p t ∧ R x y) (xs : List α) {s : σ} (hs : p s) :
    ∃ ys t, (xs.mapM f).run s = (ys, t) ∧ p t ∧ List.Forall₂ R xs ys := by
  induction xs generalizing s with
  | nil => exact ⟨[], s, rfl, hs, .nil⟩
  | cons x xs ih =>
      obtain ⟨y, s₁, hfirst, hs₁, hy⟩ := h x s hs
      obtain ⟨ys, s₂, hrest, hs₂, hys⟩ := ih hs₁
      refine ⟨y :: ys, s₂, ?_, hs₂, .cons hy hys⟩
      rw [List.mapM_cons, run_bind_of_eq hfirst, run_bind_of_eq hrest]
      rfl

/-- The entries of a mapping, with the values of their nodes. -/
def AreEntriesOf (contents : Array (Option Content)) (nodes : NodeId × NodeId) (entry : Value × Value) :
    Prop :=
  IsValueOf contents nodes.1 entry.1 ∧ IsValueOf contents nodes.2 entry.2

/-- The names of a mapping are texts that its keys hold. -/
theorem names_sublist {nodes : List (NodeId × NodeId)} {entries : Entries}
    (h : List.Forall₂ (AreEntriesOf contents) nodes entries) :
    entries.names.Sublist ((nodes.map Prod.fst).filterMap (nameAt contents)) := by
  induction h with
  | nil => exact .slnil
  | @cons nodes entry rest entries hentry _ ih =>
      obtain ⟨⟨-, hname⟩, -⟩ := hentry
      obtain ⟨key, value⟩ := entry
      rw [List.map_cons]
      cases key with
      | text name =>
          rw [List.filterMap_cons_some (hname name rfl)]
          exact ih.cons_cons name
      | _ => exact ih.trans (List.filterMap_cons .. ▸ by split <;> simp)

/-- Entries whose keys are distinct nodes make a mapping without a name twice. -/
theorem namesOnce_map {nodes : List (NodeId × NodeId)} {entries : Entries}
    (hkeys : ((nodes.map Prod.fst).filterMap (nameAt contents)).Nodup)
    (h : List.Forall₂ (AreEntriesOf contents) nodes entries) : (Value.map entries).NamesOnce := by
  refine ⟨?_, ?_⟩
  · rintro _ ⟨⟩
    exact hkeys.sublist (names_sublist h)
  · rintro _ ⟨⟩ entry hentry
    obtain ⟨i, hi, rfl⟩ := List.mem_iff_getElem.mp hentry
    exact (h.get (by rw [h.length_eq]; exact hi) hi).2.namesOnce

/-- A value that is no text and has no entries is a value of every node. -/
theorem isValueOf_of_no_entries {id : NodeId} {value : Value} (h : value.entries? = none)
    (htext : ∀ name, value ≠ .text name) : IsValueOf contents id value :=
  ⟨.of_no_entries h, fun name heq => absurd heq (htext name)⟩

theorem IsValueOf.null (id : NodeId) : IsValueOf contents id .null :=
  isValueOf_of_no_entries rfl (by simp)

/-- What looking into a collection that comes again leads to. -/
theorem isValueOf_again {id : NodeId} {shape : Shape} {collection : Unit → Value}
    (h : (collection ()).NamesOnce) : IsValueOf contents id (.again shape collection) := by
  have hentries : ∀ entries, (Value.again shape collection).entries? = some entries →
      (collection ()).entries? = some entries := by
    intro entries hentries
    unfold Value.entries? at hentries
    dsimp only at hentries
    split at hentries
    · rename_i heq
      rw [heq]
      exact hentries
    · cases hentries
  cases h with
  | intro names inside =>
      exact ⟨⟨fun entries h => names entries (hentries entries h),
        fun entries h => inside entries (hentries entries h)⟩, by simp⟩

/-- What a node holds by itself is a value of it. -/
theorem isValueOf_self (hcontents : AreDistinct contents) {id : NodeId} {value : Value}
    (h : ((contents.getD id none).getD (.plain .null)).self? = some value) :
    IsValueOf contents id value := by
  cases hcontent : contents.getD id none with
  | none =>
      rw [hcontent] at h
      obtain rfl := Option.some.inj h
      exact .null id
  | some content =>
      rw [hcontent, Option.getD_some] at h
      cases content with
      | plain held =>
          obtain rfl := Option.some.inj h
          refine ⟨.of_no_entries (hcontents.plain hcontent), ?_⟩
          rintro name rfl
          rw [nameAt, hcontent]
          rfl
      | noNumber =>
          obtain rfl := Option.some.inj h
          exact isValueOf_of_no_entries rfl (by simp)
      | _ => cases h

/-- A step towards a value ends in a value of the given node. -/
def EndsInValue (contents : Array (Option Content)) (id : NodeId) (x : StateM Known (Value × Bool)) :
    Prop :=
  ∀ known, AreValues contents known →
    IsValueOf contents id (x.run known).1.1 ∧ AreValues contents (x.run known).2

/-- A collection of values is a value. -/
theorem collected_spec (hcontents : AreDistinct contents)
    {inner : NodeId → StateM Known (Value × Bool)}
    (hinner : ∀ id, EndsInValue contents id (inner id)) (id : NodeId) {content : Content}
    (hcontent : ∀ entries, content = .map entries → contents.getD id none = some content) :
    EndsInValue contents id (collected inner content) := by
  intro known hknown
  have hitems (items : List NodeId) : ∃ values known', (items.mapM inner).run known =
      (values, known') ∧ AreValues contents known' := by
    obtain ⟨values, known', hrun, hknown', -⟩ := exists_run_mapM_forall₂ (f := inner)
      (R := fun _ _ => True) (fun id known hknown =>
        ⟨_, _, rfl, (hinner id known hknown).2, trivial⟩)
      items hknown
    exact ⟨values, known', hrun, hknown'⟩
  have hpairs (entries : List (NodeId × NodeId)) : ∃ values known', (entries.mapM fun entry => do
        let first ← inner entry.1
        let second ← inner entry.2
        return ((first.1, second.1), first.2 && second.2) :
          StateM Known (List ((Value × Value) × Bool))).run known = (values, known') ∧
      AreValues contents known' ∧
      List.Forall₂ (fun nodes value => AreEntriesOf contents nodes value.1) entries values := by
    refine exists_run_mapM_forall₂ (fun entry known hknown => ?_) entries hknown
    obtain ⟨hfirst, hknown₁⟩ := hinner entry.1 known hknown
    obtain ⟨hsecond, hknown₂⟩ := hinner entry.2 _ hknown₁
    exact ⟨_, _, rfl, hknown₂, hfirst, hsecond⟩
  -- only a mapping has entries of its own
  cases content with
  | plain | noNumber => exact ⟨.null id, hknown⟩
  | list items =>
      obtain ⟨values, known', hrun, hknown'⟩ := hitems items
      rw [collected, run_bind_of_eq hrun]
      exact ⟨isValueOf_of_no_entries rfl (by simp), hknown'⟩
  | set members =>
      obtain ⟨values, known', hrun, hknown'⟩ := hitems members
      rw [collected, run_bind_of_eq hrun]
      exact ⟨isValueOf_of_no_entries rfl (by simp), hknown'⟩
  | pairs items =>
      obtain ⟨values, known', hrun, hknown', -⟩ := hpairs items
      rw [collected, run_bind_of_eq hrun]
      exact ⟨isValueOf_of_no_entries rfl (by simp), hknown'⟩
  | map entries =>
      obtain ⟨values, known', hrun, hknown', hvalues⟩ := hpairs entries
      rw [collected, run_bind_of_eq hrun]
      refine ⟨⟨?_, by simp⟩, hknown'⟩
      exact namesOnce_map (hcontents.mapping (hcontent entries rfl))
        (List.forall₂_map_right_iff.mpr hvalues)

/-- Whatever is known already, a node stands for a value of its own. -/
theorem valueAt_spec (hcontents : AreDistinct contents) (fuel : Nat) (path : List NodeId)
    (id : NodeId) :
    EndsInValue contents id (valueAt contents fuel path id) := by
  induction fuel generalizing path id with
  | zero => exact fun known hknown => ⟨.null id, hknown⟩
  | succ fuel ih =>
      intro known hknown
      have hget {β : Type} (f : Known → StateM Known β) : (get >>= f).run known =
        (f known).run known := rfl
      rw [valueAt, hget]
      cases hfound : (known.getD id none).or ((contents.getD id none).getD (.plain .null)).self?
        with
      | some value =>
          simp only [hfound]
          refine ⟨?_, hknown⟩
          rcases Option.or_eq_some_iff.mp hfound with hkept | ⟨-, hself⟩
          · exact hknown id value hkept
          · exact isValueOf_self hcontents hself
      | none =>
          simp only [hfound]
          cases hpath : path.contains id with
          | true =>
              exact ⟨isValueOf_again (ih [] id known hknown).1.namesOnce, hknown⟩
          | false =>
              simp only [Bool.false_eq_true, if_false]
              have hmap : ∀ entries, (contents.getD id none).getD (.plain .null) = .map entries →
                  contents.getD id none = some ((contents.getD id none).getD (.plain .null)) := by
                intro entries heq
                cases hcontent : contents.getD id none with
                | none => simp [hcontent] at heq
                | some content => rfl
              obtain ⟨hvalue, hknown'⟩ :=
                collected_spec hcontents (ih (id :: path)) id hmap known hknown
              generalize (contents.getD id none).getD (.plain .null) = content at hvalue hknown'
              rcases hrun : (collected (valueAt contents fuel (id :: path)) content).run known
                with ⟨⟨value, isFree⟩, known'⟩
              rw [hrun] at hvalue hknown'
              -- what is free of the collections around it is noted
              have hsame := run_bind_of_eq (f := fun p => do
                if p.2 then modify fun known : Known => known.setIfInBounds id (some p.1)
                return (p.1, p.2)) hrun
              refine (congrArg (fun r : (Value × Bool) × Known =>
                IsValueOf contents id r.1.1 ∧ AreValues contents r.2)
                (Eq.trans (by cases content <;> rfl) hsame)).mpr ?_
              cases isFree with
              | false => exact ⟨hvalue, hknown'⟩
              | true => exact ⟨hvalue, hknown'.set hvalue⟩

/-- In the value of a document, too, no name is there twice. -/
theorem valueOf_spec (hcontents : AreDistinct contents) (root : NodeId) :
    (valueOf contents root).NamesOnce := by
  have hstart : AreValues contents (Array.replicate contents.size none) := by
    intro id value hvalue
    rw [Array.getD_eq_getD_getElem?, Array.getElem?_replicate] at hvalue
    split at hvalue <;> simp at hvalue
  have hspec (id : NodeId) := valueAt_spec hcontents (mostRounds * (contents.size + 1)) [] id
  unfold valueOf
  dsimp only
  split
  · rename_i entries hroot
    -- the entries of the outermost mapping are values by themselves
    obtain ⟨values, known, hrun, -, hvalues⟩ := exists_run_mapM_forall₂ (p := AreValues contents)
      (R := AreEntriesOf contents) (f := fun nodes => do
        let first ← Prod.fst <$> valueAt contents (mostRounds * (contents.size + 1)) [] nodes.1
        let second ← Prod.fst <$> valueAt contents (mostRounds * (contents.size + 1)) [] nodes.2
        return (first, second))
      (fun nodes known hknown => by
        obtain ⟨hfirst, hknown₁⟩ := hspec nodes.1 known hknown
        obtain ⟨hsecond, hknown₂⟩ := hspec nodes.2 _ hknown₁
        exact ⟨_, _, rfl, hknown₂, hfirst, hsecond⟩)
      entries hstart
    refine (congrArg (fun r : Value × Known => r.1.NamesOnce) (run_bind_of_eq hrun)).mpr ?_
    exact namesOnce_map (hcontents.mapping hroot) hvalues
  · exact (hspec root _ hstart).1.namesOnce

/-- No value that is read has a mapping with a name twice, wherever one looks into it. -/
theorem namesOnce_of_read {text : String} {value : Value} (h : read text = .ok value) :
    value.NamesOnce := by
  unfold read at h
  obtain ⟨document?, -, h⟩ := bind_eq_ok h
  cases document? with
  | none =>
      obtain rfl := Except.ok.inj h
      exact .of_no_entries rfl
  | some document =>
      obtain ⟨contents, hcontents, h⟩ := bind_eq_ok h
      obtain rfl := Except.ok.inj h
      exact valueOf_spec (contents_spec hcontents) document.root

end Yaml

/-- Metadata have no name twice, and neither has any mapping in them. -/
theorem Metadata.namesOnce_of_parse {text : String} {metadata : Entries}
    (h : parse text = .ok metadata) : (Value.map metadata).NamesOnce := by
  unfold parse at h
  split at h
  · rename_i entries hread
    obtain rfl := Except.ok.inj h
    exact Yaml.namesOnce_of_read hread
  all_goals cases h

end PackageScaffold
