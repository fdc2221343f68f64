import PackageScaffold.Proofs.Template.Scopes
import PackageScaffold.Proofs.Yaml.Document

/-!
# Keys that are written twice

However a document is written, no mapping that is read from it has two keys with the same text.  A
key that comes again is bound in its first place, and what a node holds as a key never changes once
the node has been come across.

* `Builder.Sound`: what is known while nodes are carried out, and `Builder.Extends`: what is kept of it;
* `build_spec`, `bindEntry_spec`, `fill_spec`: each step keeps this up;
* `contents_spec`: the same for all nodes of a document.
-/

namespace PackageScaffold.Yaml

/-- The text that a node holds, if it is one. -/
def Content.name? : Content → Option String
  | .plain (.text name) => some name
  | _ => none

theorem Content.name?_eq_some_iff {content : Content} {name : String} :
    content.name? = some name ↔ content = .plain (.text name) := by
  constructor
  · intro h
    unfold name? at h
    split at h
    · rw [Option.some.inj h]
    · cases h
  · rintro rfl
    rfl

/-- The text that a node is known to hold. -/
def nameAt (contents : Array (Option Content)) (id : NodeId) : Option String :=
  (contents.getD id none).bind Content.name?

/-! ## Values without entries -/

theorem entries?_of_valueOfText {tag : Tag} {text : String} {value : Value}
    (h : valueOfText tag text = .ok value) : value.entries? = none := by
  cases tag with
  | moment =>
      rw [valueOfText, readMomentValue] at h
      split at h
      · cases h
      · split at h
        · obtain rfl := Except.ok.inj h
          rfl
        · cases h
      · split at h
        · obtain rfl := Except.ok.inj h
          rfl
        · cases h
  | bool | int | float | bytes =>
      obtain ⟨_, -, h⟩ := bind_eq_ok h
      obtain rfl := Except.ok.inj h
      rfl
  | null | text =>
      obtain rfl := Except.ok.inj h
      rfl
  | _ => cases h

theorem entries?_of_valueOfWording {tag : Tag} {wording : Text.Wording} {value : Value}
    (h : valueOfWording tag wording = .ok value) : value.entries? = none := by
  cases wording with
  | text text => exact entries?_of_valueOfText h
  | broken codes =>
      cases tag with
      | null | text =>
          obtain rfl := Except.ok.inj h
          rfl
      | _ => first | exact entries?_of_valueOfText h | cases h

/-- A node that is no collection holds a value without entries, or the number that is none. -/
theorem Graph.written_cases {g : Graph} {id : NodeId} {content : Content}
    (h : g.written id = .ok content) :
    content = .noNumber ∨ ∃ value, content = .plain value ∧ value.entries? = none := by
  have hplain {x : Except Fault Value} (h : (do return .plain (← x)) = Except.ok content)
      (hx : ∀ value, x = .ok value → value.entries? = none) :
      ∃ value, content = .plain value ∧ value.entries? = none := by
    obtain ⟨value, hvalue, h⟩ := bind_eq_ok h
    exact ⟨value, (Except.ok.inj h).symm, hx value hvalue⟩
  unfold written at h
  dsimp only at h
  split at h
  · exact .inr (hplain h fun _ => entries?_of_valueOfText)
  · obtain ⟨wording, -, h⟩ := bind_eq_ok h
    split at h
    · cases h
    · split at h
      · exact .inl (Except.ok.inj h).symm
      · exact .inr (hplain h fun _ => entries?_of_valueOfText)
    · exact .inr (hplain h fun _ => entries?_of_valueOfWording)

namespace Builder

variable {b b' b'' : Builder} {id : NodeId} {content : Content} {keys : List NodeId}

/-! ## What is known of keys -/

/-- What a node holds is known, and can be a key; or there is no such node. -/
def Settles (b : Builder) (id : NodeId) : Prop :=
  b.contents.size ≤ id ∨ ∃ content, b.content? id = some content ∧ content.isKey = true

/-- The keys of a mapping: what each of them holds is known, and no text is there twice. -/
structure Distinct (b : Builder) (keys : List NodeId) : Prop where
  settled : ∀ key ∈ keys, b.Settles key
  nodup : (keys.filterMap (nameAt b.contents)).Nodup

/-- What is known is in order: values have no entries, no collection is a key, and the keys of every
mapping are distinct. -/
structure Sound (b : Builder) : Prop where
  plain : ∀ {id value}, b.content? id = some (.plain value) → value.entries? = none
  listed : ∀ id ∈ b.collections.toList,
    b.contents.size ≤ id ∨ ∃ content, b.content? id = some content ∧ content.isKey = false
  mapping : ∀ {id entries}, b.content? id = some (.map entries) → b.Distinct (entries.map Prod.fst)

/-- Whatever was known of keys is still known, and what waited for its turn is still listed. -/
structure Extends (b b' : Builder) : Prop where
  size : b'.contents.size = b.contents.size
  keys : ∀ {id content}, b.content? id = some content → content.isKey = true →
    b'.content? id = some content
  listed : b.collections.toList ⊆ b'.collections.toList

theorem Extends.refl (b : Builder) : b.Extends b :=
  ⟨rfl, fun h _ => h, List.Subset.refl _⟩

theorem Extends.trans (h : b.Extends b') (h' : b'.Extends b'') : b.Extends b'' :=
  ⟨h'.size.trans h.size, fun hknown hkey => h'.keys (h.keys hknown hkey) hkey,
    List.Subset.trans h.listed h'.listed⟩

theorem content?_of_size_le (h : b.contents.size ≤ id) : b.content? id = none := by
  rw [content?, Array.getD_eq_getD_getElem?, Array.getElem?_eq_none h]
  rfl

theorem nameAt_contents (b : Builder) (id : NodeId) :
    nameAt b.contents id = (b.content? id).bind Content.name? := rfl

theorem Extends.settles (h : b.Extends b') (hid : b.Settles id) :
    b'.Settles id ∧ nameAt b'.contents id = nameAt b.contents id := by
  rcases hid with hsize | ⟨content, hknown, hkey⟩
  · have hsize' : b'.contents.size ≤ id := by rwa [h.size]
    refine ⟨.inl hsize', ?_⟩
    rw [nameAt_contents, nameAt_contents, content?_of_size_le hsize, content?_of_size_le hsize']
  · have hknown' := h.keys hknown hkey
    refine ⟨.inr ⟨content, hknown', hkey⟩, ?_⟩
    rw [nameAt_contents, nameAt_contents, hknown, hknown']

/-- Keys that are distinct stay so. -/
theorem Extends.distinct (h : b.Extends b') (hkeys : b.Distinct keys) : b'.Distinct keys where
  settled key hkey := (h.settles (hkeys.settled key hkey)).1
  nodup := by
    rw [List.filterMap_congr fun key hkey => (h.settles (hkeys.settled key hkey)).2]
    exact hkeys.nodup

/-! ## Noting what a node holds -/

theorem content?_set_eq (b : Builder) (id : NodeId) (content : Content) (other : NodeId) :
    (b.set id content).content? other =
      if other = id ∧ id < b.contents.size then some content else b.content? other := by
  by_cases hin : id < b.contents.size
  · simp [content?_set hin, hin]
  · rw [if_neg (fun h => hin h.2), content?, content?, set, Array.setIfInBounds, dif_neg hin]

theorem content?_set_self (b : Builder) (id : NodeId) (content : Content) :
    (b.set id content).contents.size ≤ id ∨ (b.set id content).content? id = some content := by
  rw [size_contents_set, content?_set_eq]
  by_cases hin : id < b.contents.size
  · exact .inr (if_pos ⟨rfl, hin⟩)
  · exact .inl (Nat.le_of_not_lt hin)

/-- A node that held no key can come to hold something else. -/
theorem Sound.set (hb : b.Sound) (hold : ∀ old, b.content? id = some old → old.isKey = false)
    (hplain : ∀ value, content = .plain value → value.entries? = none)
    (hlisted : id ∈ b.collections.toList → b.contents.size ≤ id ∨ content.isKey = false)
    (hmapping : ∀ entries, content = .map entries → b.Distinct (entries.map Prod.fst)) :
    (b.set id content).Sound ∧ b.Extends (b.set id content) := by
  have hextends : b.Extends (b.set id content) := by
    refine ⟨size_contents_set id content b, fun {other old} hknown hkey => ?_, List.Subset.refl _⟩
    rw [content?_set_eq, if_neg]
    · exact hknown
    · rintro ⟨rfl, -⟩
      rw [hold old hknown] at hkey
      exact Bool.noConfusion hkey
  refine ⟨⟨fun {other value} hknown => ?_, fun other hother => ?_,
    fun {other entries} hknown => ?_⟩,
    hextends⟩
  · rw [content?_set_eq] at hknown
    split at hknown
    · exact hplain value (Option.some.inj hknown)
    · exact hb.plain hknown
  · rw [size_contents_set, content?_set_eq]
    by_cases hsame : other = id ∧ id < b.contents.size
    · obtain ⟨rfl, hin⟩ := hsame
      rw [if_pos ⟨rfl, hin⟩]
      exact .inr ⟨content, rfl, (hlisted hother).resolve_left (Nat.not_le_of_lt hin)⟩
    · rw [if_neg hsame]
      exact hb.listed other hother
  · rw [content?_set_eq] at hknown
    split at hknown
    · exact hextends.distinct (hmapping entries (Option.some.inj hknown))
    · exact hextends.distinct (hb.mapping hknown)

/-! ## Binding a key -/

/-- A key that is bound already is bound in its place. -/
theorem map_fst_put (b : Builder) (key value : NodeId) (bound : List (NodeId × NodeId)) :
    (b.put key value bound).map Prod.fst = bound.map Prod.fst ∨
      ∀ entry ∈ bound, b.sameKey entry.1 key = false := by
  induction bound with
  | nil => exact .inr (List.forall_mem_nil _)
  | cons entry bound ih =>
      rw [put]
      split
      · exact .inl rfl
      · rename_i hother
        refine ih.imp (fun h => ?_) fun h => List.forall_mem_cons.mpr ⟨by simpa using hother, h⟩
        rw [List.map_cons, List.map_cons, h]

/-- Nodes that hold the same text are the same key. -/
theorem sameKey_of_nameAt {first second : NodeId} {name : String}
    (h : nameAt b.contents first = some name) (h' : nameAt b.contents second = some name) :
    b.sameKey first second = true := by
  obtain ⟨content, hknown, hname⟩ := Option.bind_eq_some_iff.mp h
  obtain ⟨content', hknown', hname'⟩ := Option.bind_eq_some_iff.mp h'
  obtain rfl := Content.name?_eq_some_iff.mp hname
  obtain rfl := Content.name?_eq_some_iff.mp hname'
  change b.content? first = _ at hknown
  change b.content? second = _ at hknown'
  simp [sameKey, hknown, hknown', Value.sameKey]

/-- However often a key is bound, the keys are distinct. -/
theorem Distinct.put {bound : List (NodeId × NodeId)} (h : b.Distinct (bound.map Prod.fst))
    {key : NodeId} (hkey : b.Settles key) (value : NodeId) :
    b.Distinct ((b.put key value bound).map Prod.fst) := by
  rcases b.map_fst_put key value bound with hsame | hnew
  · rwa [hsame]
  · rw [put_of_new hnew, List.map_append]
    refine ⟨fun other hother => ?_, ?_⟩
    · rcases List.mem_append.mp hother with hmem | hmem
      · exact h.settled other hmem
      · obtain rfl : other = key := by simpa using hmem
        exact hkey
    · rw [List.filterMap_append]
      refine List.nodup_append.mpr ⟨h.nodup, ?_, ?_⟩
      · simp only [List.map_cons, List.map_nil, List.filterMap_cons, List.filterMap_nil]
        split <;> simp
      · rintro name hname other hother rfl
        obtain ⟨bearer, hbearer, hfirst⟩ := List.mem_filterMap.mp hname
        obtain ⟨entry, hentry, rfl⟩ := List.mem_map.mp hbearer
        have hsecond : nameAt b.contents key = some name := by simpa using hother
        have hother := hnew entry hentry
        rw [sameKey_of_nameAt hfirst hsecond] at hother
        exact Bool.noConfusion hother

end Builder

open Builder

variable {b b' : Builder}

/-! ## Steps that come to a result -/

theorem exists_of_run_bind {α β : Type} {x : Building α} {f : α → Building β} {r : β}
    (h : (x >>= f).run b = .ok (r, b')) :
    ∃ a middle, x.run b = .ok (a, middle) ∧ (f a).run middle = .ok (r, b') := by
  rw [StateT.run_bind] at h
  obtain ⟨⟨a, middle⟩, hfirst, hrest⟩ := bind_eq_ok h
  exact ⟨a, middle, hfirst, hrest⟩

theorem run_get_bind {β : Type} (f : Builder → Building β) (b : Builder) :
    (get >>= f).run b = (f b).run b := rfl

theorem eq_ok_of_run_lift {α : Type} {x : Except Fault α} {a : α}
    (h : (StateT.lift x : Building α).run b = .ok (a, b')) : x = .ok a ∧ b = b' := by
  obtain ⟨a', hx, hsame⟩ := bind_eq_ok ((StateT.run_lift ..).symm.trans h)
  obtain ⟨rfl, rfl⟩ := Prod.mk.inj (Except.ok.inj hsame)
  exact ⟨hx, rfl⟩

/-! ## Carrying out a node -/

theorem Tag.isKey_of_emptyContent? {tag : Tag} {content : Content}
    (h : tag.emptyContent? = some content) : content.isKey = false := by
  unfold emptyContent? at h
  split at h <;> cases h <;> rfl

theorem Tag.eq_nil_of_emptyContent? {tag : Tag} {entries : List (NodeId × NodeId)}
    (h : tag.emptyContent? = some (.map entries)) : entries = [] := by
  unfold emptyContent? at h
  split at h <;> cases h
  rfl

theorem Builder.Distinct.nil (b : Builder) : b.Distinct [] :=
  ⟨List.forall_mem_nil _, List.nodup_nil⟩

/-- A node that is carried out is known from then on. -/
theorem build_spec {id : NodeId} {content : Content} (hb : b.Sound)
    (h : (build id).run b = .ok (content, b')) :
    b'.Sound ∧ b.Extends b' ∧ (content.isKey = true → b'.Settles id) := by
  rw [build, run_get_bind] at h
  cases hknown : b.content? id with
  | some known =>
      rw [hknown] at h
      obtain ⟨rfl, rfl⟩ := Prod.mk.inj (Except.ok.inj h)
      exact ⟨hb, .refl b, fun hkey => .inr ⟨known, hknown, hkey⟩⟩
  | none =>
      have hold : ∀ old, b.content? id = some old → old.isKey = false := by simp [hknown]
      -- a collection that waits for its turn is known, unless there is no such node
      have hlisted : id ∈ b.collections.toList → b.contents.size ≤ id := by
        intro hmem
        refine (hb.listed id hmem).resolve_right ?_
        simp [hknown]
      rw [hknown] at h
      cases hempty : (b.graph.node id).tag.emptyContent? with
      | some empty =>
          simp only [hempty] at h
          obtain ⟨rfl, rfl⟩ := Prod.mk.inj (Except.ok.inj h)
          have hkey := Tag.isKey_of_emptyContent? hempty
          obtain ⟨hset, hextends⟩ : (b.set id empty).Sound ∧ b.Extends (b.set id empty) :=
            hb.set hold (by rintro value rfl; cases hkey) (fun _ => .inr hkey)
              (by rintro entries rfl; rw [Tag.eq_nil_of_emptyContent? hempty]; exact .nil b)
          refine ⟨⟨hset.plain, fun other hother => ?_, fun hmap => ?_⟩,
            ⟨hextends.size, hextends.keys, ?_⟩, by simp [hkey]⟩
          · rw [Array.toList_push, List.mem_append, List.mem_singleton] at hother
            rcases hother with hother | rfl
            · exact hset.listed other hother
            · exact (b.content?_set_self other empty).imp_right fun hknown => ⟨empty, hknown, hkey⟩
          · exact ⟨(hset.mapping hmap).settled, (hset.mapping hmap).nodup⟩
          · simp
      | none =>
          simp only [hempty] at h
          obtain ⟨written, b₁, hlift, h⟩ := exists_of_run_bind h
          obtain ⟨hwritten, rfl⟩ := eq_ok_of_run_lift hlift
          obtain ⟨rfl, rfl⟩ := Prod.mk.inj (Except.ok.inj h)
          have hscalar : written.isKey = true ∧
              (∀ value, written = .plain value → value.entries? = none) ∧
              ∀ entries, written ≠ .map entries := by
            rcases Graph.written_cases hwritten with rfl | ⟨value, rfl, hentries⟩
            · exact ⟨rfl, by simp, by simp⟩
            · refine ⟨rfl, ?_, by simp⟩
              rintro _ ⟨⟩
              exact hentries
          obtain ⟨hkey, hplain, hmap⟩ := hscalar
          obtain ⟨hset, hextends⟩ := hb.set hold hplain (fun hmem => .inl (hlisted hmem))
            fun entries heq => absurd heq (hmap entries)
          exact ⟨hset, hextends, fun _ =>
            (b.content?_set_self id written).imp_right fun hknown => ⟨written, hknown, hkey⟩⟩

/-- A step of carrying out that leaves what is known in order, and keys as they are. -/
def Preserves {α : Type} (x : Building α) : Prop :=
  ∀ b a b', x.run b = .ok (a, b') → b.Sound → b'.Sound ∧ b.Extends b'

namespace Preserves

variable {α β : Type}

theorem pure (a : α) : Preserves (Pure.pure a : Building α) := by
  rintro b a b' h hb
  obtain ⟨-, rfl⟩ := Prod.mk.inj (Except.ok.inj h)
  exact ⟨hb, .refl b⟩

theorem bind {x : Building α} {f : α → Building β} (hx : Preserves x) (hf : ∀ a, Preserves (f a)) :
    Preserves (x >>= f) := by
  intro b r b'' h hb
  obtain ⟨a, b', hfirst, hrest⟩ := exists_of_run_bind h
  obtain ⟨hb', hextends⟩ := hx b a b' hfirst hb
  obtain ⟨hb'', hextends'⟩ := hf a b' r b'' hrest hb'
  exact ⟨hb'', hextends.trans hextends'⟩

theorem discard {x : Building α} (hx : Preserves x) : Preserves (Functor.discard x) := by
  intro b u b' h hb
  have hmap : (x.run b).map (fun r => (PUnit.unit, r.2)) = .ok (u, b') := h
  obtain ⟨⟨a, b₁⟩, hrun, hsame⟩ := map_eq_ok hmap
  obtain ⟨-, rfl⟩ := Prod.mk.inj hsame
  exact hx b a b₁ hrun hb

end Preserves

theorem preserves_build (id : NodeId) : Preserves (build id) :=
  fun _ _ _ h hb => ⟨(build_spec hb h).1, (build_spec hb h).2.1⟩

theorem preserves_forM {α : Type} {f : α → Building PUnit} (xs : List α)
    (h : ∀ x, Preserves (f x)) :
    Preserves (xs.forM f) := by
  induction xs with
  | nil => exact .pure _
  | cons x xs ih => exact .bind (h x) fun _ => ih

theorem preserves_mapM {α β : Type} {f : α → Building β} (xs : List α) (h : ∀ x, Preserves (f x)) :
    Preserves (xs.mapM f) := by
  induction xs with
  | nil => exact .pure _
  | cons x xs ih =>
      rw [List.mapM_cons]
      exact .bind (h x) fun _ => .bind ih fun _ => .pure _

theorem preserves_buildPair (id : NodeId) : Preserves (buildPair id) := by
  intro b a b' h hb
  rw [buildPair, run_get_bind] at h
  split at h
  · rename_i key value hbody
    exact (Preserves.bind (preserves_build key).discard fun _ =>
      .bind (preserves_build value).discard fun _ => .pure (key, value)) b a b' h hb
  · cases h

/-! ## Filling a collection -/

/-- An entry that is bound leaves the keys distinct. -/
theorem bindEntry_spec {bound bound' : List (NodeId × NodeId)} {entry : NodeId × NodeId}
    (hb : b.Sound)
    (hbound : b.Distinct (bound.map Prod.fst))
    (h : (bindEntry bound entry).run b = .ok (bound', b')) :
    b'.Sound ∧ b.Extends b' ∧ b'.Distinct (bound'.map Prod.fst) := by
  rw [bindEntry] at h
  obtain ⟨content, b₁, hkey, h⟩ := exists_of_run_bind h
  obtain ⟨hb₁, hextends₁, hsettles⟩ := build_spec hb hkey
  cases hcontent : content.isKey with
  | false =>
      simp only [hcontent] at h
      cases h
  | true =>
      simp only [hcontent] at h
      obtain ⟨_, b₂, hvalue, h⟩ := exists_of_run_bind h
      obtain ⟨rfl, rfl⟩ := Prod.mk.inj (Except.ok.inj h)
      obtain ⟨hb₂, hextends₂⟩ := (preserves_build entry.2).discard b₁ _ b₂ hvalue hb₁
      have hextends := hextends₁.trans hextends₂
      exact ⟨hb₂, hextends,
        (hextends.distinct hbound).put (hextends₂.settles (hsettles hcontent)).1 entry.2⟩

theorem foldlM_bindEntry_spec {entries bound bound' : List (NodeId × NodeId)} (hb : b.Sound)
    (hbound : b.Distinct (bound.map Prod.fst))
    (h : (entries.foldlM bindEntry bound).run b = .ok (bound', b')) :
    b'.Sound ∧ b.Extends b' ∧ b'.Distinct (bound'.map Prod.fst) := by
  induction entries generalizing bound b with
  | nil =>
      obtain ⟨rfl, rfl⟩ := Prod.mk.inj (Except.ok.inj h)
      exact ⟨hb, .refl b, hbound⟩
  | cons entry entries ih =>
      rw [List.foldlM_cons] at h
      obtain ⟨middle, b₁, hfirst, hrest⟩ := exists_of_run_bind h
      obtain ⟨hb₁, hextends₁, hmiddle⟩ := bindEntry_spec hb hbound hfirst
      obtain ⟨hb', hextends, hbound'⟩ := ih hb₁ hmiddle hrest
      exact ⟨hb', hextends₁.trans hextends, hbound'⟩

/-- The keys of a mapping are distinct, whatever is merged into it. -/
theorem buildMapping_spec {count : Nat} {id : NodeId} {entries : List (NodeId × NodeId)}
    (hb : b.Sound)
    (h : (buildMapping count id).run b = .ok (entries, b')) :
    b'.Sound ∧ b.Extends b' ∧ b'.Distinct (entries.map Prod.fst) := by
  rw [buildMapping, run_get_bind] at h
  obtain ⟨merged, b₁, hlift, h⟩ := exists_of_run_bind h
  obtain ⟨-, rfl⟩ := eq_ok_of_run_lift hlift
  obtain ⟨_, b₂, hmodify, h⟩ := exists_of_run_bind h
  obtain ⟨-, rfl⟩ := Prod.mk.inj (Except.ok.inj hmodify)
  -- what is known does not depend on the graph
  have hmerged : ({ b with graph := merged } : Builder).Sound :=
    ⟨hb.plain, hb.listed, fun hmap => ⟨(hb.mapping hmap).settled, (hb.mapping hmap).nodup⟩⟩
  rw [buildEntries_eq] at h
  obtain ⟨hb', hextends, hentries⟩ := foldlM_bindEntry_spec hmerged (.nil _) h
  exact ⟨hb', ⟨hextends.size, hextends.keys, hextends.listed⟩, hentries⟩

/-- A collection is no key, so it can be filled. -/
theorem Builder.Sound.fill {id : NodeId} {content : Content} (hb : b.Sound)
    (hlisted : id ∈ b.collections.toList) (hkey : content.isKey = false)
    (hmapping : ∀ entries, content = .map entries → b.Distinct (entries.map Prod.fst)) :
    (b.set id content).Sound ∧ b.Extends (b.set id content) := by
  refine hb.set (fun old hknown => ?_) (by rintro value rfl; cases hkey) (fun _ => .inr hkey)
    hmapping
  rcases hb.listed id hlisted with hsize | ⟨content, hknown', hwaits⟩
  · rw [content?_of_size_le hsize] at hknown
    cases hknown
  · rwa [Option.some.inj (hknown.symm.trans hknown')]

/-- Filling a collection leaves what is known in order, and keys as they are. -/
theorem fill_spec {count : Nat} {id : NodeId} {u : Unit} (hb : b.Sound)
    (hlisted : id ∈ b.collections.toList) (h : (fill count id).run b = .ok (u, b')) :
    b'.Sound ∧ b.Extends b' := by
  have hfilled {b₁ : Builder} {content : Content} (hinside : b₁.Sound ∧ b.Extends b₁)
      (hkey : content.isKey = false)
      (hmapping : ∀ entries, content = .map entries → b₁.Distinct (entries.map Prod.fst)) :
      (b₁.set id content).Sound ∧ b.Extends (b₁.set id content) := by
    obtain ⟨hb₁, hextends⟩ := hinside
    obtain ⟨hset, hextends'⟩ := hb₁.fill (hextends.listed hlisted) hkey hmapping
    exact ⟨hset, hextends.trans hextends'⟩
  rw [fill, run_get_bind] at h
  dsimp only at h
  -- the inside of the collection is carried out first, and then noted
  split at h
  · obtain ⟨_, b₁, hitems, h⟩ := exists_of_run_bind h
    obtain ⟨-, rfl⟩ := Prod.mk.inj (Except.ok.inj h)
    exact hfilled (preserves_forM _ (fun item => (preserves_build item).discard) _ _ _ hitems hb)
      rfl
      (by simp)
  · obtain ⟨_, b₁, hitems, h⟩ := exists_of_run_bind h
    obtain ⟨-, rfl⟩ := Prod.mk.inj (Except.ok.inj h)
    exact hfilled (preserves_mapM _ preserves_buildPair _ _ _ hitems hb) rfl (by simp)
  · obtain ⟨_, b₁, hitems, h⟩ := exists_of_run_bind h
    obtain ⟨-, rfl⟩ := Prod.mk.inj (Except.ok.inj h)
    exact hfilled (preserves_mapM _ preserves_buildPair _ _ _ hitems hb) rfl (by simp)
  · obtain ⟨entries, b₁, hentries, h⟩ := exists_of_run_bind h
    obtain ⟨-, rfl⟩ := Prod.mk.inj (Except.ok.inj h)
    obtain ⟨hb₁, hextends, hdistinct⟩ := buildMapping_spec hb hentries
    refine hfilled ⟨hb₁, hextends⟩ rfl ?_
    rintro _ ⟨⟩
    exact hdistinct
  · obtain ⟨entries, b₁, hentries, h⟩ := exists_of_run_bind h
    obtain ⟨-, rfl⟩ := Prod.mk.inj (Except.ok.inj h)
    obtain ⟨hb₁, hextends, -⟩ := buildMapping_spec hb hentries
    exact hfilled ⟨hb₁, hextends⟩ rfl (by simp)
  · cases h

theorem preserves_fillFrom (count fuel index : Nat) : Preserves (fillFrom count fuel index) := by
  induction fuel generalizing index with
  | zero => exact .pure _
  | succ fuel ih =>
      intro b u b' h hb
      rw [fillFrom, run_get_bind] at h
      cases hturn : b.collections[index]? with
      | none =>
          rw [hturn] at h
          exact Preserves.pure () b u b' h hb
      | some id =>
          rw [hturn] at h
          obtain ⟨_, b₁, hfill, hrest⟩ := exists_of_run_bind h
          have hlisted : id ∈ b.collections.toList := by
            obtain ⟨hindex, rfl⟩ := Array.getElem?_eq_some_iff.mp hturn
            simp
          obtain ⟨hb₁, hextends⟩ := fill_spec hb hlisted hfill
          obtain ⟨hb', hextends'⟩ := ih (index + 1) b₁ u b' hrest hb₁
          exact ⟨hb', hextends.trans hextends'⟩

/-! ## All nodes -/

/-- What nodes hold is in order: values have no entries, and no mapping has a text twice among its
keys. -/
structure AreDistinct (contents : Array (Option Content)) : Prop where
  plain : ∀ {id value}, contents.getD id none = some (.plain value) → value.entries? = none
  mapping : ∀ {id entries}, contents.getD id none = some (.map entries) →
    ((entries.map Prod.fst).filterMap (nameAt contents)).Nodup

/-- Whatever a document is, no mapping in it has a text twice among its keys. -/
theorem contents_spec {d : Document} {contents : Array (Option Content)}
    (h : d.contents = .ok contents) : AreDistinct contents := by
  obtain ⟨⟨u, b⟩, hrun, h⟩ := bind_eq_ok h
  obtain rfl := Except.ok.inj h
  have hnone (id : NodeId) :
      (Array.replicate d.graph.nodes.size (none : Option Content)).getD id none = none := by
    rw [Array.getD_eq_getD_getElem?, Array.getElem?_replicate]
    split <;> rfl
  have hstart : ({ graph := d.graph
                   contents := Array.replicate d.graph.nodes.size none } : Builder).Sound := by
    refine ⟨fun hknown => ?_, by simp, fun hknown => ?_⟩
    · rw [content?, hnone] at hknown
      cases hknown
    · rw [content?, hnone] at hknown
      cases hknown
  have hpreserves : Preserves (do
      discard (build d.root)
      fillFrom d.graph.entryCount d.graph.nodes.size 0) :=
    .bind (preserves_build d.root).discard fun _ => preserves_fillFrom _ _ _
  obtain ⟨hb, -⟩ := hpreserves _ _ _ hrun hstart
  exact ⟨hb.plain, fun hmap => (hb.mapping hmap).nodup⟩

end PackageScaffold.Yaml
