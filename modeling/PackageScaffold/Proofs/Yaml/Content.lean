import Mathlib.Data.List.Perm.Subperm
import Mathlib.Data.List.TakeWhile
import PackageScaffold.Proofs.Except
import PackageScaffold.Yaml.Content

/-!
# What the nodes of a document hold

Nodes are carried out one after the other, and collections wait for their turn, empty.  In a graph
without tags of its own, what a node holds in the end can be read off the node itself.

* `Node.Holds`, `Graph.Describes`: what a node holds, and what the nodes of a graph hold;
* `Builder.Agrees`: what is known once some of the collections are filled;
* `Graph.Describes.contents_eq`: what is known once all of them are.
-/

namespace PackageScaffold.Yaml

/-! ## What nodes hold -/

/-- The nodes that a content is made of. -/
def Content.children : Content → List NodeId
  | .plain _ | .noNumber => []
  | .list items => items
  | .pairs items | .map items => items.flatMap fun item => [item.1, item.2]
  | .set members => members

/-- What a node holds: a scalar its value, a list its items and a mapping its entries. -/
inductive Node.Holds : Node → Content → Prop
  | scalar {tag : Tag} {text : String} {value : Value} (hwritten : tag.isWritten = true)
    (hfloat : tag ≠ .float) (hvalue : valueOfText tag text = .ok value) :
    Holds ⟨tag, .text (.text text)⟩ (.plain value)
  | list (items : List NodeId) : Holds ⟨.list, .list items⟩ (.list items)
  | mapping (entries : List (NodeId × NodeId)) : Holds ⟨.mapping, .mapping entries⟩ (.map entries)

/-- The text that a node holds, if it is one. -/
def textAt (held : List Content) (id : NodeId) : Option String :=
  match held[id]? with
  | some (.plain (.text text)) => some text
  | _ => none

/-- The nodes of a graph hold the given contents.  The first node is the outermost one, every other
node is in one in front of it, and the keys of a mapping are distinct texts. -/
structure Graph.Describes (g : Graph) (held : List Content) : Prop where
  size : g.nodes.size = held.length
  node : ∀ (id : NodeId) (content : Content), held[id]? = some content → (g.node id).Holds content
  inner : ∀ (id : NodeId) (content : Content), held[id]? = some content →
    ∀ child ∈ content.children, child < held.length
  outer : ∀ id < held.length, id ≠ 0 → ∃ around < id, ∃ content : Content,
    held[around]? = some content ∧ id ∈ content.children
  keys : ∀ (id : NodeId) (entries : List (NodeId × NodeId)), held[id]? = some (.map entries) →
    (∀ entry ∈ entries, (g.node entry.1).tag = .text) ∧
      (entries.map fun entry => textAt held entry.1).Nodup

variable {g : Graph} {held : List Content}

namespace Node.Holds

variable {node : Node} {content : Content}

/-- A node without a place for others holds none. -/
theorem children_eq_nil (h : node.Holds content) (hempty : node.tag.emptyContent? = none) :
    content.children = [] := by
  cases h with
  | scalar => rfl
  | list items => simp [Tag.emptyContent?] at hempty
  | mapping entries => simp [Tag.emptyContent?] at hempty

/-- A scalar is carried out by itself. -/
theorem written_eq (id : NodeId) (h : (g.node id).Holds content)
    (hempty : (g.node id).tag.emptyContent? = none) : g.written id = .ok content := by
  generalize hnode : g.node id = node at h hempty
  cases h with
  | @scalar tag text value hwritten hfloat hvalue =>
      have hwording : g.wording (g.nodes.size + 1) id = .ok (.text text) := by
        rw [Graph.wording, hnode]
      rw [Graph.written]
      simp only [hnode, hwritten, Bool.not_true, Bool.false_eq_true, if_false, hwording, bind,
        Except.bind, pure, Except.pure]
      cases tag <;> simp_all [valueOfWording]
  | list items => simp [Tag.emptyContent?] at hempty
  | mapping entries => simp [Tag.emptyContent?] at hempty

theorem eq_text (h : node.Holds content) (htag : node.tag = .text) :
    ∃ text, content = .plain (.text text) := by
  cases h with
  | @scalar tag text value hwritten hfloat hvalue =>
      obtain rfl : tag = .text := htag
      exact ⟨text, congrArg Content.plain (Except.ok.inj hvalue).symm⟩
  | list items => simp at htag
  | mapping entries => simp at htag

end Node.Holds

/-! ## What is known -/

namespace Builder

@[simp] theorem graph_set (id : NodeId) (content : Content) (b : Builder) :
    (b.set id content).graph = b.graph := rfl

@[simp] theorem collections_set (id : NodeId) (content : Content) (b : Builder) :
    (b.set id content).collections = b.collections := rfl

@[simp] theorem size_contents_set (id : NodeId) (content : Content) (b : Builder) :
    (b.set id content).contents.size = b.contents.size := by
  simp [set]

theorem content?_set {id : NodeId} {b : Builder} (h : id < b.contents.size) (content : Content)
    (other : NodeId) :
    (b.set id content).content? other = if other = id then some content else b.content? other := by
  unfold content? set
  rw [Array.getD_eq_getD_getElem?, Array.getElem?_setIfInBounds, Array.getD_eq_getD_getElem?]
  by_cases hid : other = id
  · simp [hid, h]
  · rw [if_neg (Ne.symm hid), if_neg hid]

/-- What is known of a node: what it holds, unless it is a collection that waits for its turn. -/
def Expects (g : Graph) (held : List Content) (filled : Nat) (b : Builder) (id : NodeId)
    (content : Content) : Prop :=
  if id ∈ b.collections.toList.drop filled then (g.node id).tag.emptyContent? = some content
  else held[id]? = some content

/-- What is known once the first `filled` collections that were come across are filled. -/
structure Agrees (g : Graph) (held : List Content) (filled : Nat) (b : Builder) : Prop where
  graph : b.graph = g
  size : b.contents.size = held.length
  nodup : b.collections.toList.Nodup
  filled_le : filled ≤ b.collections.size
  known : ∀ (id : NodeId) (content : Content), b.content? id = some content →
    b.Expects g held filled id content ∧
      ((g.node id).tag.emptyContent? = none ∨ id ∈ b.collections.toList)
  /-- Collections are known. -/
  listed : ∀ id ∈ b.collections.toList, id < held.length ∧ b.content? id ≠ none
  /-- What filled collections are made of is known. -/
  inside : ∀ id ∈ b.collections.toList.take filled, ∀ content : Content, held[id]? = some content →
    ∀ child ∈ content.children, b.content? child ≠ none

/-- More is known than before. -/
structure Grows (b b' : Builder) : Prop where
  content : ∀ (id : NodeId) (content : Content), b.content? id = some content →
    b'.content? id = some content
  collections : b.collections.toList <+: b'.collections.toList

theorem Grows.refl (b : Builder) : b.Grows b := ⟨fun _ _ h => h, List.prefix_rfl⟩

theorem Grows.trans {b₀ b₁ b₂ : Builder} (h : b₀.Grows b₁) (h' : b₁.Grows b₂) : b₀.Grows b₂ :=
  ⟨fun id content hcontent => h'.content id content (h.content id content hcontent),
    h.collections.trans h'.collections⟩

theorem Grows.ne_none {b b' : Builder} (h : b.Grows b') {id : NodeId}
    (hknown : b.content? id ≠ none) :
    b'.content? id ≠ none := by
  obtain ⟨content, hcontent⟩ := Option.ne_none_iff_exists'.mp hknown
  rw [h.content id content hcontent]
  simp

end Builder

/-! ## Carrying out a node -/

namespace Builder.Agrees

variable {filled : Nat} {b : Builder}

/-- A scalar that is come across is carried out. -/
theorem set_scalar (hb : b.Agrees g held filled) {id : NodeId} {content : Content}
    (hnone : b.content? id = none) (hheld : held[id]? = some content)
    (hempty : (g.node id).tag.emptyContent? = none) :
    (b.set id content).Agrees g held filled ∧ b.Grows (b.set id content) := by
  have hid : id < b.contents.size := by
    rw [hb.size]
    exact (List.getElem?_eq_some_iff.mp hheld).1
  have hnew : id ∉ b.collections.toList := fun hmem => (hb.listed id hmem).2 hnone
  have hgrows : b.Grows (b.set id content) := by
    refine ⟨fun other content' hcontent' => ?_, List.prefix_rfl⟩
    rw [content?_set hid, if_neg ?_]
    · exact hcontent'
    · rintro rfl
      simp [hnone] at hcontent'
  refine ⟨⟨hb.graph, by simp [hb.size], hb.nodup, hb.filled_le, fun other content' hcontent' => ?_,
    fun other hother => ?_, fun other hother content' hcontent' child hchild => ?_⟩, hgrows⟩
  · rw [content?_set hid] at hcontent'
    by_cases hsame : other = id
    · subst hsame
      rw [if_pos rfl] at hcontent'
      obtain rfl := Option.some.inj hcontent'
      refine ⟨?_, .inl hempty⟩
      rw [Expects, collections_set, if_neg fun hmem => hnew (List.mem_of_mem_drop hmem)]
      exact hheld
    · rw [if_neg hsame] at hcontent'
      exact hb.known other content' hcontent'
  · exact ⟨(hb.listed other hother).1, hgrows.ne_none (hb.listed other hother).2⟩
  · exact hgrows.ne_none (hb.inside other hother content' hcontent' child hchild)

/-- A collection that is come across waits for its turn. -/
theorem push_collection (hb : b.Agrees g held filled) {id : NodeId} {content empty : Content}
    (hnone : b.content? id = none) (hheld : held[id]? = some content)
    (hempty : (g.node id).tag.emptyContent? = some empty) :
    ({ b.set id empty with collections := b.collections.push id } : Builder).Agrees g held filled ∧
      b.Grows { b.set id empty with collections := b.collections.push id } := by
  have hlength : id < held.length := (List.getElem?_eq_some_iff.mp hheld).1
  have hid : id < b.contents.size := by rwa [hb.size]
  have hnew : id ∉ b.collections.toList := fun hmem => (hb.listed id hmem).2 hnone
  have hcontent (other : NodeId) :
      ({ b.set id empty with collections := b.collections.push id } : Builder).content? other =
        if other = id then some empty else b.content? other :=
    content?_set hid empty other
  -- the new collection waits behind the others
  have hdrop : (b.collections.push id).toList.drop filled = b.collections.toList.drop filled ++
      [id] := by
    rw [Array.toList_push, List.drop_append_of_le_length (by simpa using hb.filled_le)]
  have htake : (b.collections.push id).toList.take filled = b.collections.toList.take filled := by
    rw [Array.toList_push, List.take_append_of_le_length (by simpa using hb.filled_le)]
  have hgrows : b.Grows { b.set id empty with collections := b.collections.push id } := by
    refine ⟨fun other content' hcontent' => ?_, by simp⟩
    rw [hcontent, if_neg ?_]
    · exact hcontent'
    · rintro rfl
      simp [hnone] at hcontent'
  refine ⟨⟨hb.graph, by simpa using hb.size, ?_, by simpa using Nat.le_succ_of_le hb.filled_le,
    fun other content' hcontent' => ?_, fun other hother => ?_,
    fun other hother content' hcontent' child hchild => ?_⟩, hgrows⟩
  · rw [Array.toList_push]
    exact List.nodup_append.mpr ⟨hb.nodup, by simp, by
      intro other hother _ hmem heq
      obtain rfl := List.mem_singleton.mp hmem
      exact hnew (heq ▸ hother)⟩
  · rw [hcontent] at hcontent'
    rw [Expects, hdrop]
    by_cases hsame : other = id
    · subst hsame
      rw [if_pos rfl] at hcontent'
      rw [if_pos (by simp), hempty]
      exact ⟨hcontent', .inr (by simp)⟩
    · rw [if_neg hsame] at hcontent'
      obtain ⟨hexpects, hkind⟩ := hb.known other content' hcontent'
      refine ⟨?_, hkind.imp_right fun hmem => by simp [hmem]⟩
      simpa [Expects, hsame] using hexpects
  · rw [Array.toList_push, List.mem_append, List.mem_singleton] at hother
    rw [hcontent]
    rcases hother with hother | rfl
    · refine ⟨(hb.listed other hother).1, ?_⟩
      split
      · simp
      · exact (hb.listed other hother).2
    · exact ⟨hlength, by simp⟩
  · rw [htake] at hother
    exact hgrows.ne_none (hb.inside other hother content' hcontent' child hchild)

/-- Whatever is carried out is known afterwards. -/
theorem exists_build (h : g.Describes held) (hb : b.Agrees g held filled) {id : NodeId}
    (hid : id < held.length) :
    ∃ content b', (build id).run b = .ok (content, b') ∧ b'.Agrees g held filled ∧ b.Grows b' ∧
      b'.content? id = some content := by
  have hget : ∀ {β : Type} (f : Builder → Building β), (get >>= f).run b = (f b).run b := fun f =>
    rfl
  rw [build, hget]
  cases hknown : b.content? id with
  | some content => exact ⟨content, b, rfl, hb, .refl b, hknown⟩
  | none =>
      obtain ⟨content, hheld⟩ : ∃ content, held[id]? = some content :=
        ⟨held[id], List.getElem?_eq_getElem hid⟩
      have hcontents : id < b.contents.size := by rwa [hb.size]
      rw [hb.graph]
      cases hempty : (g.node id).tag.emptyContent? with
      | some empty =>
          obtain ⟨hagrees, hgrows⟩ := hb.push_collection hknown hheld hempty
          refine ⟨empty, _, rfl, hagrees, hgrows, ?_⟩
          exact (content?_set hcontents empty id).trans (if_pos rfl)
      | none =>
          obtain ⟨hagrees, hgrows⟩ := hb.set_scalar hknown hheld hempty
          refine ⟨content, _, ?_, hagrees, hgrows, ?_⟩
          · simp only [Node.Holds.written_eq id (h.node id content hheld) hempty]
            rfl
          · exact (content?_set hcontents content id).trans (if_pos rfl)

/-! ## Filling a collection -/

theorem exists_forM_build (h : g.Describes held) (hb : b.Agrees g held filled) (items : List NodeId)
    (hitems : ∀ item ∈ items, item < held.length) :
    ∃ b', (items.forM fun item => discard (build item)).run b = .ok ((), b') ∧
      b'.Agrees g held filled ∧ b.Grows b' ∧ ∀ item ∈ items, b'.content? item ≠ none := by
  induction items generalizing b with
  | nil => exact ⟨b, rfl, hb, .refl b, by simp⟩
  | cons item items ih =>
      obtain ⟨hitem, hitems⟩ := List.forall_mem_cons.mp hitems
      obtain ⟨content, b₁, hbuild, hb₁, hgrows₁, hknown⟩ := hb.exists_build h hitem
      obtain ⟨b₂, hrest, hb₂, hgrows₂, hknown₂⟩ := ih hb₁ hitems
      refine ⟨b₂, ?_, hb₂, hgrows₁.trans hgrows₂, List.forall_mem_cons.mpr ⟨?_, hknown₂⟩⟩
      · exact (run_bind_ok (run_discard_ok hbuild)).trans hrest
      · exact hgrows₂.ne_none (by rw [hknown]; simp)

/-- What is known of a node without a place for others is what it holds. -/
theorem content?_eq (hb : b.Agrees g held filled) {id : NodeId}
    (hempty : (g.node id).tag.emptyContent? = none) (hknown : b.content? id ≠ none) :
    b.content? id = held[id]? := by
  obtain ⟨content, hcontent⟩ := Option.ne_none_iff_exists'.mp hknown
  obtain ⟨hexpects, -⟩ := hb.known id content hcontent
  rw [Expects, hempty] at hexpects
  split at hexpects
  · simp at hexpects
  · rw [hcontent, hexpects]

end Builder.Agrees

/-! ## Filling a mapping -/

/-- Carries out an entry and binds its key. -/
def bindEntry (bound : List (NodeId × NodeId)) (entry : NodeId × NodeId) :
    Building (List (NodeId × NodeId)) := do
  unless (← build entry.1).isKey do throw (.malformed .collectionAsKey)
  discard (build entry.2)
  return (← get).put entry.1 entry.2 bound

theorem buildEntries_eq (entries : List (NodeId × NodeId)) :
    buildEntries entries = entries.foldlM bindEntry [] := rfl

namespace Builder

/-- A key that is not bound yet is bound behind the others. -/
theorem put_of_new {b : Builder} {key value : NodeId} {bound : List (NodeId × NodeId)}
    (h : ∀ entry ∈ bound, b.sameKey entry.1 key = false) :
    b.put key value bound = bound ++ [(key, value)] := by
  induction bound with
  | nil => rfl
  | cons entry bound ih =>
      obtain ⟨hentry, hbound⟩ := List.forall_mem_cons.mp h
      rw [put, hentry, if_neg (by simp), ih hbound]
      rfl

namespace Agrees

variable {filled : Nat} {b : Builder}

/-- A key that is known holds its text. -/
theorem content?_key (h : g.Describes held) (hb : b.Agrees g held filled) {id : NodeId}
    (htag : (g.node id).tag = .text) (hknown : b.content? id ≠ none) :
    ∃ text, b.content? id = some (.plain (.text text)) ∧ textAt held id = some text := by
  have heq := hb.content?_eq (by rw [htag]; rfl) hknown
  obtain ⟨content, hcontent⟩ := Option.ne_none_iff_exists'.mp hknown
  have hheld := heq.symm.trans hcontent
  obtain ⟨text, rfl⟩ := (h.node id content hheld).eq_text htag
  exact ⟨text, hcontent, by rw [textAt, hheld]⟩

/-- Distinct texts are distinct keys. -/
theorem sameKey_eq_false (h : g.Describes held) (hb : b.Agrees g held filled)
    {first second : NodeId}
    (htag : (g.node first).tag = .text) (htag' : (g.node second).tag = .text)
    (hne : textAt held first ≠ textAt held second) (hknown : b.content? first ≠ none)
    (hknown' : b.content? second ≠ none) : b.sameKey first second = false := by
  obtain ⟨text, hcontent, htext⟩ := hb.content?_key h htag hknown
  obtain ⟨text', hcontent', htext'⟩ := hb.content?_key h htag' hknown'
  have hid : first ≠ second := by
    rintro rfl
    exact hne rfl
  have htexts : text ≠ text' := by
    rintro rfl
    exact hne (htext.trans htext'.symm)
  rw [sameKey, hcontent, hcontent']
  simp [hid, Value.sameKey, htexts]

/-- An entry with a new key is bound behind the others. -/
theorem exists_bindEntry (h : g.Describes held) (hb : b.Agrees g held filled)
    {bound : List (NodeId × NodeId)}
    (hbound : ∀ entry ∈ bound, (g.node entry.1).tag = .text ∧ b.content? entry.1 ≠ none)
    {entry : NodeId × NodeId} (htag : (g.node entry.1).tag = .text)
    (hnew : ∀ other ∈ bound, textAt held other.1 ≠ textAt held entry.1)
    (hkey : entry.1 < held.length) (hvalue : entry.2 < held.length) :
    ∃ b', (bindEntry bound entry).run b = .ok (bound ++ [entry], b') ∧ b'.Agrees g held filled ∧
      b.Grows b' ∧ b'.content? entry.1 ≠ none ∧ b'.content? entry.2 ≠ none := by
  obtain ⟨content, b₁, hbuild, hb₁, hgrows₁, hknown₁⟩ := hb.exists_build h hkey
  obtain ⟨content', b₂, hbuild', hb₂, hgrows₂, hknown₂⟩ := hb₁.exists_build h hvalue
  have hfirst : b₂.content? entry.1 ≠ none := hgrows₂.ne_none (by rw [hknown₁]; simp)
  have hisKey : content.isKey = true := by
    obtain ⟨text, hcontent, -⟩ := hb₁.content?_key h htag (by rw [hknown₁]; simp)
    obtain rfl := Option.some.inj (hknown₁.symm.trans hcontent)
    rfl
  have hput : b₂.put entry.1 entry.2 bound = bound ++ [entry] := by
    apply put_of_new
    intro other hother
    obtain ⟨htag', hknown'⟩ := hbound other hother
    exact hb₂.sameKey_eq_false h htag' htag (hnew other hother)
      ((hgrows₁.trans hgrows₂).ne_none hknown') hfirst
  refine ⟨b₂, ?_, hb₂, hgrows₁.trans hgrows₂, hfirst, by rw [hknown₂]; simp⟩
  rw [bindEntry, run_bind_ok hbuild, hisKey, if_pos rfl, run_bind_ok (run_discard_ok hbuild'),
    ← hput]
  rfl

/-- Entries with distinct keys are bound in their order. -/
theorem exists_foldlM_bindEntry (h : g.Describes held) {entries bound : List (NodeId × NodeId)}
    (hb : b.Agrees g held filled)
    (hbound : ∀ entry ∈ bound, (g.node entry.1).tag = .text ∧ b.content? entry.1 ≠ none)
    (htags : ∀ entry ∈ entries, (g.node entry.1).tag = .text)
    (hkeys : ((bound ++ entries).map fun entry => textAt held entry.1).Nodup)
    (hinner : ∀ entry ∈ entries, entry.1 < held.length ∧ entry.2 < held.length) :
    ∃ b', (entries.foldlM bindEntry bound).run b = .ok (bound ++ entries, b') ∧
      b'.Agrees g held filled ∧ b.Grows b' ∧
      ∀ entry ∈ entries, b'.content? entry.1 ≠ none ∧ b'.content? entry.2 ≠ none := by
  induction entries generalizing bound b with
  | nil => exact ⟨b, by simp; rfl, hb, .refl b, by simp⟩
  | cons entry entries ih =>
      obtain ⟨htag, htags⟩ := List.forall_mem_cons.mp htags
      obtain ⟨⟨hkey, hvalue⟩, hinner⟩ := List.forall_mem_cons.mp hinner
      have hnew : ∀ other ∈ bound, textAt held other.1 ≠ textAt held entry.1 := by
        intro other hother
        rw [List.map_append, List.nodup_append] at hkeys
        exact hkeys.2.2 _ (List.mem_map_of_mem hother) _ (by simp)
      obtain ⟨b₁, hbind, hb₁, hgrows₁, hknown₁⟩ :=
        hb.exists_bindEntry h hbound htag hnew hkey hvalue
      have hbound₁ : ∀ other ∈ bound ++ [entry],
          (g.node other.1).tag = .text ∧ b₁.content? other.1 ≠ none := by
        intro other hother
        rcases List.mem_append.mp hother with hother | hother
        · exact (hbound other hother).imp_right hgrows₁.ne_none
        · obtain rfl := List.mem_singleton.mp hother
          exact ⟨htag, hknown₁.1⟩
      obtain ⟨b₂, hrest, hb₂, hgrows₂, hknown₂⟩ :=
        ih hb₁ hbound₁ htags (by simpa using hkeys) hinner
      refine ⟨b₂, ?_, hb₂, hgrows₁.trans hgrows₂, List.forall_mem_cons.mpr
        ⟨hknown₁.imp hgrows₂.ne_none hgrows₂.ne_none, hknown₂⟩⟩
      rw [List.foldlM_cons, run_bind_ok hbind, hrest]
      simp

end Agrees

end Builder

/-- Keys that are texts are plain already. -/
theorem Graph.plainKeys_eq_self {keys : List NodeId} (h : ∀ key ∈ keys, (g.node key).tag = .text) :
    g.plainKeys keys = g := by
  induction keys with
  | nil => rfl
  | cons key keys ih =>
      obtain ⟨hkey, hrest⟩ := List.forall_mem_cons.mp h
      rw [plainKeys, List.foldl_cons, hkey]
      exact ih hrest

/-- A graph without merge keys stays as it is. -/
theorem Graph.merge_eq_self {id : NodeId}
    (hkeys : ∀ entry ∈ g.entries id, (g.node entry.1).tag = .text)
    (count : Nat) : g.merge count id = .ok g := by
  have hplain : ((g.entries id).drop 0).takeWhile (fun entry => (g.node entry.1).tag != .merge) =
      g.entries id := by
    rw [List.drop_zero, List.takeWhile_eq_self_iff]
    intro entry hentry
    rw [hkeys entry hentry]
    rfl
  have htags : ∀ key ∈ (g.entries id).map (·.1), (g.node key).tag = .text := by
    simpa using fun key value hmem => hkeys (key, value) hmem
  rw [merge, mergeFrom]
  simp only [hplain, plainKeys_eq_self htags, Nat.zero_add, List.drop_length]
  rfl

namespace Builder.Agrees

variable {filled : Nat} {b : Builder}

/-- Carrying out the entries of a mapping. -/
theorem exists_buildMapping (h : g.Describes held) (hb : b.Agrees g held filled) {id : NodeId}
    {entries : List (NodeId × NodeId)} (hheld : held[id]? = some (.map entries)) (count : Nat) :
    ∃ b', (buildMapping count id).run b = .ok (entries, b') ∧ b'.Agrees g held filled ∧ b.Grows b' ∧
      ∀ entry ∈ entries, b'.content? entry.1 ≠ none ∧ b'.content? entry.2 ≠ none := by
  obtain ⟨htags, hkeys⟩ := h.keys id entries hheld
  have hentries : g.entries id = entries := by
    have hnode := h.node id _ hheld
    rw [Graph.entries]
    generalize g.node id = node at hnode
    cases hnode with
    | mapping => rfl
  have hinner : ∀ entry ∈ entries, entry.1 < held.length ∧ entry.2 < held.length := by
    intro entry hentry
    constructor
    · exact h.inner id _ hheld _ (List.mem_flatMap.mpr ⟨entry, hentry, by simp⟩)
    · exact h.inner id _ hheld _ (List.mem_flatMap.mpr ⟨entry, hentry, by simp⟩)
  obtain ⟨b', hrun, hb', hgrows, hknown⟩ := @exists_foldlM_bindEntry g held filled b h entries [] hb
    (by simp) htags hkeys hinner
  refine ⟨b', ?_, hb', hgrows, hknown⟩
  have hmerge : b.graph.merge count id = .ok g := by
    rw [hb.graph, Graph.merge_eq_self (by rwa [hentries])]
  have hsame : ({ b with graph := g } : Builder) = b := by
    rw [← hb.graph]
  rw [buildMapping, run_bind_ok (a := b) (t := b) rfl, hmerge, run_bind_ok (a := g) (t := b) rfl,
    run_bind_ok (a := ()) (t := b) (by rw [← hsame]; rfl), hentries, buildEntries_eq, hrun]
  rfl

/-- The collection whose turn it is holds what it should once what it is made of is known. -/
theorem set_filled (hb : b.Agrees g held filled) {id : NodeId} {content : Content}
    (hturn : b.collections.toList[filled]? = some id) (hheld : held[id]? = some content)
    (hinside : ∀ child ∈ content.children, b.content? child ≠ none) :
    (b.set id content).Agrees g held (filled + 1) ∧
      ∀ other, b.content? other ≠ none → (b.set id content).content? other ≠ none := by
  obtain ⟨hlt, hget⟩ := List.getElem?_eq_some_iff.mp hturn
  have hid : id < b.contents.size := by
    rw [hb.size]
    exact (List.getElem?_eq_some_iff.mp hheld).1
  have hdrop : b.collections.toList.drop filled = id :: b.collections.toList.drop (filled + 1) := by
    rw [List.drop_eq_getElem_cons hlt, hget]
  have htake : b.collections.toList.take (filled + 1) = b.collections.toList.take filled ++
      [id] := by
    rw [List.take_add_one, hturn]
    rfl
  -- a collection has only one turn
  have hnot : id ∉ b.collections.toList.drop (filled + 1) := by
    have hnodup := hb.nodup.sublist (List.drop_sublist filled _)
    rw [hdrop] at hnodup
    exact (List.nodup_cons.mp hnodup).1
  have hkept (other : NodeId) (hknown : b.content? other ≠ none) :
      (b.set id content).content? other ≠ none := by
    rw [content?_set hid]
    split
    · simp
    · exact hknown
  refine ⟨⟨hb.graph, by simp [hb.size], hb.nodup, by simpa [Nat.succ_le_iff] using hlt,
    fun other content' hcontent' => ?_, fun other hother =>
      ?_, fun other hother content' hcontent' child hchild => ?_⟩, hkept⟩
  · rw [content?_set hid] at hcontent'
    rw [Expects, collections_set]
    by_cases hsame : other = id
    · subst hsame
      rw [if_pos rfl] at hcontent'
      rw [if_neg hnot, hheld]
      exact ⟨hcontent', .inr (List.mem_of_getElem? hturn)⟩
    · rw [if_neg hsame] at hcontent'
      obtain ⟨hexpects, hkind⟩ := hb.known other content' hcontent'
      refine ⟨?_, hkind⟩
      rw [Expects, hdrop] at hexpects
      simpa [hsame] using hexpects
  · exact ⟨(hb.listed other hother).1, hkept other (hb.listed other hother).2⟩
  · rw [collections_set, htake, List.mem_append, List.mem_singleton] at hother
    rcases hother with hother | rfl
    · exact hkept child (hb.inside other hother content' hcontent' child hchild)
    · obtain rfl := Option.some.inj (hheld.symm.trans hcontent')
      exact hkept child (hinside child hchild)

/-- Filling the collection whose turn it is. -/
theorem exists_fill (h : g.Describes held) (hb : b.Agrees g held filled) {id : NodeId}
    (hturn : b.collections.toList[filled]? = some id) (count : Nat) :
    ∃ b', (fill count id).run b = .ok ((), b') ∧ b'.Agrees g held (filled + 1) ∧
      ∀ other, b.content? other ≠ none → b'.content? other ≠ none := by
  obtain ⟨hid, hknown⟩ := hb.listed id (List.mem_of_getElem? hturn)
  obtain ⟨content, hheld⟩ : ∃ content, held[id]? = some content := ⟨_, List.getElem?_eq_getElem hid⟩
  -- a collection is made of others, so that what is known of it so far is that it is empty
  have hcollection : (g.node id).tag.emptyContent? ≠ none := by
    obtain ⟨empty, hempty⟩ := Option.ne_none_iff_exists'.mp hknown
    obtain ⟨hexpects, -⟩ := hb.known id empty hempty
    obtain ⟨hlt, hget⟩ := List.getElem?_eq_some_iff.mp hturn
    rw [Expects, if_pos (by rw [List.drop_eq_getElem_cons hlt, hget]; simp)] at hexpects
    rw [hexpects]
    simp
  have hnode := h.node id content hheld
  rw [fill, run_bind_ok (a := b) (t := b) rfl, hb.graph]
  generalize hsame : g.node id = node at hnode hcollection
  cases hnode with
  | @scalar tag text value hwritten hfloat hvalue =>
      exfalso
      apply hcollection
      cases tag <;> first | rfl | exact absurd hwritten (by decide)
  | list items =>
      obtain ⟨b₁, hbuild, hb₁, hgrows, hinside⟩ :=
        hb.exists_forM_build h items (h.inner id _ hheld)
      have hturn₁ : b₁.collections.toList[filled]? = some id := by
        obtain ⟨more, hmore⟩ := hgrows.collections
        rw [← hmore, List.getElem?_append_left (List.getElem?_eq_some_iff.mp hturn).1, hturn]
      obtain ⟨hb₂, hkept⟩ := hb₁.set_filled hturn₁ hheld hinside
      refine ⟨_, ?_, hb₂, fun other hother => hkept other (hgrows.ne_none hother)⟩
      simp only
      rw [run_bind_ok hbuild]
      rfl
  | mapping entries =>
      obtain ⟨b₁, hbuild, hb₁, hgrows, hinside⟩ := hb.exists_buildMapping h hheld count
      have hturn₁ : b₁.collections.toList[filled]? = some id := by
        obtain ⟨more, hmore⟩ := hgrows.collections
        rw [← hmore, List.getElem?_append_left (List.getElem?_eq_some_iff.mp hturn).1, hturn]
      have hchildren : ∀ child ∈ (Content.map entries).children, b₁.content? child ≠ none := by
        intro child hchild
        obtain ⟨entry, hentry, hmem⟩ := List.mem_flatMap.mp hchild
        obtain ⟨hkey, hvalue⟩ := hinside entry hentry
        rcases List.mem_pair.mp hmem with rfl | rfl
        · exact hkey
        · exact hvalue
      obtain ⟨hb₂, hkept⟩ := hb₁.set_filled hturn₁ hheld hchildren
      refine ⟨_, ?_, hb₂, fun other hother => hkept other (hgrows.ne_none hother)⟩
      simp only
      rw [run_bind_ok hbuild]
      rfl

/-- No more collections are come across than there are nodes. -/
theorem size_collections_le (hb : b.Agrees g held filled) : b.collections.size ≤ held.length := by
  have hsubset : b.collections.toList ⊆ List.range held.length := by
    intro id hid
    exact List.mem_range.mpr (hb.listed id hid).1
  simpa using (List.Nodup.subperm hb.nodup hsubset).length_le

/-- Filling the collections comes to an end when there are none left. -/
theorem exists_fillFrom (h : g.Describes held) (hb : b.Agrees g held filled) (count fuel : Nat)
    (hfuel : held.length ≤ filled + fuel) :
    ∃ b', (fillFrom count fuel filled).run b = .ok ((), b') ∧ b'.Agrees g held b'.collections.size ∧
      ∀ other, b.content? other ≠ none → b'.content? other ≠ none := by
  induction fuel generalizing filled b with
  | zero =>
      have hsize := hb.size_collections_le
      have hle := hb.filled_le
      obtain rfl : filled = b.collections.size := by omega
      exact ⟨b, rfl, hb, fun _ => id⟩
  | succ fuel ih =>
      rw [fillFrom, run_bind_ok (a := b) (t := b) rfl]
      cases hturn : b.collections[filled]? with
      | none =>
          have hle := hb.filled_le
          have hge : b.collections.size ≤ filled := Array.getElem?_eq_none_iff.mp hturn
          obtain rfl : filled = b.collections.size := by omega
          exact ⟨b, rfl, hb, fun _ => id⟩
      | some id =>
          obtain ⟨b₁, hfill, hb₁, hkept₁⟩ := hb.exists_fill h (by simpa using hturn) count
          obtain ⟨b₂, hrest, hb₂, hkept₂⟩ := ih hb₁ (by omega)
          refine ⟨b₂, ?_, hb₂, fun other hother => hkept₂ other (hkept₁ other hother)⟩
          simp only
          rw [run_bind_ok hfill, hrest]

/-- When all collections are filled, all nodes are known. -/
theorem content?_of_all (h : g.Describes held) (hb : b.Agrees g held b.collections.size)
    (hroot : b.content? 0 ≠ none) {id : NodeId} (hid : id < held.length) :
    b.content? id = held[id]? := by
  have htake : b.collections.toList.take b.collections.size = b.collections.toList :=
    List.take_of_length_le (by simp)
  have hdrop : b.collections.toList.drop b.collections.size = [] := List.drop_eq_nil_of_le (by simp)
  have heq (id : NodeId) (hknown : b.content? id ≠ none) : b.content? id = held[id]? := by
    obtain ⟨content, hcontent⟩ := Option.ne_none_iff_exists'.mp hknown
    obtain ⟨hexpects, -⟩ := hb.known id content hcontent
    rw [Expects, hdrop, if_neg List.not_mem_nil] at hexpects
    rw [hcontent, hexpects]
  apply heq
  -- every node is in one in front of it, which is known, and filled if it is a collection
  induction id using Nat.strong_induction_on with
  | _ id ih =>
      by_cases hzero : id = 0
      · exact hzero ▸ hroot
      · obtain ⟨around, hlt, content, hheld, hmem⟩ := h.outer id hid hzero
        have haround := heq around (ih around hlt (Nat.lt_trans hlt hid))
        obtain ⟨-, hkind⟩ := hb.known around content (haround.trans hheld)
        rcases hkind with hscalar | hcollection
        · rw [(h.node around content hheld).children_eq_nil hscalar] at hmem
          simp at hmem
        · exact hb.inside around (by rwa [htake]) content hheld id hmem

end Builder.Agrees

/-- All nodes of a graph come to hold what they should. -/
theorem Graph.Describes.contents_eq (h : g.Describes held) (hroot : held ≠ []) :
    ({ graph := g, root := 0 } : Document).contents = .ok (held.map some).toArray := by
  have hlength : 0 < held.length := List.length_pos_iff.mpr hroot
  have hstart : ({ graph := g, contents := Array.replicate g.nodes.size none } : Builder).Agrees g
      held 0 := by
    refine ⟨rfl, by simp [h.size], by simp, by simp, fun id content hcontent => ?_, by simp,
      by simp⟩
    rw [Builder.content?, Array.getD_eq_getD_getElem?, Array.getElem?_replicate] at hcontent
    split at hcontent <;> simp at hcontent
  obtain ⟨content, b₁, hbuild, hb₁, -, hknown⟩ := hstart.exists_build h hlength
  obtain ⟨b₂, hfill, hb₂, hkept⟩ := hb₁.exists_fillFrom h g.entryCount g.nodes.size
    (by rw [h.size]; omega)
  have hall : b₂.contents = (held.map some).toArray := by
    apply Array.ext
    · simp [hb₂.size]
    · intro id hid hid'
      have hin : id < held.length := by simpa using hid'
      have hcontent := hb₂.content?_of_all h (hkept 0 (by rw [hknown]; simp)) hin
      rw [Builder.content?, Array.getD_eq_getD_getElem?, Array.getElem?_eq_getElem hid,
        List.getElem?_eq_getElem hin] at hcontent
      simpa using hcontent
  rw [Document.contents]
  simp only
  rw [run_bind_ok (run_discard_ok hbuild), hfill]
  exact congrArg Except.ok hall

end PackageScaffold.Yaml
