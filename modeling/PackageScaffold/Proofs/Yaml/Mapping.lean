import Mathlib.Data.List.Nodup
import PackageScaffold.Proofs.Yaml.Document
import PackageScaffold.Proofs.Yaml.Node

/-!
# The value of a document that is one mapping

The nodes of a block mapping hold its scalars, lists and mappings, and stand for the
values of these.

* `Block.entries`: the entries that a mapping stands for;
* `Block.IsMeant`: keys and scalars mean what they should, and no key is written twice;
* `Block.read_document`: what is read from the text of a mapping is the mapping.
-/

namespace PackageScaffold.Yaml

/-! ## Parts of lists -/

/-- A list stands in another one, from the given place on. -/
def StandsAt {α : Type} (whole : List α) (start : Nat) (part : List α) : Prop :=
  part <+: whole.drop start

theorem standsAt_cons {α : Type} {whole : List α} {start : Nat} {x : α} {part : List α} :
    StandsAt whole start (x :: part) ↔ whole[start]? = some x ∧
      StandsAt whole (start + 1) part := by
  unfold StandsAt
  rw [← List.drop_drop, ← List.head?_drop]
  cases whole.drop start with
  | nil => simp
  | cons y rest => simp [List.cons_prefix_cons, eq_comm]

theorem standsAt_append {α : Type} {whole : List α} {start : Nat} {part more : List α} :
    StandsAt whole start (part ++ more) ↔
      StandsAt whole start part ∧ StandsAt whole (start + part.length) more := by
  induction part generalizing start with
  | nil => simp [StandsAt]
  | cons x part ih =>
      rw [List.cons_append, standsAt_cons, standsAt_cons, ih, and_assoc, List.length_cons,
        Nat.add_assoc start 1, Nat.add_comm 1]

theorem StandsAt.getElem? {α : Type} {whole part : List α} {start index : Nat} {x : α}
    (h : StandsAt whole start part) (hx : part[index]? = some x) :
    whole[start + index]? = some x := by
  obtain ⟨more, hmore⟩ := h
  rw [← List.getElem?_drop, ← hmore, List.getElem?_append_left (List.getElem?_eq_some_iff.mp hx).1,
    hx]

namespace Block

/-! ## What a mapping stands for -/

/-- The keys of a mapping. -/
def keys : Block → List String
  | nil => []
  | scalar _ key _ rest => key :: rest.keys
  | items _ key _ rest => key :: rest.keys
  | nested _ key _ rest => key :: rest.keys

/-- The entries that a mapping stands for. -/
def entries : Block → Entries
  | nil => []
  | scalar _ key value rest => (.text key, value.value) :: rest.entries
  | items _ key words rest => (.text key, .list (words.map Value.text)) :: rest.entries
  | nested _ key inner rest => (.text key, .map inner.entries) :: rest.entries

/-- Keys and words are texts, scalars have their values, and no key is written twice. -/
def IsMeant : Block → Prop
  | nil => True
  | scalar _ key value rest =>
    Tag.ofPlain key.toList = .text ∧ key ∉ rest.keys ∧
      (scalarNode value.text value.isPlain).Holds (.plain value.value) ∧ rest.IsMeant
  | items _ key words rest =>
    Tag.ofPlain key.toList = .text ∧ key ∉ rest.keys ∧
      (∀ word ∈ words, Tag.ofPlain word.toList = .text) ∧ rest.IsMeant
  | nested _ key inner rest =>
    Tag.ofPlain key.toList = .text ∧ key ∉ rest.keys ∧ inner.IsMeant ∧ rest.IsMeant

/-- What the nodes of a mapping hold. -/
def contents (start : Nat) : Block → List Content
  | nil => []
  | scalar _ key value rest =>
    .plain (.text key) :: .plain value.value :: rest.contents (start + 2)
  | items _ key words rest =>
    .plain (.text key) :: .list (List.range' (start + 2) words.length) ::
      (words.map (fun word => .plain (.text word)) ++ rest.contents (start + 2 + words.length))
  | nested _ key inner rest =>
    .plain (.text key) :: .map (inner.pairs (start + 2)) ::
      (inner.contents (start + 2) ++ rest.contents (start + 2 + inner.size))

/-- What the nodes of a mapping stand for. -/
def values : Block → List Value
  | nil => []
  | scalar _ key value rest => .text key :: value.value :: rest.values
  | items _ key words rest =>
    .text key :: .list (words.map Value.text) :: (words.map Value.text ++ rest.values)
  | nested _ key inner rest =>
    .text key :: .map inner.entries :: (inner.values ++ rest.values)

theorem length_contents (block : Block) (start : Nat) :
    (block.contents start).length = block.size := by
  induction block generalizing start with
  | nil => rfl
  | scalar blanks key value rest ih => simp [contents, size, ih]; omega
  | items blanks key words rest ih => simp [contents, size, ih]; omega
  | nested blanks key inner rest ihinner ihrest => simp [contents, size, ihinner, ihrest]; omega

theorem length_values (block : Block) : block.values.length = block.size := by
  induction block with
  | nil => rfl
  | scalar blanks key value rest ih => simp [values, size, ih]; omega
  | items blanks key words rest ih => simp [values, size, ih]; omega
  | nested blanks key inner rest ihinner ihrest => simp [values, size, ihinner, ihrest]; omega

/-! ## Where its nodes stand -/

/-- The nodes of a mapping, what they hold and what they stand for have the same numbers. -/
structure Sits (nodes : List Node) (held : List Content) (values : List Value) (start : Nat)
    (block : Block) : Prop where
  node : StandsAt nodes start (block.nodes start)
  content : StandsAt held start (block.contents start)
  value : StandsAt values start block.values

variable {nodes : List Node} {held : List Content} {values : List Value} {start : Nat}

section Parts

variable {blanks : Nat} {key : String}

/-- The key of an entry and its value stand in front of what the value is made of. -/
theorem sits_scalar {value : Scalar} {rest : Block}
    (h : Sits nodes held values start (scalar blanks key value rest)) :
    (nodes[start]? = some (scalarNode key true) ∧ held[start]? = some (.plain (.text key)) ∧
        values[start]? = some (.text key)) ∧
      (nodes[start + 1]? = some (scalarNode value.text value.isPlain) ∧
        held[start + 1]? = some (.plain value.value) ∧ values[start + 1]? = some value.value) ∧
      Sits nodes held values (start + 2) rest := by
  obtain ⟨hnode, hcontent, hvalue⟩ := h
  simp only [Block.nodes, contents, Block.values, standsAt_cons] at hnode hcontent hvalue
  exact ⟨⟨hnode.1, hcontent.1, hvalue.1⟩, ⟨hnode.2.1, hcontent.2.1, hvalue.2.1⟩,
    ⟨hnode.2.2, hcontent.2.2, hvalue.2.2⟩⟩

theorem sits_items {words : List String} {rest : Block}
    (h : Sits nodes held values start (items blanks key words rest)) :
    (nodes[start]? = some (scalarNode key true) ∧ held[start]? = some (.plain (.text key)) ∧
        values[start]? = some (.text key)) ∧
      (nodes[start + 1]? = some ⟨.list, .list (List.range' (start + 2) words.length)⟩ ∧
        held[start + 1]? = some (.list (List.range' (start + 2) words.length)) ∧
        values[start + 1]? = some (.list (words.map Value.text))) ∧
      (∀ (index : Nat) (word : String), words[index]? = some word →
        nodes[start + 2 + index]? = some (scalarNode word true) ∧
          held[start + 2 + index]? = some (.plain (.text word)) ∧
          values[start + 2 + index]? = some (.text word)) ∧
      Sits nodes held values (start + 2 + words.length) rest := by
  obtain ⟨hnode, hcontent, hvalue⟩ := h
  simp only [Block.nodes, contents, Block.values, standsAt_cons, standsAt_append, List.length_map]
    at hnode hcontent hvalue
  refine ⟨⟨hnode.1, hcontent.1, hvalue.1⟩, ⟨hnode.2.1, hcontent.2.1, hvalue.2.1⟩, ?_,
    ⟨hnode.2.2.2, hcontent.2.2.2, hvalue.2.2.2⟩⟩
  intro index word hword
  refine ⟨hnode.2.2.1.getElem? ?_, hcontent.2.2.1.getElem? ?_, hvalue.2.2.1.getElem? ?_⟩ <;>
    simp [hword]

theorem sits_nested {inner rest : Block}
    (h : Sits nodes held values start (nested blanks key inner rest)) :
    (nodes[start]? = some (scalarNode key true) ∧ held[start]? = some (.plain (.text key)) ∧
        values[start]? = some (.text key)) ∧
      (nodes[start + 1]? = some ⟨.mapping, .mapping (inner.pairs (start + 2))⟩ ∧
        held[start + 1]? = some (.map (inner.pairs (start + 2))) ∧
        values[start + 1]? = some (.map inner.entries)) ∧
      Sits nodes held values (start + 2) inner ∧
      Sits nodes held values (start + 2 + inner.size) rest := by
  obtain ⟨hnode, hcontent, hvalue⟩ := h
  simp only [Block.nodes, contents, Block.values, standsAt_cons, standsAt_append, length_nodes,
    length_contents, length_values] at hnode hcontent hvalue
  exact ⟨⟨hnode.1, hcontent.1, hvalue.1⟩, ⟨hnode.2.1, hcontent.2.1, hvalue.2.1⟩,
    ⟨hnode.2.2.1, hcontent.2.2.1, hvalue.2.2.1⟩, ⟨hnode.2.2.2, hcontent.2.2.2, hvalue.2.2.2⟩⟩

end Parts

/-! ## Keys and values -/

theorem node_eq {id : NodeId} {node : Node} (h : nodes[id]? = some node) :
    (⟨nodes.toArray⟩ : Graph).node id = node := by
  rw [Graph.node, Array.getD_eq_getD_getElem?, List.getElem?_toArray, h]
  rfl

theorem getD_eq {id : NodeId} {value : Value} (h : values[id]? = some value) :
    values.getD id .null = value := by
  rw [List.getD_eq_getElem?_getD, h]
  rfl

theorem textAt_eq {id : NodeId} {text : String} (h : held[id]? = some (.plain (.text text))) :
    textAt held id = some text := by
  rw [textAt, h]

/-- The keys and values of a mapping are nodes of it. -/
theorem mem_pairs (block : Block) (start : Nat) {entry : NodeId × NodeId}
    (h : entry ∈ block.pairs start) {id : Nat} (hid : id ∈ [entry.1, entry.2]) :
    start ≤ id ∧ id < start + block.size := by
  induction block generalizing start with
  | nil => simp [pairs] at h
  | scalar blanks key value rest ih =>
      rcases List.mem_cons.mp h with rfl | h
      · simp [size] at hid ⊢
        omega
      · have hrest := ih (start + 2) h
        simp only [size]
        omega
  | items blanks key words rest ih =>
      rcases List.mem_cons.mp h with rfl | h
      · simp [size] at hid ⊢
        omega
      · have hrest := ih (start + 2 + words.length) h
        simp only [size]
        omega
  | nested blanks key inner rest ihinner ihrest =>
      rcases List.mem_cons.mp h with rfl | h
      · simp [size] at hid ⊢
        omega
      · have hrest := ihrest (start + 2 + inner.size) h
        simp only [size]
        omega

/-- The keys of a mapping hold their texts. -/
theorem map_textAt_pairs {block : Block} (h : Sits nodes held values start block) :
    (block.pairs start).map (fun entry => textAt held entry.1) = block.keys.map some := by
  induction block generalizing start with
  | nil => rfl
  | scalar blanks key value rest ih =>
      obtain ⟨⟨-, hkey, -⟩, -, hrest⟩ := sits_scalar h
      simp [pairs, keys, textAt_eq hkey, ih hrest]
  | items blanks key words rest ih =>
      obtain ⟨⟨-, hkey, -⟩, -, -, hrest⟩ := sits_items h
      simp [pairs, keys, textAt_eq hkey, ih hrest]
  | nested blanks key inner rest ihinner ihrest =>
      obtain ⟨⟨-, hkey, -⟩, -, -, hrest⟩ := sits_nested h
      simp [pairs, keys, textAt_eq hkey, ihrest hrest]

/-- The keys and values of a mapping stand for its entries. -/
theorem map_values_pairs {block : Block} (h : Sits nodes held values start block) :
    (block.pairs start).map (fun entry => (values.getD entry.1 .null, values.getD entry.2 .null)) =
      block.entries := by
  induction block generalizing start with
  | nil => rfl
  | scalar blanks key value rest ih =>
      obtain ⟨⟨-, -, hkey⟩, ⟨-, -, hvalue⟩, hrest⟩ := sits_scalar h
      rw [pairs, List.map_cons, ih hrest, getD_eq hkey, getD_eq hvalue, entries]
  | items blanks key words rest ih =>
      obtain ⟨⟨-, -, hkey⟩, ⟨-, -, hvalue⟩, -, hrest⟩ := sits_items h
      rw [pairs, List.map_cons, ih hrest, getD_eq hkey, getD_eq hvalue, entries]
  | nested blanks key inner rest ihinner ihrest =>
      obtain ⟨⟨-, -, hkey⟩, ⟨-, -, hvalue⟩, -, hrest⟩ := sits_nested h
      rw [pairs, List.map_cons, ihrest hrest, getD_eq hkey, getD_eq hvalue, entries]

/-- Every key is meant as a text. -/
theorem tag_of_mem_pairs {block : Block} (h : Sits nodes held values start block)
    (hmeant : block.IsMeant)
    {entry : NodeId × NodeId} (hentry : entry ∈ block.pairs start) :
    ((⟨nodes.toArray⟩ : Graph).node entry.1).tag = .text := by
  induction block generalizing start with
  | nil => simp [pairs] at hentry
  | scalar blanks key value rest ih =>
      obtain ⟨⟨hkey, -, -⟩, -, hrest⟩ := sits_scalar h
      rcases List.mem_cons.mp hentry with rfl | hentry
      · rw [node_eq hkey]
        exact hmeant.1
      · exact ih hrest hmeant.2.2.2 hentry
  | items blanks key words rest ih =>
      obtain ⟨⟨hkey, -, -⟩, -, -, hrest⟩ := sits_items h
      rcases List.mem_cons.mp hentry with rfl | hentry
      · rw [node_eq hkey]
        exact hmeant.1
      · exact ih hrest hmeant.2.2.2 hentry
  | nested blanks key inner rest ihinner ihrest =>
      obtain ⟨⟨hkey, -, -⟩, -, -, hrest⟩ := sits_nested h
      rcases List.mem_cons.mp hentry with rfl | hentry
      · rw [node_eq hkey]
        exact hmeant.1
      · exact ihrest hrest hmeant.2.2.2 hentry

theorem IsMeant.nodup_keys {block : Block} (h : block.IsMeant) : block.keys.Nodup := by
  induction block with
  | nil => exact List.nodup_nil
  | scalar blanks key value rest ih => exact List.nodup_cons.mpr ⟨h.2.1, ih h.2.2.2⟩
  | items blanks key words rest ih => exact List.nodup_cons.mpr ⟨h.2.1, ih h.2.2.2⟩
  | nested blanks key inner rest ihinner ihrest => exact List.nodup_cons.mpr ⟨h.2.1, ihrest h.2.2.2⟩

/-! ## All nodes -/

/-- A node of a tree: it holds what it should, stands for its value, leads to later nodes below a
bound only, and its keys are distinct texts. -/
structure Fits (nodes : List Node) (held : List Content) (values : List Value) (bound id : Nat)
    (content : Content) : Prop where
  held_eq : held[id]? = some content
  holds : ((⟨nodes.toArray⟩ : Graph).node id).Holds content
  value_eq : values.getD id .null = content.value (values.getD · .null)
  inner : ∀ child ∈ content.children, id < child ∧ child < bound
  keys : ∀ entries, content = .map entries →
    (∀ entry ∈ entries, ((⟨nodes.toArray⟩ : Graph).node entry.1).tag = .text) ∧
      (entries.map fun entry => textAt held entry.1).Nodup

variable {bound id : Nat}

theorem Fits.mono {content : Content} {bound' : Nat} (h : Fits nodes held values bound id content)
    (hle : bound ≤ bound') : Fits nodes held values bound' id content :=
  { h with inner := fun child hchild =>
      (h.inner child hchild).imp_right fun hlt => Nat.lt_of_lt_of_le hlt hle }

/-- A scalar leads to no other nodes. -/
theorem fits_scalar {text : String} {isPlain : Bool} {value : Value}
    (h : nodes[id]? = some (scalarNode text isPlain) ∧ held[id]? = some (.plain value) ∧
      values[id]? = some value) (hholds : (scalarNode text isPlain).Holds (.plain value)) (bound :
        Nat) :
    Fits nodes held values bound id (.plain value) := by
  obtain ⟨hnode, hcontent, hvalue⟩ := h
  exact ⟨hcontent, by rwa [node_eq hnode], getD_eq hvalue, by simp [Content.children], by simp⟩

theorem holds_word {word : String} (h : Tag.ofPlain word.toList = .text) :
    (scalarNode word true).Holds (.plain (.text word)) := by
  have htag : textTag (.text word) true none = .text := h
  rw [scalarNode, htag]
  exact .scalar rfl (by simp) rfl

/-- A list leads to its items. -/
theorem fits_items {words : List String}
    (h : nodes[id]? = some ⟨.list, .list (List.range' (id + 1) words.length)⟩ ∧
      held[id]? = some (.list (List.range' (id + 1) words.length)) ∧
      values[id]? = some (.list (words.map Value.text)))
    (hwords : ∀ (index : Nat) (word : String), words[index]? = some word →
      values[id + 1 + index]? = some (.text word)) :
    Fits nodes held values (id + 1 + words.length) id
      (.list (List.range' (id + 1) words.length)) := by
  obtain ⟨hnode, hcontent, hvalue⟩ := h
  refine ⟨hcontent, by rw [node_eq hnode]; exact .list _, ?_, ?_, by simp⟩
  · rw [getD_eq hvalue, Content.value]
    congr 1
    apply List.ext_getElem
    · simp
    · intro index hindex hindex'
      have hlt : index < words.length := by simpa using hindex
      have hword := hwords index words[index] (List.getElem?_eq_getElem hlt)
      simp [hword]
  · intro child hchild
    exact List.mem_range'_1.mp hchild

/-- A mapping leads to its keys and values. -/
theorem fits_mapping {block : Block} {id : Nat}
    (h : nodes[id]? = some ⟨.mapping, .mapping (block.pairs (id + 1))⟩ ∧
      held[id]? = some (.map (block.pairs (id + 1))) ∧ values[id]? = some (.map block.entries))
    (hinner : Sits nodes held values (id + 1) block) (hmeant : block.IsMeant) :
    Fits nodes held values (id + 1 + block.size) id (.map (block.pairs (id + 1))) := by
  obtain ⟨hnode, hcontent, hvalue⟩ := h
  refine ⟨hcontent, by rw [node_eq hnode]; exact .mapping _, ?_, ?_, ?_⟩
  · rw [getD_eq hvalue, Content.value, map_values_pairs hinner]
  · intro child hchild
    obtain ⟨entry, hentry, hmem⟩ := List.mem_flatMap.mp hchild
    exact mem_pairs block (id + 1) hentry hmem
  · rintro entries hentries
    obtain rfl := Content.map.inj hentries
    refine ⟨fun entry hentry => tag_of_mem_pairs hinner hmeant hentry, ?_⟩
    rw [map_textAt_pairs hinner]
    exact List.Nodup.map (fun _ _ => Option.some.inj) hmeant.nodup_keys

/-- Every node of a mapping fits. -/
theorem exists_fits {block : Block} (h : Sits nodes held values start block)
    (hmeant : block.IsMeant)
    (hid : start ≤ id) (hlt : id < start + block.size) :
    ∃ content, Fits nodes held values (start + block.size) id content := by
  -- the number of a node tells if it is a key, a value, in a value, or in the rest
  induction block generalizing start with
  | nil => simp [size] at hlt; omega
  | scalar blanks key value rest ih =>
      obtain ⟨hkey, hvalue, hrest⟩ := sits_scalar h
      obtain ⟨hname, -, hholds, hmeant⟩ := hmeant
      by_cases hfirst : id = start
      · exact ⟨_, fits_scalar (hfirst ▸ hkey) (holds_word hname) _⟩
      by_cases hsecond : id = start + 1
      · exact ⟨_, fits_scalar (hsecond ▸ hvalue) hholds _⟩
      simp only [size] at hlt ⊢
      obtain ⟨content, hfits⟩ := ih hrest hmeant (by omega) (by omega)
      exact ⟨content, hfits.mono (by omega)⟩
  | items blanks key words rest ih =>
      obtain ⟨hkey, hlist, hwords, hrest⟩ := sits_items h
      obtain ⟨hname, -, hitems, hmeant⟩ := hmeant
      by_cases hfirst : id = start
      · exact ⟨_, fits_scalar (hfirst ▸ hkey) (holds_word hname) _⟩
      simp only [size] at hlt ⊢
      by_cases hsecond : id = start + 1
      · subst hsecond
        exact ⟨_, (fits_items hlist fun index word hword => (hwords index word hword).2.2).mono
          (by omega)⟩
      by_cases hitem : id < start + 2 + words.length
      · obtain ⟨index, rfl⟩ : ∃ index, id = start + 2 + index := ⟨id - (start + 2), by omega⟩
        have hindex : index < words.length := by omega
        have hword := List.getElem?_eq_getElem hindex
        exact ⟨_, fits_scalar (hwords index _ hword)
          (holds_word (hitems _ (List.mem_of_getElem? hword))) _⟩
      obtain ⟨content, hfits⟩ := ih hrest hmeant (by omega) (by omega)
      exact ⟨content, hfits.mono (by omega)⟩
  | nested blanks key inner rest ihinner ihrest =>
      obtain ⟨hkey, hmapping, hinner, hrest⟩ := sits_nested h
      obtain ⟨hname, -, hmeant, hmeant'⟩ := hmeant
      by_cases hfirst : id = start
      · exact ⟨_, fits_scalar (hfirst ▸ hkey) (holds_word hname) _⟩
      simp only [size] at hlt ⊢
      by_cases hsecond : id = start + 1
      · subst hsecond
        exact ⟨_, (fits_mapping hmapping hinner hmeant).mono (by omega)⟩
      by_cases hinside : id < start + 2 + inner.size
      · obtain ⟨content, hfits⟩ := ihinner hinner hmeant (by omega) hinside
        exact ⟨content, hfits.mono (by omega)⟩
      obtain ⟨content, hfits⟩ := ihrest hrest hmeant' (by omega) (by omega)
      exact ⟨content, hfits.mono (by omega)⟩

/-- Every node of a mapping is a key or a value of it, or is in a collection in front of it. -/
theorem exists_around {block : Block} (h : Sits nodes held values start block) (hid : start ≤ id)
    (hlt : id < start + block.size) :
    (∃ entry ∈ block.pairs start, id ∈ [entry.1, entry.2]) ∨
      ∃ around < id, ∃ content : Content, held[around]? = some content ∧ id ∈ content.children := by
  induction block generalizing start with
  | nil => simp [size] at hlt; omega
  | scalar blanks key value rest ih =>
      obtain ⟨-, -, hrest⟩ := sits_scalar h
      by_cases hfirst : id = start ∨ id = start + 1
      · exact .inl ⟨_, List.mem_cons_self, by simpa using hfirst⟩
      simp only [size] at hlt
      refine (ih hrest (by omega) (by omega)).imp_left ?_
      rintro ⟨entry, hentry, hmem⟩
      exact ⟨entry, List.mem_cons_of_mem _ hentry, hmem⟩
  | items blanks key words rest ih =>
      obtain ⟨-, hlist, -, hrest⟩ := sits_items h
      by_cases hfirst : id = start ∨ id = start + 1
      · exact .inl ⟨_, List.mem_cons_self, by simpa using hfirst⟩
      simp only [size] at hlt
      by_cases hitem : id < start + 2 + words.length
      · refine .inr ⟨start + 1, by omega, _, hlist.2.1, ?_⟩
        simp only [Content.children, List.mem_range'_1]
        omega
      refine (ih hrest (by omega) (by omega)).imp_left ?_
      rintro ⟨entry, hentry, hmem⟩
      exact ⟨entry, List.mem_cons_of_mem _ hentry, hmem⟩
  | nested blanks key inner rest ihinner ihrest =>
      obtain ⟨-, hmapping, hinner, hrest⟩ := sits_nested h
      by_cases hfirst : id = start ∨ id = start + 1
      · exact .inl ⟨_, List.mem_cons_self, by simpa using hfirst⟩
      simp only [size] at hlt
      by_cases hinside : id < start + 2 + inner.size
      · right
        rcases ihinner hinner (by omega) hinside with ⟨entry, hentry, hmem⟩ | haround
        · exact ⟨start + 1, by omega, _, hmapping.2.1, List.mem_flatMap.mpr ⟨entry, hentry, hmem⟩⟩
        · exact haround
      refine (ihrest hrest (by omega) (by omega)).imp_left ?_
      rintro ⟨entry, hentry, hmem⟩
      exact ⟨entry, List.mem_cons_of_mem _ hentry, hmem⟩

/-! ## The whole document -/

/-- What the nodes of a document that is one mapping hold. -/
def documentContents (block : Block) : List Content :=
  .map (block.pairs 1) :: block.contents 1

/-- What they stand for. -/
def documentValues (block : Block) : List Value :=
  .map block.entries :: block.values

theorem length_documentContents (block : Block) :
    block.documentContents.length = 1 + block.size := by
  simp [documentContents, length_contents, Nat.add_comm]

theorem sits_document (block : Block) : Sits (⟨.mapping, .mapping (block.pairs 1)⟩ :: block.nodes 1)
    block.documentContents block.documentValues 1 block :=
  ⟨List.prefix_rfl, List.prefix_rfl, List.prefix_rfl⟩

/-- Every node of a document fits. -/
theorem exists_fits_document {block : Block} (hmeant : block.IsMeant) {id : Nat}
    (hlt : id < block.documentContents.length) :
    ∃ content, Fits (⟨.mapping, .mapping (block.pairs 1)⟩ :: block.nodes 1) block.documentContents
      block.documentValues block.documentContents.length id content := by
  rw [length_documentContents] at hlt ⊢
  by_cases hroot : id = 0
  · subst hroot
    have hfits := @fits_mapping _ _ _ block 0 ⟨rfl, rfl, rfl⟩ block.sits_document hmeant
    exact ⟨_, by simpa using hfits⟩
  · exact exists_fits block.sits_document hmeant (by omega) hlt

theorem describes_document {block : Block} (hmeant : block.IsMeant) :
    block.graph.Describes block.documentContents where
  size := by
    rw [length_documentContents]
    simp [graph, length_nodes, Nat.add_comm]
  node := by
    intro id content hheld
    obtain ⟨content', hfits⟩ := exists_fits_document hmeant (List.getElem?_eq_some_iff.mp hheld).1
    obtain rfl := Option.some.inj (hfits.held_eq.symm.trans hheld)
    exact hfits.holds
  inner := by
    intro id content hheld child hchild
    obtain ⟨content', hfits⟩ := exists_fits_document hmeant (List.getElem?_eq_some_iff.mp hheld).1
    obtain rfl := Option.some.inj (hfits.held_eq.symm.trans hheld)
    exact (hfits.inner child hchild).2
  outer := by
    intro id hlt hne
    rw [length_documentContents] at hlt
    rcases exists_around block.sits_document (Nat.pos_of_ne_zero hne) hlt
      with ⟨entry, hentry, hmem⟩ | haround
    · exact ⟨0, Nat.pos_of_ne_zero hne, _, rfl, List.mem_flatMap.mpr ⟨entry, hentry, hmem⟩⟩
    · exact haround
  keys := by
    intro id entries hheld
    obtain ⟨content', hfits⟩ := exists_fits_document hmeant (List.getElem?_eq_some_iff.mp hheld).1
    exact hfits.keys entries (Option.some.inj (hfits.held_eq.symm.trans hheld))

theorem spells_document {block : Block} (hmeant : block.IsMeant) :
    Spells block.documentContents (block.documentValues.getD · .null) where
  value_eq := by
    intro id content hheld
    obtain ⟨content', hfits⟩ := exists_fits_document hmeant (List.getElem?_eq_some_iff.mp hheld).1
    obtain rfl := Option.some.inj (hfits.held_eq.symm.trans hheld)
    exact hfits.value_eq
  inner := by
    intro id content hheld child hchild
    obtain ⟨content', hfits⟩ := exists_fits_document hmeant (List.getElem?_eq_some_iff.mp hheld).1
    obtain rfl := Option.some.inj (hfits.held_eq.symm.trans hheld)
    exact hfits.inner child hchild

/-- What is read from a document that is one mapping is the mapping. -/
theorem read_document {block : Block} (h : block.IsWritten) (hmeant : block.IsMeant)
    (hnil : block ≠ nil)
    (hdepth : block.height < mostNested) (hallowed : ∀ c ∈ block.document, isAllowed c = true) :
    read (String.ofList block.document) = .ok (.map block.entries) := by
  have hcontents := (describes_document hmeant).contents_eq (by simp [documentContents])
  have hvalue : valueOf (block.documentContents.map some).toArray 0 = .map block.entries :=
    (spells_document hmeant).valueOf_eq (by simp [documentContents])
  rw [read, String.toList_ofList, ofText_document h hnil hallowed, document?_tokens h hdepth]
  simp only [bind, Except.bind, hcontents, hvalue]
  rfl

end Block

end PackageScaffold.Yaml
