import PackageScaffold.Proofs.Except
import PackageScaffold.Proofs.Yaml.Block
import PackageScaffold.Yaml.Grammar

/-!
# The nodes of a block mapping

The graph of a document that is one mapping is a tree, and its nodes stand in the order in which
they are written: each collection in front of what it holds.

* `Block.nodes`, `Block.pairs`: the nodes of a mapping, and the numbers of its keys and values;
* `Block.graph`: the graph of a document that is one mapping;
* `Block.document?_tokens`: what the grammar makes of its tokens.
-/

namespace PackageScaffold.Yaml

/-- The node of a scalar. -/
def scalarNode (text : String) (isPlain : Bool) : Node :=
  ⟨textTag (.text text) isPlain none, .text (.text text)⟩

namespace Block

/-! ## Nodes -/

/-- How many nodes the entries of a mapping have. -/
def size : Block → Nat
  | nil => 0
  | scalar _ _ _ rest => 2 + rest.size
  | items _ _ words rest => 2 + words.length + rest.size
  | nested _ _ inner rest => 2 + inner.size + rest.size

/-- How deep the mappings and lists in a mapping go. -/
def height : Block → Nat
  | nil => 0
  | scalar _ _ _ rest => rest.height
  | items _ _ _ rest => max 1 rest.height
  | nested _ _ inner rest => max (inner.height + 1) rest.height

/-- The numbers of the keys and values of a mapping, whose first key has the number `start`. -/
def pairs (start : Nat) : Block → List (NodeId × NodeId)
  | nil => []
  | scalar _ _ _ rest => (start, start + 1) :: rest.pairs (start + 2)
  | items _ _ words rest => (start, start + 1) :: rest.pairs (start + 2 + words.length)
  | nested _ _ inner rest => (start, start + 1) :: rest.pairs (start + 2 + inner.size)

/-- The nodes of the entries of a mapping, of which the first has the number `start`. -/
def nodes (start : Nat) : Block → List Node
  | nil => []
  | scalar _ key value rest =>
    scalarNode key true :: scalarNode value.text value.isPlain :: rest.nodes (start + 2)
  | items _ key words rest =>
    scalarNode key true :: ⟨.list, .list (List.range' (start + 2) words.length)⟩ ::
      (words.map (scalarNode · true) ++ rest.nodes (start + 2 + words.length))
  | nested _ key inner rest =>
    scalarNode key true :: ⟨.mapping, .mapping (inner.pairs (start + 2))⟩ ::
      (inner.nodes (start + 2) ++ rest.nodes (start + 2 + inner.size))

/-- The graph of a document that is one mapping. -/
def graph (block : Block) : Graph :=
  ⟨(⟨.mapping, .mapping (block.pairs 1)⟩ :: block.nodes 1).toArray⟩

theorem length_nodes (block : Block) (start : Nat) : (block.nodes start).length = block.size := by
  induction block generalizing start with
  | nil => rfl
  | scalar blanks key value rest ih => simp [nodes, size, ih]; omega
  | items blanks key words rest ih => simp [nodes, size, ih]; omega
  | nested blanks key inner rest ihinner ihrest => simp [nodes, size, ihinner, ihrest]; omega

end Block

/-! ## Reading tokens -/

/-- What is known in front of some tokens, in a document without tags and anchors. -/
def reader (tokens : List Token) (nodes : List Node) (depth : Nat) (fault : Option Fault) : Reader where
  tokens := tokens
  fault := fault
  handles := standardHandles
  graph := ⟨nodes.toArray⟩
  depth := depth

variable {tokens : List Token} {nodes : List Node} {depth : Nat} {fault : Option Fault}

theorem peek_reader (token : Token) : peek.run (reader (token :: tokens) nodes depth fault) =
    .ok (some token, reader (token :: tokens) nodes depth fault) := rfl

theorem pass_reader (token : Token) : pass.run (reader (token :: tokens) nodes depth fault) =
    .ok ((), reader tokens nodes depth fault) := rfl

theorem addNode_reader (node : Node) : (addNode node).run (reader tokens nodes depth fault) =
    .ok (nodes.length, reader tokens (nodes ++ [node]) depth fault) := by
  have hadd : (⟨nodes.toArray⟩ : Graph).add node = ⟨(nodes ++ [node]).toArray⟩ := by
    simp [Graph.add]
  rw [reader, reader, ← hadd]
  rfl

theorem passIf_head (token : Token) :
    (passIf token).run (reader (token :: tokens) nodes depth fault) =
      .ok (true, reader tokens nodes depth fault) := by
  rw [passIf, run_bind_ok (peek_reader token), if_pos (beq_self_eq_true _)]
  rfl

theorem passIf_of_ne {token first : Token} (h : first ≠ token) :
    (passIf token).run (reader (first :: tokens) nodes depth fault) =
      .ok (false, reader (first :: tokens) nodes depth fault) := by
  rw [passIf, run_bind_ok (peek_reader first), if_neg (by simpa using h)]
  rfl

theorem isNext_reader (token : Token) (others : List Token) :
    (isNext others).run (reader (token :: tokens) nodes depth fault) =
      .ok (others.contains token, reader (token :: tokens) nodes depth fault) := by
  rw [isNext, run_bind_ok (peek_reader token)]
  rfl

theorem readProperties_reader {token : Token} (hanchor : ∀ name, token ≠ .anchor name)
    (htag : ∀ tag, token ≠ .tag tag) :
    readProperties.run (reader (token :: tokens) nodes depth fault) =
      .ok ((none, none), reader (token :: tokens) nodes depth fault) := by
  rw [readProperties, run_bind_ok (peek_reader token)]
  cases token with
  | anchor name => exact absurd rfl (hanchor name)
  | tag tag => exact absurd rfl (htag tag)
  | _ => rfl

/-- Without properties in front of it, a text is a node. -/
theorem readNode_text (inBlock afterKey : Bool) (fuel : Nat) (text : String) (isPlain : Bool) :
    (readNode inBlock afterKey (fuel + 1)).run
      (reader (.text (.text text) isPlain :: tokens) nodes depth fault) =
      .ok (nodes.length, reader tokens (nodes ++ [scalarNode text isPlain]) depth fault) := by
  rw [readNode, run_bind_ok (peek_reader _)]
  simp only
  rw [run_bind_ok (readProperties_reader (by simp) (by simp)), run_bind_ok (peek_reader _)]
  simp only [checkAnchor, pure_bind]
  rw [run_bind_ok (pass_reader _), addText, scalarNode, run_bind_ok (addNode_reader _)]
  rfl

theorem modify_length_append {α : Type} (front back : List α) (x : α) (f : α → α) :
    (front ++ x :: back).modify front.length f = front ++ f x :: back := by
  induction front with
  | nil => rfl
  | cons y front ih => simp [ih]

/-- A collection is added in front of what it holds, and filled when that is read. -/
theorem addCollection_reader {α : Type} (tag : Tag) (body : List α → Body) {read : Reading (List α)}
    (hdepth : depth < mostNested) {content : List α} {rest : List Token} {inner : List Node}
    (hread : read.run (reader tokens (nodes ++ [⟨tag, body []⟩]) (depth + 1) fault) =
      .ok (content, reader rest (nodes ++ ⟨tag, body []⟩ :: inner) (depth + 1) fault)) :
    (addCollection none tag body read).run (reader tokens nodes depth fault) =
      .ok (nodes.length, reader rest (nodes ++ ⟨tag, body content⟩ :: inner) depth fault) := by
  have hset : (⟨(nodes ++ ⟨tag, body []⟩ :: inner).toArray⟩ : Graph).setBody nodes.length
      (body content) = ⟨(nodes ++ ⟨tag, body content⟩ :: inner).toArray⟩ := by
    rw [Graph.setBody, List.modify_toArray, modify_length_append]
  rw [addCollection, run_bind_ok (addNode_reader _)]
  simp only [remember, pure_bind]
  rw [run_bind_ok (a := reader tokens (nodes ++ [⟨tag, body []⟩]) depth fault) rfl,
    if_neg (by simpa [reader] using hdepth),
    run_bind_ok (a := ()) (t := reader tokens (nodes ++ [⟨tag, body []⟩]) (depth + 1) fault) rfl,
    run_bind_ok hread,
    run_bind_ok (a := ()) (t := reader rest (nodes ++ ⟨tag, body content⟩ :: inner) depth fault)]
  · rfl
  · rw [reader, reader, ← hset]
    rfl

/-! ## Reading blocks -/

theorem readNode_blockMapping (afterKey : Bool) (fuel : Nat) :
    (readNode true afterKey (fuel + 1)).run (reader (.blockMapping :: tokens) nodes depth fault) =
      (addCollection none .mapping .mapping (readBlockEntries fuel)).run
        (reader tokens nodes depth fault) := by
  rw [readNode, run_bind_ok (peek_reader _)]
  simp only
  rw [run_bind_ok (readProperties_reader (by simp) (by simp)), run_bind_ok (peek_reader _)]
  simp only [checkAnchor, pure_bind]
  rw [run_bind_ok (pass_reader _)]
  rfl

theorem readNode_blockList (afterKey : Bool) (fuel : Nat) :
    (readNode true afterKey (fuel + 1)).run (reader (.blockList :: tokens) nodes depth fault) =
      (addCollection none .list .list (readBlockItems fuel)).run
        (reader tokens nodes depth fault) := by
  rw [readNode, run_bind_ok (peek_reader _)]
  simp only
  rw [run_bind_ok (readProperties_reader (by simp) (by simp)), run_bind_ok (peek_reader _)]
  simp only [checkAnchor, pure_bind]
  rw [run_bind_ok (pass_reader _)]
  rfl

theorem readBlockEntries_end (fuel : Nat) :
    (readBlockEntries (fuel + 1)).run (reader (.blockEnd :: tokens) nodes depth fault) =
      .ok ([], reader tokens nodes depth fault) := by
  rw [readBlockEntries, run_bind_ok (passIf_of_ne (by simp)), if_neg (by simp),
    run_bind_ok (passIf_head _)]
  rfl

/-- An entry of a block mapping, whose value begins with a token of its own. -/
theorem readBlockEntries_entry {fuel : Nat} (rest : List Token) (key : String) (first : Token)
    (value : List Token) (hfirst : first ∉ [.key, .value, .blockEnd]) (added : List Node)
    (hvalue : (readNode true true (fuel + 1)).run
      (reader (first :: value ++ rest) (nodes ++ [scalarNode key true]) depth fault) =
        .ok (nodes.length + 1, reader rest (nodes ++ scalarNode key true :: added) depth fault))
    {more : List (NodeId × NodeId)} {r : Reader}
    (hmore : (readBlockEntries (fuel + 1)).run
      (reader rest (nodes ++ scalarNode key true :: added) depth fault) = .ok (more, r)) :
    (readBlockEntries (fuel + 2)).run
        (reader (Block.keyTokens key ++ (first :: value ++ rest)) nodes depth fault) =
      .ok ((nodes.length, nodes.length + 1) :: more, r) := by
  have hfirst' : [Token.key, .value, .blockEnd].contains first = false := by simpa using hfirst
  rw [readBlockEntries, Block.keyTokens, List.cons_append, run_bind_ok (passIf_head _), if_pos rfl,
    List.cons_append, run_bind_ok (isNext_reader _ _)]
  simp only
  rw [if_neg (by simp), run_bind_ok (readNode_text true true fuel key true), List.cons_append,
    run_bind_ok (passIf_head _), if_pos rfl, List.nil_append, List.cons_append,
    run_bind_ok (isNext_reader _ _), hfirst', if_neg (by simp)]
  rw [List.cons_append] at hvalue
  rw [run_bind_ok hvalue, run_bind_ok hmore]
  rfl

theorem readBlockItems_item {fuel : Nat} {word : String} {more : List NodeId} {r : Reader}
    (hmore : (readBlockItems (fuel + 1)).run
      (reader tokens (nodes ++ [scalarNode word true]) depth fault) = .ok (more, r)) :
    (readBlockItems (fuel + 2)).run
        (reader (.blockEntry :: .text (.text word) true :: tokens) nodes depth fault) =
      .ok (nodes.length :: more, r) := by
  rw [readBlockItems, run_bind_ok (passIf_head _), if_pos rfl, run_bind_ok (isNext_reader _ _)]
  simp only
  rw [if_neg (by simp), run_bind_ok (readNode_text true false fuel word true), run_bind_ok hmore]
  rfl

theorem readBlockItems_end (fuel : Nat) :
    (readBlockItems (fuel + 1)).run (reader (.blockEnd :: tokens) nodes depth fault) =
      .ok ([], reader tokens nodes depth fault) := by
  rw [readBlockItems, run_bind_ok (passIf_of_ne (by simp)), if_neg (by simp),
    run_bind_ok (passIf_head _)]
  rfl

namespace Block

theorem length_itemTokens (words : List String) : (itemTokens words).length = 2 * words.length := by
  induction words with
  | nil => rfl
  | cons word words ih =>
      rw [itemTokens, List.flatMap_cons, ← itemTokens, List.length_append, ih]
      simp
      omega

/-- The items of a list of words. -/
theorem readBlockItems_itemTokens (words : List String) {fuel : Nat} (hfuel : words.length < fuel) :
    (readBlockItems fuel).run (reader (itemTokens words ++ .blockEnd :: tokens) nodes depth fault) =
      .ok (List.range' nodes.length words.length,
        reader tokens (nodes ++ words.map (scalarNode · true)) depth fault) := by
  induction words generalizing nodes fuel with
  | nil =>
      obtain ⟨fuel, rfl⟩ := Nat.exists_eq_succ_of_ne_zero (Nat.ne_of_gt hfuel)
      simpa [itemTokens] using readBlockItems_end fuel
  | cons word words ih =>
      obtain ⟨fuel, rfl⟩ : ∃ fuel', fuel = fuel' + 2 := ⟨fuel - 2, by simp at hfuel; omega⟩
      have hmore := @ih (nodes ++ [scalarNode word true]) (fuel + 1) (by simp at hfuel; omega)
      have hitem := readBlockItems_item hmore
      simpa [itemTokens, List.range'_succ] using hitem

/-- The entries of a mapping. -/
theorem readBlockEntries_tokens (block : Block) (h : block.IsWritten) {fuel : Nat}
    (hfuel : block.tokens.length < fuel) (hdepth : depth + block.height ≤ mostNested) :
    (readBlockEntries fuel).run (reader (block.tokens ++ .blockEnd :: tokens) nodes depth fault) =
      .ok (block.pairs nodes.length,
        reader tokens (nodes ++ block.nodes nodes.length) depth fault) := by
  induction block generalizing nodes depth fuel tokens with
  | nil =>
      obtain ⟨fuel, rfl⟩ := Nat.exists_eq_succ_of_ne_zero (Nat.ne_of_gt hfuel)
      simpa [Block.tokens, pairs, Block.nodes] using readBlockEntries_end fuel
  | scalar blanks key value rest ih =>
      obtain ⟨hkey, hvalue, hrest⟩ := h
      simp only [Block.tokens, keyTokens, List.length_append, List.length_cons, List.length_nil]
        at hfuel
      obtain ⟨fuel, rfl⟩ : ∃ fuel', fuel = fuel' + 2 := ⟨fuel - 2, by omega⟩
      -- an entry is the node behind its key, read first, and then the entries behind it
      have hread := @readNode_text (rest.tokens ++ .blockEnd :: tokens)
        (nodes ++ [scalarNode key true])
        depth fault true true fuel value.text value.isPlain
      have hmore := @ih tokens (nodes ++ [scalarNode key true, scalarNode value.text value.isPlain])
        depth
        hrest (fuel + 1) (by omega) hdepth
      have hentry := readBlockEntries_entry (rest.tokens ++ .blockEnd :: tokens) key
        (.text (.text value.text) value.isPlain) [] (by simp) [scalarNode value.text value.isPlain]
        (by simpa using hread) hmore
      simpa [Block.tokens, pairs, Block.nodes] using hentry
  | items blanks key words rest ih =>
      obtain ⟨hkey, hwords, hitems, hrest⟩ := h
      simp only [height] at hdepth
      simp only [Block.tokens, keyTokens, List.length_append, List.length_cons, List.length_nil,
        length_itemTokens] at hfuel
      obtain ⟨fuel, rfl⟩ : ∃ fuel', fuel = fuel' + 2 := ⟨fuel - 2, by omega⟩
      have hitems := @readBlockItems_itemTokens (rest.tokens ++ .blockEnd :: tokens)
        (nodes ++ [scalarNode key true, ⟨.list, .list []⟩]) (depth + 1) fault words fuel (by omega)
      have hread := @addCollection_reader _ (nodes ++ [scalarNode key true]) depth fault _
        .list .list _
        (by omega) _ _ _ (by simpa using hitems)
      rw [← readNode_blockList true] at hread
      have hmore := @ih tokens (nodes ++ scalarNode key true :: ⟨.list, .list (List.range'
        (nodes.length + 2) words.length)⟩ :: words.map (scalarNode · true)) depth hrest (fuel + 1)
        (by omega) (by omega)
      have hlength : (nodes ++ scalarNode key true :: ⟨.list, .list (List.range' (nodes.length + 2)
          words.length)⟩ :: words.map (scalarNode · true)).length =
            nodes.length + 2 + words.length := by
        simp
        omega
      rw [hlength] at hmore
      have hentry := readBlockEntries_entry _ key .blockList (itemTokens words ++ [.blockEnd])
        (by simp) _
        (by simpa using hread) hmore
      simpa [Block.tokens, pairs, Block.nodes] using hentry
  | nested blanks key inner rest ihinner ihrest =>
      obtain ⟨hkey, hinner, hwritten, hrest⟩ := h
      simp only [height] at hdepth
      simp only [Block.tokens, keyTokens, List.length_append, List.length_cons, List.length_nil]
        at hfuel
      obtain ⟨fuel, rfl⟩ : ∃ fuel', fuel = fuel' + 2 := ⟨fuel - 2, by omega⟩
      have hentries := @ihinner (rest.tokens ++ .blockEnd :: tokens)
        (nodes ++ [scalarNode key true, ⟨.mapping, .mapping []⟩]) (depth + 1) hwritten fuel
          (by omega)
        (by omega)
      have hread := @addCollection_reader _ (nodes ++ [scalarNode key true]) depth fault _ .mapping
        .mapping
        _ (by omega) _ _ _ (by simpa using hentries)
      rw [← readNode_blockMapping true] at hread
      have hmore := @ihrest tokens (nodes ++ scalarNode key true ::
        ⟨.mapping, .mapping (inner.pairs (nodes.length + 2))⟩ :: inner.nodes (nodes.length + 2))
          depth
        hrest (fuel + 1) (by omega) (by omega)
      have hlength : (nodes ++ scalarNode key true :: ⟨.mapping, .mapping (inner.pairs
          (nodes.length + 2))⟩ :: inner.nodes (nodes.length + 2)).length =
          nodes.length + 2 + inner.size := by
        simp [length_nodes]
        omega
      rw [hlength] at hmore
      have hentry := readBlockEntries_entry _ key .blockMapping (inner.tokens ++ [.blockEnd])
        (by simp) _
        (by simpa using hread) (by simpa using hmore)
      simpa [Block.tokens, pairs, Block.nodes] using hentry

/-- The document that the tokens of a mapping spell. -/
theorem document?_tokens {block : Block} (h : block.IsWritten)
    (hdepth : block.height < mostNested) :
    ({ tokens := .blockMapping :: (block.tokens ++ [.blockEnd]) } : Tokens).document? =
      .ok (some { graph := block.graph, root := 0 }) := by
  have hentries := @readBlockEntries_tokens [] [⟨.mapping, .mapping []⟩] 1 none block h
    (4 * (block.tokens.length + 2) + 3) (by omega) (by omega)
  have hread := @addCollection_reader _ [] 0 none _ .mapping .mapping _ (by decide) _ _ _ hentries
  rw [← readNode_blockMapping false] at hread
  have hroot : (readRoot (4 * (block.tokens.length + 2) + 4)).run
      { tokens := .blockMapping :: (block.tokens ++ [.blockEnd]), fault := none } =
      .ok (some 0, reader [] (⟨.mapping, .mapping (block.pairs 1)⟩ :: block.nodes 1) 0 none) := by
    rw [readRoot, run_bind_ok (a := some .blockMapping) (t := { tokens := _, fault := none }) rfl]
    simp only
    rw [run_bind_ok (a := ()) (t := reader (.blockMapping :: (block.tokens ++ [.blockEnd])) [] 0
      none) rfl,
      run_bind_ok hread]
    rfl
  rw [Tokens.document?, show (Token.blockMapping :: (block.tokens ++ [Token.blockEnd])).length =
    block.tokens.length + 2 by simp]
  simp only [hroot]
  rfl

end Block

end PackageScaffold.Yaml
