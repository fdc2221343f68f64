import PackageScaffold.Proofs.Yaml.Line
import PackageScaffold.Value.Basic

/-!
# Block mappings

A block mapping is written entry by entry: a key with a scalar, with a list of words, or with a
mapping of its own.  What it holds is indented by two columns further.  Its tokens are those of its
entries, with the beginnings and ends of the blocks in it.

* `Block`: the entries of a mapping, with how they are written and what they stand for;
* `Block.document`: the text of a document that is one mapping;
* `Block.ofText_document`: its tokens;
* `Block.exists_fault_front`: what happens where nothing can be made of the text behind it.
-/

namespace PackageScaffold.Yaml

/-- A scalar: how it is written behind its colon, the text that is read, and what that
stands for. -/
structure Scalar where
  source : List Char
  text : String
  isPlain : Bool
  value : Value

/-- The entries of a block mapping.  Each stands on lines of its own, behind some blank ones. -/
inductive Block where
  | nil
  | scalar (blanks : Nat) (key : String) (scalar : Scalar) (rest : Block)
  | items (blanks : Nat) (key : String) (words : List String) (rest : Block)
  | nested (blanks : Nat) (key : String) (inner rest : Block)

namespace Block

/-! ## How it is written -/

/-- How far the inside of a block is indented. -/
def indentation : Nat := 2

/-- The items of a list, each on a line of its own. -/
def itemsText (column : Nat) (words : List String) : List Char :=
  words.flatMap fun word => lineGap 0 column ++ '-' :: ' ' :: word.toList

/-- The entries of a mapping at a column, with the ends of the lines in front of them. -/
def text (column : Nat) : Block → List Char
  | nil => []
  | scalar blanks key value rest =>
    lineGap blanks column ++ (key.toList ++ ':' :: ' ' :: (value.source ++ rest.text column))
  | items blanks key words rest =>
    lineGap blanks column ++
      (key.toList ++ ':' :: (itemsText (column + indentation) words ++ rest.text column))
  | nested blanks key inner rest =>
    lineGap blanks column ++
      (key.toList ++ ':' :: (inner.text (column + indentation) ++ rest.text column))

/-- A document that is one mapping.  Its first line has no line in front of it. -/
def document (block : Block) : List Char :=
  (block.text 0).tail ++ ['\n']

/-- A key that is read as one. -/
structure IsKey (key : String) : Prop where
  word : IsWord key.toList
  length : key.toList.length ≤ 1024

instance (key : String) : Decidable (IsKey key) :=
  decidable_of_iff (IsWord key.toList ∧ key.toList.length ≤ 1024)
    ⟨fun ⟨word, length⟩ => ⟨word, length⟩, fun ⟨word, length⟩ => ⟨word, length⟩⟩

/-- Keys and scalars are read as they are meant, and no block is empty. -/
def IsWritten : Block → Prop
  | nil => True
  | scalar _ key value rest =>
    IsKey key ∧ Outline.IsScalar value.source value.text value.isPlain ∧ rest.IsWritten
  | items _ key words rest =>
    IsKey key ∧ words ≠ [] ∧ (∀ word ∈ words, IsWord word.toList) ∧ rest.IsWritten
  | nested _ key inner rest => IsKey key ∧ inner ≠ nil ∧ inner.IsWritten ∧ rest.IsWritten

/-! ## Its tokens -/

/-- A key and the mark of its value. -/
def keyTokens (key : String) : List Token :=
  [.key, .text (.text key) true, .value]

/-- The items of a list. -/
def itemTokens (words : List String) : List Token :=
  words.flatMap fun word => [.blockEntry, .text (.text word) true]

/-- The entries of a mapping. -/
def tokens : Block → List Token
  | nil => []
  | scalar _ key value rest =>
    keyTokens key ++ (.text (.text value.text) value.isPlain :: rest.tokens)
  | items _ key words rest =>
    keyTokens key ++ (.blockList :: (itemTokens words ++ .blockEnd :: rest.tokens))
  | nested _ key inner rest =>
    keyTokens key ++ (.blockMapping :: (inner.tokens ++ .blockEnd :: rest.tokens))

end Block

/-! ## Reading the tokens -/

open Outline

/-- What follows the blocks of a column: the gap in front of a line that is indented no further, and
the text of that line. -/
structure Continues (column : Nat) (tail : List Char) (column₁ : Nat) (text : List Char) : Prop where
  tail_eq : ∃ blanks, tail = lineGap blanks column₁ ++ text
  content : StartsContent text
  le : column₁ ≤ column

/-- From a gap on, an outline reads some tokens and comes to the next gap.  The tokens are those of
entries or items of the block at `column`, which `start` opens if it is not open yet. -/
def Reads (start : Token) (column : Nat) (isNone : Bool) (front : List Char) (read : List Token) :
    Prop :=
  ∀ (tail : List Char) (column₁ : Nat) (text : List Char), Continues column tail column₁ text →
    ∃ column₂ text₂, Continues column (front ++ tail) column₂ text₂ ∧
      (isNone = false → column₂ = column) ∧
      ∀ (o : Outline) (tokens : List Token) (indents : List Nat),
        o.SettlesAt tokens indents column₂ text₂ → (∀ indent ∈ indents.head?, indent ≤ column) →
        (isNone = true → indents.head? = some column) →
        ∃ o' steps, o'.SettlesAt (tokens ++ entering start column indents ++ read)
            (entered column indents) column₁ text ∧
          steps + text.length ≤ text₂.length ∧ ∀ fuel, run (steps + fuel) o = run fuel o'

/-- Where there is nothing to read, nothing is read. -/
theorem Reads.nil (start : Token) (column : Nat) : Reads start column true [] [] := by
  intro tail column₁ text htail
  refine ⟨column₁, text, htail, by simp, fun o tokens indents h hle hopen => ?_⟩
  have hhead := hopen rfl
  exact ⟨o, 0, by simpa [entering, entered, hhead] using h, by omega, fun fuel =>
    by rw [Nat.zero_add]⟩

theorem entering_entered (start : Token) (column : Nat) (indents : List Nat) :
    entering start column (entered column indents) = [] := by
  obtain ⟨outer, houter⟩ := exists_entered column indents
  simp [houter, entering]

theorem entered_entered (column : Nat) (indents : List Nat) :
    entered column (entered column indents) = entered column indents := by
  obtain ⟨outer, houter⟩ := exists_entered column indents
  rw [houter, entered]
  simp

theorem head?_entered (column : Nat) (indents : List Nat) :
    (entered column indents).head? = some column := by
  obtain ⟨outer, houter⟩ := exists_entered column indents
  simp [houter]

/-- An item, and the items behind it. -/
theorem reads_item {column : Nat} {word : String} (hword : IsWord word.toList) {isNone : Bool}
    {front : List Char} {read : List Token} (h : Reads .blockList column isNone front read) :
    Reads .blockList column false (lineGap 0 column ++ '-' :: ' ' :: word.toList ++ front)
      ([.blockEntry, .text (.text word) true] ++ read) := by
  intro tail column₁ text htail
  obtain ⟨column₂, text₂, htail₂, -, hread⟩ := h _ _ _ htail
  obtain ⟨blanks, hgap⟩ := htail₂.tail_eq
  have hcontent : StartsContent ('-' :: ' ' :: (word.toList ++ (front ++ tail))) := by
    constructor <;> simp [isBreak, startsWithMarker]
  refine ⟨column, _, ⟨⟨0, by simp⟩, hcontent, Nat.le_refl _⟩, by simp,
    fun o tokens indents ho hle _ => ?_⟩
  rw [hgap] at ho ⊢
  obtain ⟨o₁, ho₁, hrun₁⟩ := run_item ho hword htail₂.content hle htail₂.le
  obtain ⟨o₂, steps, ho₂, hsteps, hrun₂⟩ :=
    hread _ _ _ ho₁ (by simp [head?_entered]) (by simp [head?_entered])
  rw [entering_entered, entered_entered] at ho₂
  refine ⟨o₂, steps + 2, by simpa using ho₂, ?_, fun fuel => ?_⟩
  · simp
    omega
  · rw [show steps + 2 + fuel = steps + fuel + 2 by omega, hrun₁, hrun₂]

theorem reads_items (column : Nat) {words : List String}
    (hwords : ∀ word ∈ words, IsWord word.toList) :
    Reads .blockList column words.isEmpty (Block.itemsText column words)
      (Block.itemTokens words) := by
  induction words with
  | nil => exact .nil _ _
  | cons word words ih =>
      obtain ⟨hword, hwords⟩ := List.forall_mem_cons.mp hwords
      simpa [Block.itemsText, Block.itemTokens] using reads_item hword (ih hwords)

/-- Behind a colon, an outline reads some tokens and comes to the next gap. -/
def ReadsValue (column : Nat) (written : List Char) (read : List Token) : Prop :=
  ∀ (tail : List Char) (column₁ : Nat) (text : List Char), Continues column tail column₁ text →
    endsWord (written ++ tail) = true ∧
    ∀ (index line column₀ : Nat) (tokens : List Token) (outer : List Nat), column < column₀ →
      ∃ o steps, o.SettlesAt (tokens ++ read) (column :: outer) column₁ text ∧
        steps + text.length ≤ (written ++ tail).length ∧
        ∀ fuel, run (steps + fuel)
          (ahead (written ++ tail) index line column₀ tokens (column :: outer) false none) = run fuel o

theorem readsValue_scalar {source : List Char} {text : String} {isPlain : Bool}
    (h : IsScalar source text isPlain) (column : Nat) :
    ReadsValue column (' ' :: source) [.text (.text text) isPlain] := by
  rintro tail column₁ text₁ ⟨⟨blanks, rfl⟩, hcontent, hle⟩
  refine ⟨rfl, fun index line column₀ tokens outer hlt => ?_⟩
  obtain ⟨o, ho, hrun⟩ := run_scalar h blanks hcontent hle hlt index line tokens outer
  refine ⟨o, 1, ho, ?_, fun fuel => ?_⟩
  · simp
    omega
  · rw [Nat.add_comm]
    exact hrun fuel

/-- A list or a mapping begins below its key and ends in front of a line that is not indented as
far. -/
theorem readsValue_of_reads {start : Token} {column : Nat} {front : List Char} {read : List Token}
    (h : Reads start (column + Block.indentation) false front read) :
    ReadsValue column front (start :: (read ++ [.blockEnd])) := by
  intro tail column₁ text htail
  have hinner : Continues (column + Block.indentation) tail column₁ text :=
    ⟨htail.tail_eq, htail.content, Nat.le_trans htail.le (Nat.le_add_right ..)⟩
  obtain ⟨column₂, text₂, htail₂, hcolumn, hread⟩ := h _ _ _ hinner
  obtain rfl := hcolumn rfl
  obtain ⟨blanks, hgap⟩ := htail₂.tail_eq
  rw [hgap]
  refine ⟨rfl, fun index line column₀ tokens outer hlt => ?_⟩
  have hsettles := settlesAt_of_lineGap htail₂.content blanks (column + Block.indentation)
    index line
    column₀ tokens (column :: outer) false
  have hnew : entering start (column + Block.indentation) (column :: outer) = [start] ∧
      entered (column + Block.indentation) (column :: outer) =
        (column + Block.indentation) :: column :: outer := by
    simp [entering, entered, Block.indentation]
  obtain ⟨o, steps, ho, hsteps, hrun⟩ :=
    hread _ _ _ hsettles (by simp [Block.indentation]) (by simp)
  rw [hnew.1, hnew.2] at ho
  have hclosed := ho.close (Nat.lt_of_le_of_lt htail.le (by simp [Block.indentation]))
  refine ⟨o, steps, by simpa using hclosed, ?_, hrun⟩
  simp
  omega

/-- An entry, and the entries behind it. -/
theorem reads_entry {column blanks : Nat} {key : String} (hkey : Block.IsKey key)
    {written front : List Char} {value read : List Token} {isNone : Bool}
    (hvalue : ReadsValue column written value) (h : Reads .blockMapping column isNone front read) :
    Reads .blockMapping column false (lineGap blanks column ++
      (key.toList ++ ':' :: (written ++ front)))
      (Block.keyTokens key ++ (value ++ read)) := by
  intro tail column₁ text htail
  obtain ⟨column₂, text₂, htail₂, -, hread⟩ := h _ _ _ htail
  obtain ⟨hends, hvalue⟩ := hvalue _ _ _ htail₂
  have hcontent := hkey.word.startsContent_append ⟨':', _, rfl, .inr ⟨rfl, hends⟩⟩
  refine ⟨column, _, ⟨⟨blanks, by simp⟩, hcontent, Nat.le_refl _⟩, by simp,
    fun o tokens indents ho hle _ => ?_⟩
  obtain ⟨index, line, hrun⟩ := run_key ho hkey.word hkey.length hends hle
  rw [String.ofList_toList] at hrun
  obtain ⟨outer, houter⟩ := exists_entered column indents
  obtain ⟨o₁, steps₁, ho₁, hsteps₁, hrun₁⟩ := hvalue index line (column + key.toList.length + 1)
    (tokens ++ entering .blockMapping column indents ++ Block.keyTokens key) outer (by omega)
  obtain ⟨o₂, steps₂, ho₂, hsteps₂, hrun₂⟩ := hread _ _ _ ho₁ (by simp) (by simp)
  have hopen : entering .blockMapping column (column :: outer) = [] ∧
      entered column (column :: outer) = column :: outer := by simp [entering, entered]
  rw [hopen.1, hopen.2] at ho₂
  rw [houter] at hrun ⊢
  refine ⟨o₂, 2 + steps₁ + steps₂, by simpa using ho₂, ?_, fun fuel => ?_⟩
  · have hlong : 0 < key.toList.length := List.length_pos_iff.mpr hkey.word.ne_nil
    simp only [List.length_append, List.length_cons] at hsteps₁ ⊢
    omega
  · rw [show 2 + steps₁ + steps₂ + fuel = steps₁ + (steps₂ + fuel) + 2 by omega, hrun]
    exact (hrun₁ _).trans (hrun₂ _)

namespace Block

/-- Whether a mapping has no entries. -/
def isNil : Block → Bool
  | nil => true
  | _ => false

theorem isNil_eq_false {block : Block} (h : block ≠ nil) : block.isNil = false := by
  cases block with
  | nil => exact absurd rfl h
  | _ => rfl

/-- The entries of a mapping are read one by one. -/
theorem reads_text {block : Block} (h : block.IsWritten) (column : Nat) :
    Reads .blockMapping column block.isNil (block.text column) block.tokens := by
  induction block generalizing column with
  | nil => exact .nil _ _
  | scalar blanks key value rest ih =>
      obtain ⟨hkey, hvalue, hrest⟩ := h
      exact reads_entry hkey (readsValue_scalar hvalue column) (ih hrest column)
  | items blanks key words rest ih =>
      obtain ⟨hkey, hwords, hitems, hrest⟩ := h
      have hread := reads_items (column + indentation) hitems
      rw [List.isEmpty_eq_false_iff.mpr hwords] at hread
      change Reads _ column false _ _
      simpa [text, tokens] using reads_entry hkey (readsValue_of_reads hread) (ih hrest column)
  | nested blanks key inner rest ihinner ihrest =>
      obtain ⟨hkey, hinner, hwritten, hrest⟩ := h
      have hread := ihinner hwritten (column + indentation)
      rw [isNil_eq_false hinner] at hread
      change Reads _ column false _ _
      simpa [text, tokens] using reads_entry hkey (readsValue_of_reads hread) (ihrest hrest column)

/-- A document that begins with a mapping is read up to the gap behind the mapping. -/
theorem exists_run_front {block : Block} (h : block.IsWritten)
    (hnil : block ≠ nil) {tail text : List Char}
    (htail : Continues 0 tail 0 text) :
    ∃ o steps, o.SettlesAt (.blockMapping :: block.tokens) [0] 0 text ∧
      steps + text.length ≤ ((block.text 0).tail ++ tail).length ∧
      ∀ fuel, run (steps + fuel) { cursor := { rest := (block.text 0).tail ++ tail } } =
        run fuel o := by
  obtain ⟨column, text₂, htail₂, hcolumn, hread⟩ := reads_text h 0 _ _ _ htail
  obtain rfl := hcolumn (isNil_eq_false hnil)
  obtain ⟨blanks, hgap⟩ := htail₂.tail_eq
  have hdocument : (block.text 0).tail ++ tail =
      List.replicate blanks '\n' ++ (List.replicate 0 ' ' ++ text₂) := by
    have hne : block.text 0 ≠ [] := by cases block <;> simp_all [Block.text, lineGap]
    rw [← List.tail_append_of_ne_nil hne, hgap]
    simp [lineGap, List.replicate_succ]
  -- the blank lines in front of the first entry are passed
  have hstart : (ahead ((block.text 0).tail ++ tail) 0 0 0 [] [] true none).SettlesAt [] [] 0
      text₂ := by
    refine ⟨0 + blanks + 0, 0 + blanks, ?_⟩
    rw [hdocument, settle_ahead htail₂.content]
    simp
  obtain ⟨o, steps, ho, hsteps, hrun⟩ :=
    hread _ _ _ hstart (by simp) (by simp [isNil_eq_false hnil])
  refine ⟨o, steps, by simpa [entering, entered] using ho, ?_, fun fuel => ?_⟩
  · rw [hdocument]
    simp at hsteps ⊢
    omega
  · rw [show ({ cursor := { rest := (block.text 0).tail ++ tail } } : Outline) =
      ahead ((block.text 0).tail ++ tail) 0 0 0 [] [] true none by simp [ahead, Cursor.before],
        hrun]

/-- The tokens of a document that is one mapping. -/
theorem ofText_document {block : Block} (h : block.IsWritten) (hnil : block ≠ nil)
    (hallowed : ∀ c ∈ block.document, isAllowed c = true) :
    Tokens.ofText block.document =
      { tokens := .blockMapping :: (block.tokens ++ [.blockEnd]) } := by
  have hend : Continues 0 ['\n'] 0 [] := ⟨⟨0, rfl⟩, .nil, Nat.le_refl _⟩
  obtain ⟨o, steps, ho, hsteps, hrun⟩ := exists_run_front h hnil hend
  rw [← document] at hsteps hrun
  have hfuel : block.document.length + 1 = steps + (block.document.length - steps + 1) := by
    simp at hsteps
    omega
  rw [Tokens.ofText, List.find?_eq_none.mpr (by simpa using hallowed)]
  simp only
  rw [hfuel, hrun, run_of_end ho]
  rfl

/-- If nothing can be made of what follows a mapping, the tokens of the document end in a fault. -/
theorem exists_fault_front {block : Block} (h : block.IsWritten)
    (hnil : block ≠ nil) {text : List Char}
    (hcontent : StartsContent text) {fault : Fault} {count : Nat} (hcount : count ≤ text.length + 1)
    (hstuck : ∀ (o : Outline) (tokens : List Token), o.SettlesAt tokens [0] 0 text →
      ∀ fuel, (run (count + fuel) o).fault = some fault) :
    ∃ fault, (Tokens.ofText (block.document ++ text)).fault = some fault := by
  have htail : Continues 0 ('\n' :: text) 0 text := ⟨⟨0, rfl⟩, hcontent, Nat.le_refl _⟩
  have hdocument : (block.text 0).tail ++ '\n' :: text = block.document ++ text := by
    simp [document]
  obtain ⟨o, steps, ho, hsteps, hrun⟩ := exists_run_front h hnil htail
  rw [hdocument] at hsteps hrun
  have hfuel : (block.document ++ text).length + 1 =
      steps + (count + ((block.document ++ text).length + 1 - steps - count)) := by omega
  rw [Tokens.ofText]
  split
  · exact ⟨_, rfl⟩
  · refine ⟨fault, ?_⟩
    rw [hfuel]
    exact (congrArg Tokens.fault (hrun _)).trans (hstuck o _ ho _)

end Block

end PackageScaffold.Yaml
