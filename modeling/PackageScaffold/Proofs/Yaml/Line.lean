import PackageScaffold.Proofs.Yaml.Cursor
import PackageScaffold.Yaml.Outline

/-!
# Reading a mapping line by line

Outside of flow collections, a line of a mapping is a key with its colon and, behind it, a word, a
quoted text, or nothing if its value stands on the lines below.  This file follows an outline over
such lines.

* `Outline.settle`: what a step does before it reads a token;
* `Outline.SettlesAt`: an outline that comes to rest in front of a text;
* `Outline.run_key`, `Outline.run_item`, `Outline.run_scalar`: what is read off the parts of a line;
* `Outline.run_of_end`: what is read at the end of the document.
-/

namespace PackageScaffold.Yaml

namespace Outline

/-! ## Coming to rest -/

/-- What a step does before it reads a token: it moves to the token, and closes the blocks that end
in front of it. -/
def settle (o : Outline) : Except Fault Outline := do
  let o ← o.dropLateKeys
  let o ← o.toNextToken.dropLateKeys
  return o.closeBlocks (some o.cursor.column)

theorem step_eq (o : Outline) : o.step = do
    let o ← o.settle
    match o.cursor.rest with
    | [] => return (← o.finish, true)
    | c :: rest => return (← o.takeToken c rest, false) := by
  unfold step settle
  cases o.dropLateKeys with
  | error fault => rfl
  | ok o =>
      simp only [bind, Except.bind]
      cases o.toNextToken.dropLateKeys <;> rfl

/-- The outline in front of a text, outside of flow collections. -/
def ahead (text : List Char) (index line column : Nat) (tokens : List Token) (indents : List Nat)
    (allowKey : Bool) (key? : Option PossibleKey) : Outline where
  cursor := .before text index line column
  tokens := tokens.toArray
  indents := indents
  allowKey := allowKey
  keys := [key?]

variable {text : List Char} {index line column : Nat} {tokens : List Token} {indents : List Nat}
  {allowKey : Bool} {key? : Option PossibleKey}

@[simp] theorem cursor_ahead : (ahead text index line column tokens indents allowKey key?).cursor =
    .before text index line column := rfl

@[simp] theorem inFlow_ahead :
    (ahead text index line column tokens indents allowKey key?).inFlow = false := rfl

@[simp] theorem key?_ahead :
    (ahead text index line column tokens indents allowKey key?).key? = key? := by
  cases key? <;> rfl

/-- Blocks that begin no further to the right stay open. -/
theorem closeBlocks_of_le (h : ∀ indent ∈ indents.head?, indent ≤ column) :
    (ahead text index line column tokens indents allowKey key?).closeBlocks (some column) =
      ahead text index line column tokens indents allowKey key? := by
  cases indents with
  | nil => rfl
  | cons indent outer =>
      have hle : ¬ column < indent := Nat.not_lt.mpr (h indent rfl)
      simp [closeBlocks, inFlow, ahead, hle]

/-- A block that begins further to the right is closed. -/
theorem closeBlocks_of_lt {indent : Nat} (h : column < indent) :
    (ahead text index line column tokens (indent :: indents) allowKey key?).closeBlocks
      (some column) =
      (ahead text index line column (tokens ++ [.blockEnd]) indents allowKey key?).closeBlocks
        (some column) := by
  simp [closeBlocks, inFlow, ahead, h]

/-- Without possible keys, there is none to give up. -/
theorem dropLateKeys_ahead :
    (ahead text index line column tokens indents allowKey none).dropLateKeys =
      .ok (ahead text index line column tokens indents allowKey none) := rfl

theorem dropLateKeys_of_near {key : PossibleKey}
    (h : isLate (.before text index line column) key = false) :
    (ahead text index line column tokens indents allowKey (some key)).dropLateKeys =
      .ok (ahead text index line column tokens indents allowKey (some key)) := by
  simp [dropLateKeys, ahead, h]

theorem dropLateKeys_of_late {key : PossibleKey}
    (h : isLate (.before text index line column) key = true) (hfree : key.required = false) :
    (ahead text index line column tokens indents allowKey (some key)).dropLateKeys =
      .ok (ahead text index line column tokens indents allowKey none) := by
  simp [dropLateKeys, ahead, h, hfree]

/-- Behind line breaks and spaces, an outline is in front of the text. -/
theorem passBlanks_ahead (h : StartsContent text) (breaks spaces fuel : Nat) :
    passBlanks (breaks + 1 + fuel) (ahead (List.replicate breaks '\n' ++
      (List.replicate spaces ' ' ++ text)) index line column tokens indents allowKey key?) =
      ahead text (index + breaks + spaces) (line + breaks)
        (if breaks = 0 then column + spaces else spaces) tokens indents
        (allowKey || decide (0 < breaks)) key? := by
  induction breaks generalizing index line column allowKey with
  | zero =>
      rw [show 0 + 1 + fuel = fuel + 1 by omega, passBlanks]
      simp only [List.replicate_zero, List.nil_append, cursor_ahead,
        Cursor.passSpaces_before spaces h.space,
        Cursor.passComment_of_head (c := .before text (index + spaces) line (column + spaces))
          h.comment,
        Cursor.lineBreak_of_endsLine (c := .before text (index + spaces) line (column + spaces))
          h.line]
      simp [ahead]
  | succ breaks ih =>
      rw [show breaks + 1 + 1 + fuel = (breaks + 1 + fuel) + 1 by omega, passBlanks,
        List.replicate_succ, List.cons_append]
      simp only [cursor_ahead, Cursor.passSpaces_feed]
      rw [Cursor.passComment_of_head (by simp), Cursor.lineBreak_before_feed]
      have hrest := @ih (index + 1) (line + 1) 0 true
      simp only [ahead, inFlow, List.length_cons, List.length_nil] at hrest ⊢
      simp only [Nat.zero_add, Nat.lt_irrefl, decide_false, Bool.not_false, Bool.or_true, hrest]
      have hindex : index + 1 + breaks + spaces = index + (breaks + 1) + spaces := by omega
      have hline : line + 1 + breaks = line + (breaks + 1) := by omega
      simp [hindex, hline]

theorem toNextToken_ahead (h : StartsContent text) (breaks spaces : Nat) :
    (ahead (List.replicate breaks '\n' ++ (List.replicate spaces ' ' ++ text)) index line
      column tokens
      indents allowKey key?).toNextToken =
      ahead text (index + breaks + spaces) (line + breaks)
        (if breaks = 0 then column + spaces else spaces) tokens indents
        (allowKey || decide (0 < breaks)) key? := by
  have hmark : (List.replicate breaks '\n' ++ (List.replicate spaces ' ' ++ text)).head? ≠
      some '\uFEFF' := by
    cases breaks with
    | zero =>
        cases spaces with
        | zero => simpa using h.mark
        | succ spaces => simp [List.replicate_succ]
    | succ breaks => simp [List.replicate_succ]
  have hbound : (List.replicate breaks '\n' ++ (List.replicate spaces ' ' ++ text)).length + 1 =
      breaks + 1 + (spaces + text.length) := by
    simp
    omega
  have hpass := @passBlanks_ahead _ index line column tokens indents allowKey key? h breaks spaces
    (spaces + text.length)
  rw [toNextToken, cursor_ahead, Cursor.before_rest, if_neg (by rw [beq_false_of_ne hmark]; simp),
    Cursor.bound_before, hbound]
  exact hpass

theorem toNextToken_content (h : StartsContent text) :
    (ahead text index line column tokens indents allowKey key?).toNextToken =
      ahead text index line column tokens indents allowKey key? := by
  simpa using @toNextToken_ahead _ index line column tokens indents allowKey key? h 0 0

/-- Behind line breaks and spaces, an outline comes to rest in front of the text. -/
theorem settle_ahead (h : StartsContent text) (breaks spaces : Nat) :
    (ahead (List.replicate breaks '\n' ++ (List.replicate spaces ' ' ++ text)) index line
      column tokens
      indents allowKey none).settle =
      .ok ((ahead text (index + breaks + spaces) (line + breaks)
        (if breaks = 0 then column + spaces else spaces) tokens indents
        (allowKey || decide (0 < breaks)) none).closeBlocks
          (some (if breaks = 0 then column + spaces else spaces))) := by
  rw [settle, dropLateKeys_ahead]
  change (toNextToken (ahead _ _ _ _ _ _ _ _)).dropLateKeys >>= _ = _
  rw [toNextToken_ahead h, dropLateKeys_ahead]
  rfl

/-- A possible key on the line of the cursor is kept. -/
theorem settle_of_near (h : StartsContent text) {key : PossibleKey}
    (hnear : isLate (.before text index line column) key = false) :
    (ahead text index line column tokens indents allowKey (some key)).settle =
      .ok ((ahead text index line column tokens indents allowKey (some key)).closeBlocks
        (some column)) := by
  rw [settle, dropLateKeys_of_near hnear]
  change (toNextToken (ahead _ _ _ _ _ _ _ _)).dropLateKeys >>= _ = _
  rw [toNextToken_content h, dropLateKeys_of_near hnear]
  rfl

/-- An outline that comes to rest in front of a text, where a key may begin. -/
def SettlesAt (o : Outline) (tokens : List Token) (indents : List Nat) (column : Nat)
    (text : List Char) : Prop :=
  ∃ index line, o.settle =
    .ok ((ahead text index line column tokens indents true none).closeBlocks (some column))

theorem settlesAt_of_lineGap (h : StartsContent text) (blanks column index line column₀ : Nat)
    (tokens : List Token) (indents : List Nat) (allowKey : Bool) :
    (ahead (lineGap blanks column ++ text) index line column₀ tokens indents allowKey
      none).SettlesAt
      tokens indents column text := by
  have hsettle := @settle_ahead _ index line column₀ tokens indents allowKey h (blanks + 1) column
  refine ⟨index + (blanks + 1) + column, line + (blanks + 1), ?_⟩
  rw [lineGap, List.append_assoc, hsettle]
  simp

theorem settlesAt_of_content (h : StartsContent text) (index line column : Nat)
    (tokens : List Token)
    (indents : List Nat) :
    (ahead text index line column tokens indents true none).SettlesAt tokens indents column
      text := by
  refine ⟨index, line, ?_⟩
  simpa using @settle_ahead _ index line column tokens indents true h 0 0

/-- A possible key that stands on an earlier line, and need not be one, is given up. -/
theorem settlesAt_of_late (h : StartsContent text) {key : PossibleKey} (hline : key.line ≠ line)
    (hfree : key.required = false) (index column : Nat) (tokens : List Token) (indents : List Nat) :
    (ahead text index line column tokens indents true (some key)).SettlesAt tokens indents column
      text := by
  refine ⟨index, line, ?_⟩
  rw [settle, dropLateKeys_of_late (by simp [isLate, hline]) hfree]
  change (toNextToken (ahead _ _ _ _ _ _ _ _)).dropLateKeys >>= _ = _
  rw [toNextToken_content h, dropLateKeys_ahead]
  rfl

namespace SettlesAt

variable {o : Outline}

/-- A block that the text does not belong to is closed. -/
theorem close {indent : Nat} (h : o.SettlesAt tokens (indent :: indents) column text)
    (hlt : column < indent) : o.SettlesAt (tokens ++ [.blockEnd]) indents column text := by
  obtain ⟨index, line, hsettle⟩ := h
  exact ⟨index, line, by rw [hsettle, closeBlocks_of_lt hlt]⟩

/-- Where no block ends, nothing is closed. -/
theorem settle_eq (h : o.SettlesAt tokens indents column text)
    (hle : ∀ indent ∈ indents.head?, indent ≤ column) :
    ∃ index line, o.settle = .ok (ahead text index line column tokens indents true none) := by
  obtain ⟨index, line, hsettle⟩ := h
  exact ⟨index, line, by rw [hsettle, closeBlocks_of_le hle]⟩

end SettlesAt

/-! ## Reading tokens -/

/-- A step that comes to rest and reads a token. -/
theorem run_of_settle {o o₁ o₂ : Outline} (hsettle : o.settle = .ok o₁) {c : Char}
    {rest : List Char}
    (hrest : o₁.cursor.rest = c :: rest) (htake : o₁.takeToken c rest = .ok o₂) (fuel : Nat) :
    run (fuel + 1) o = run fuel o₂ := by
  have hstep : o.step = .ok (o₂, false) := by
    rw [step_eq, hsettle]
    simp only [bind, Except.bind, hrest, htake]
    rfl
  rw [run, hstep]

/-- Plain text is read where it can begin. -/
theorem takeToken_of_startsPlain {o : Outline} {c : Char} {rest : List Char}
    (hflow : o.inFlow = false)
    (hstarts : startsPlain false (c :: rest) = true)
    (hmarker : startsWithMarker (c :: rest) = false) :
    o.takeToken c rest = o.takePlain := by
  unfold takeToken
  simp only [hmarker, hflow]
  by_cases hhyphen : c = '-'
  · subst hhyphen
    have hends : endsWord rest = false := by simpa [startsPlain] using hstarts
    simp [hends, hstarts]
  · by_cases hmark : c = '?' ∨ c = ':'
    · have hends : endsWord rest = false := by
        rcases hmark with rfl | rfl <;> simpa [startsPlain] using hstarts
      rcases hmark with rfl | rfl <;> simp [hends, hstarts]
    · simp only [not_or] at hmark
      have hother : (isSpace c || c == ',' || c == '[' || c == ']' || c == '\x7b' || c == '\x7d' ||
          c == '#' || c == '&' || c == '*' || c == '!' || c == '|' || c == '>' || c == '\'' ||
            c == '"' ||
          c == '%' || c == '@' || c == '\x60') = false := by
        simpa [startsPlain, hhyphen, hmark.1, hmark.2] using hstarts
      simp only [Bool.or_eq_false_iff] at hother
      simp [hother, hstarts, hhyphen, hmark]

theorem takeToken_colon {o : Outline} {rest : List Char} (hends : endsWord rest = true) :
    o.takeToken ':' rest = o.takeValue := by
  simp [takeToken, startsWithMarker, hends]

theorem takeToken_hyphen {o : Outline} (rest : List Char) :
    o.takeToken '-' (' ' :: rest) = o.takeBlockEntry := by
  have hends : endsWord (' ' :: rest) = true := rfl
  simp [takeToken, startsWithMarker, hends]

theorem takeToken_quote {o : Outline} (rest : List Char) :
    o.takeToken '"' rest = o.takeContent fun cursor => do
      let (wording, cursor) ← readQuoted '"' cursor
      return (.text wording false, cursor) := by
  simp [takeToken, startsWithMarker]

/-- The possible key that begins behind some tokens. -/
def possibleKey (tokens : List Token) (indents : List Nat) (index line column : Nat) : PossibleKey where
  position := tokens.length
  required := indents.head? == some column
  index := index
  line := line
  column := column

theorem noteKey_ahead : (ahead text index line column tokens indents true none).noteKey =
    .ok (ahead text index line column tokens indents true
      (some (possibleKey tokens indents index line column))) := by
  simp [noteKey, dropKey, setKey, ahead, inFlow, key?, possibleKey, bind, Except.bind, pure,
    Except.pure]

theorem noteKey_of_not_allowed :
    (ahead text index line column tokens indents false key?).noteKey =
      .ok (ahead text index line column tokens indents false key?) := rfl

/-- Plain text is read up to where it ends. -/
theorem takePlain_ahead {word : String} {broken : Bool} {rest : List Char}
    {index' line' column' : Nat}
    {key₁? : Option PossibleKey}
    (hnote : (ahead text index line column tokens indents allowKey key?).noteKey =
      .ok (ahead text index line column tokens indents allowKey key₁?))
    (hread : readPlain false (ahead text index line column tokens indents allowKey
      key₁?).innerColumn
      (.before text index line column) = (word, broken, .before rest index' line' column')) :
    (ahead text index line column tokens indents allowKey key?).takePlain =
      .ok (ahead rest index' line' column' (tokens ++ [.text (.text word) true]) indents broken
        key₁?) := by
  rw [takePlain, hnote]
  simp only [bind, Except.bind, inFlow_ahead, cursor_ahead, hread]
  simp [push, ahead, pure, Except.pure]

/-- The columns of the open blocks once one at the given column is. -/
def entered (column : Nat) (indents : List Nat) : List Nat :=
  if indents.head? = some column then indents else column :: indents

/-- The token that opens a block at a column, unless one is open there. -/
def entering (start : Token) (column : Nat) (indents : List Nat) : List Token :=
  if indents.head? = some column then [] else [start]

theorem exists_entered (column : Nat) (indents : List Nat) :
    ∃ outer, entered column indents = column :: outer := by
  unfold entered
  split
  · obtain ⟨outer, rfl⟩ := List.head?_eq_some_iff.mp ‹_›
    exact ⟨outer, rfl⟩
  · exact ⟨indents, rfl⟩

theorem isNewBlock_ahead {column₀ : Nat} (hle : ∀ indent ∈ indents.head?, indent ≤ column) :
    (ahead text index line column₀ tokens indents allowKey key?).isNewBlock column =
      decide (indents.head? ≠ some column) := by
  cases indents with
  | nil => simp [isNewBlock, innerColumn, ahead]
  | cons indent outer =>
      have hindent : indent ≤ column := hle indent rfl
      have hnew : indent + 1 ≤ column ↔ indent ≠ column := by omega
      simp [isNewBlock, innerColumn, ahead, hnew]

theorem insertIdx_length_append {α : Type} (front back : List α) (x : α) :
    (front ++ back).insertIdx front.length x = front ++ x :: back := by
  induction front with
  | nil => rfl
  | cons y front ih => simp [ih]

/-- A colon makes the possible key in front of it a key. -/
theorem takeValue_ahead {rest : List Char} {key : PossibleKey} {text : Token}
    (hposition : key.position = tokens.length) (hcolumn : key.column = column)
    (hle : ∀ indent ∈ indents.head?, indent ≤ column) (index line column₀ : Nat) :
    (ahead (':' :: rest) index line column₀ (tokens ++ [text]) indents allowKey
      (some key)).takeValue = .ok (ahead rest (index + 1) line (column₀ + 1)
        (tokens ++ entering .blockMapping column indents ++ [.key, text, .value])
        (entered column indents) false none) := by
  have hnew := @isNewBlock_ahead (':' :: rest) index line column (tokens ++ [text]) indents allowKey
    (some key) column₀ hle
  have hcursor : (Cursor.before (':' :: rest) index line column₀).advance 1 =
      .before rest (index + 1) line (column₀ + 1) :=
    Cursor.next_before (c := ':') (by decide) (by decide)
  have hinsert := insertIdx_length_append tokens [text] .key
  rw [takeValue, key?_ahead]
  simp only [hcolumn, hnew, inFlow_ahead, Bool.not_false, Bool.true_and]
  by_cases hhead : indents.head? = some column
  · simp [hhead, setKey, insertAt, ahead, take, entered, entering, hposition, hcursor, pure,
      Except.pure, hinsert]
  · have hinsert' := insertIdx_length_append tokens [.key, text] .blockMapping
    simp [hhead, setKey, insertAt, ahead, take, entered, entering, hposition, hcursor, pure,
      Except.pure, hinsert, hinsert']

/-- A hyphen begins an item, and a list if none is open there. -/
theorem takeBlockEntry_ahead {rest : List Char} (hle : ∀ indent ∈ indents.head?, indent ≤ column) :
    (ahead ('-' :: rest) index line column tokens indents true none).takeBlockEntry =
      .ok (ahead rest (index + 1) line (column + 1)
        (tokens ++ entering .blockList column indents ++ [.blockEntry])
          (entered column indents) true
        none) := by
  have hnew := @isNewBlock_ahead ('-' :: rest) index line column tokens indents true none column hle
  have hcursor : (Cursor.before ('-' :: rest) index line column).advance 1 =
      .before rest (index + 1) line (column + 1) :=
    Cursor.next_before (c := '-') (by decide) (by decide)
  rw [takeBlockEntry, openAtCursor]
  simp only [inFlow_ahead, cursor_ahead, Cursor.before_column, openBlock, hnew]
  by_cases hhead : indents.head? = some column
  · simp [hhead, dropKey, key?, setKey, take, ahead, entered, entering, hcursor, bind,
      Except.bind, pure, Except.pure]
  · simp [hhead, dropKey, key?, setKey, take, ahead, entered, entering, hcursor, bind,
      Except.bind, pure, Except.pure]

/-! ## The parts of a line -/

/-- A key and its colon. -/
theorem run_key {o : Outline} {key rest : List Char}
    (h : o.SettlesAt tokens indents column (key ++ ':' :: rest)) (hkey : IsWord key)
    (hlength : key.length ≤ 1024) (hends : endsWord rest = true)
    (hle : ∀ indent ∈ indents.head?, indent ≤ column) :
    ∃ index line, ∀ fuel, run (fuel + 2) o =
      run fuel (ahead rest index line (column + key.length + 1)
      (tokens ++ entering .blockMapping column indents ++
        [.key, .text (.text (String.ofList key)) true, .value]) (entered column indents) false
          none) := by
  obtain ⟨index, line, hsettle⟩ := h.settle_eq hle
  obtain ⟨c, tail, hcons⟩ := List.exists_cons_of_ne_nil hkey.ne_nil
  have hcontent := hkey.startsContent_append ⟨':', rest, rfl, .inr ⟨rfl, hends⟩⟩
  -- the word is read as plain text, and may turn out to be a key
  have hplain := takePlain_ahead (@noteKey_ahead (key ++ ':' :: rest) index line column tokens
    indents)
    (readPlain_of_colon hkey hends _ index line column)
  have hfirst : ∀ fuel, run (fuel + 1) o = run fuel _ := @run_of_settle o _ _ hsettle c
    (tail ++ ':' :: rest) (by simp [hcons]) (by
      rw [takeToken_of_startsPlain inFlow_ahead (by simpa [hcons] using hkey.startsPlain_append _)
        (by simpa [hcons] using hcontent.marker)]
      exact hplain)
  -- the colon behind it is on the same line
  have hcolon : StartsContent (':' :: rest) := by
    constructor <;> simp [isBreak, startsWithMarker]
  have hsecond := @settle_of_near _ (index + key.length) line (column + key.length)
    (tokens ++ [.text (.text (String.ofList key)) true]) indents false hcolon
    (possibleKey tokens indents index line column) (by simp [isLate, possibleKey]; omega)
  rw [closeBlocks_of_le fun indent hindent => Nat.le_trans (hle indent hindent) (by omega)]
    at hsecond
  have hvalue := @takeValue_ahead column tokens indents false rest
    (possibleKey tokens indents index line column) (.text (.text (String.ofList key)) true)
      rfl rfl hle
    (index + key.length) line (column + key.length)
  exact ⟨index + key.length + 1, line, fun fuel => by
    rw [hfirst, run_of_settle hsecond rfl ((takeToken_colon hends).trans hvalue)]⟩

/-- A space in front of content is passed. -/
theorem settle_of_space (h : StartsContent text) (index line column : Nat) (tokens : List Token)
    (indents : List Nat) (allowKey : Bool) (hle : ∀ indent ∈ indents.head?, indent ≤ column) :
    (ahead (' ' :: text) index line column tokens indents allowKey none).settle =
      .ok (ahead text (index + 1) line (column + 1) tokens indents allowKey none) := by
  have hsettle := @settle_ahead _ index line column tokens indents allowKey h 0 1
  simp only [List.replicate_zero, List.nil_append, List.replicate_one, List.singleton_append,
    if_true, Nat.add_zero, Nat.lt_irrefl, decide_false, Bool.or_false] at hsettle
  rw [hsettle, closeBlocks_of_le fun indent hindent => Nat.le_succ_of_le (hle indent hindent)]

/-- A word is read as plain text. -/
theorem takeToken_of_isWord {word rest : List Char} (hword : IsWord word)
    (hfollows : FollowsWord rest)
    {o : Outline} (hflow : o.inFlow = false) :
    ∃ c tail, word ++ rest = c :: tail ∧ o.takeToken c tail = o.takePlain := by
  obtain ⟨c, tail, hcons⟩ := List.exists_cons_of_ne_nil hword.ne_nil
  refine ⟨c, tail ++ rest, by rw [hcons]; rfl, takeToken_of_startsPlain hflow ?_ ?_⟩
  · simpa [hcons] using hword.startsPlain_append rest
  · simpa [hcons] using startsWithMarker_append hword.marker hfollows

/-- A word behind a colon, and the rest of its line. -/
theorem run_word {word : List Char} (hword : IsWord word) {blanks column column₁ : Nat}
    (htext : StartsContent text) (hle : column₁ ≤ column) {column₀ : Nat} (hlt : column < column₀)
    (index line : Nat) (tokens : List Token) (outer : List Nat) :
    ∃ o, o.SettlesAt (tokens ++ [.text (.text (String.ofList word)) true]) (column :: outer) column₁
      text ∧ ∀ fuel, run (fuel + 1) (ahead (' ' :: (word ++ (lineGap blanks column₁ ++ text)))
        index line
        column₀ tokens (column :: outer) false none) = run fuel o := by
  have hfollows := followsWord_lineGap blanks column₁ text
  have hsettle := settle_of_space (hword.startsContent_append hfollows) index line column₀ tokens
    (column :: outer) false (by simp; omega)
  have hplain := takePlain_ahead (@noteKey_of_not_allowed (word ++ (lineGap blanks column₁ ++ text))
    (index + 1) line (column₀ + 1) tokens (column :: outer) none)
    (readPlain_of_lineGap hword htext (Nat.lt_succ_of_le hle) _ _ _)
  obtain ⟨c, tail, hcons, htake⟩ := takeToken_of_isWord hword hfollows (o := ahead
    (word ++ (lineGap blanks column₁ ++ text)) (index + 1) line (column₀ + 1) tokens
      (column :: outer)
    false none) inFlow_ahead
  exact ⟨_, settlesAt_of_content htext _ _ _ _ _, run_of_settle hsettle hcons (htake.trans hplain)⟩

/-- An item of a list that is one word. -/
theorem run_item {o : Outline} {word : List Char} {blanks column column₁ : Nat}
    (h : o.SettlesAt tokens indents column
      ('-' :: ' ' :: (word ++ (lineGap blanks column₁ ++ text))))
    (hword : IsWord word) (htext : StartsContent text)
    (hle : ∀ indent ∈ indents.head?, indent ≤ column)
    (hcolumn : column₁ ≤ column) :
    ∃ o', o'.SettlesAt (tokens ++ entering .blockList column indents ++
        [.blockEntry, .text (.text (String.ofList word)) true]) (entered column indents)
          column₁ text ∧
      ∀ fuel, run (fuel + 2) o = run fuel o' := by
  obtain ⟨index, line, hsettle⟩ := h.settle_eq hle
  obtain ⟨outer, houter⟩ := exists_entered column indents
  have hfollows := followsWord_lineGap blanks column₁ text
  have hfirst := run_of_settle hsettle rfl
    ((takeToken_hyphen _).trans (takeBlockEntry_ahead hle))
  rw [houter] at hfirst ⊢
  have hsecond := settle_of_space (hword.startsContent_append hfollows) (index + 1) line
    (column + 1)
    (tokens ++ entering .blockList column indents ++ [.blockEntry]) (column :: outer) true (by simp)
  -- the word might be a key, but no colon follows it on its line
  have hplain := takePlain_ahead (@noteKey_ahead (word ++ (lineGap blanks column₁ ++ text))
    (index + 2)
    line (column + 2) (tokens ++ entering .blockList column indents ++ [.blockEntry])
      (column :: outer))
    (readPlain_of_lineGap hword htext (Nat.lt_succ_of_le hcolumn) _ _ _)
  obtain ⟨c, tail, hcons, htake⟩ := takeToken_of_isWord hword hfollows (o := ahead
    (word ++ (lineGap blanks column₁ ++ text)) (index + 2) line (column + 2)
    (tokens ++ entering .blockList column indents ++ [.blockEntry]) (column :: outer) true none)
    inFlow_ahead
  have hlate := @settlesAt_of_late _ (line + blanks + 1) htext
    (possibleKey (tokens ++ entering .blockList column indents ++ [.blockEntry]) (column :: outer)
      (index + 2) line (column + 2)) (by simp [possibleKey]; omega) (by simp [possibleKey])
    (index + 2 + word.length + (lineGap blanks column₁).length) column₁
    (tokens ++ entering .blockList column indents ++ [.blockEntry] ++
      [.text (.text (String.ofList word)) true]) (column :: outer)
  refine ⟨_, by simpa using hlate, fun fuel => ?_⟩
  rw [hfirst, run_of_settle hsecond hcons (htake.trans hplain)]
  simp

/-- A text that is read in quotes, behind the opening one. -/
def IsQuoted (body : List Char) (text : String) : Prop :=
  ∀ rest index line column, ∃ index' line' column',
    readQuoted '"' (.before ('"' :: (body ++ rest)) index line column) =
      .ok (.text text, .before rest index' line' column')

/-- A quoted text behind a colon, and the rest of its line. -/
theorem run_quoted {body : List Char} {quoted : String} (hquoted : IsQuoted body quoted)
    (htext : StartsContent text) (blanks column column₁ : Nat) {column₀ : Nat}
    (hlt : column < column₀)
    (index line : Nat) (tokens : List Token) (outer : List Nat) :
    ∃ o, o.SettlesAt (tokens ++ [.text (.text quoted) false]) (column :: outer) column₁ text ∧
      ∀ fuel, run (fuel + 1) (ahead (' ' :: '"' :: (body ++ (lineGap blanks column₁ ++ text)))
        index line
        column₀ tokens (column :: outer) false none) = run fuel o := by
  have hcontent : StartsContent ('"' :: (body ++ (lineGap blanks column₁ ++ text))) := by
    constructor <;> simp [isBreak, startsWithMarker]
  have hsettle := settle_of_space hcontent index line column₀ tokens (column :: outer) false
    (by simp; omega)
  obtain ⟨index', line', column', hread⟩ :=
    hquoted (lineGap blanks column₁ ++ text) (index + 1) line
    (column₀ + 1)
  refine ⟨_, settlesAt_of_lineGap htext blanks column₁ index' line' column' _ _ false,
    run_of_settle hsettle rfl ((takeToken_quote _).trans ?_)⟩
  rw [takeContent, noteKey_of_not_allowed]
  simp only [bind, Except.bind, cursor_ahead, hread]
  simp [push, ahead, pure, Except.pure]

/-! ## Scalars -/

/-- A text that is written behind a colon, and what is read off it: a word or a quoted text. -/
inductive IsScalar : List Char → String → Bool → Prop
  | word {word : List Char} (h : IsWord word) : IsScalar word (String.ofList word) true
  | quoted {body : List Char} {text : String} (h : IsQuoted body text) : IsScalar ('"' :: body) text false

/-- A scalar behind a colon, and the rest of its line. -/
theorem run_scalar {source : List Char} {scalar : String} {isPlain : Bool}
    (h : IsScalar source scalar isPlain) (blanks : Nat) {column column₁ : Nat}
    (htext : StartsContent text)
    (hle : column₁ ≤ column) {column₀ : Nat} (hlt : column < column₀) (index line : Nat)
    (tokens : List Token) (outer : List Nat) :
    ∃ o, o.SettlesAt (tokens ++ [.text (.text scalar) isPlain]) (column :: outer) column₁ text ∧
      ∀ fuel, run (fuel + 1) (ahead (' ' :: (source ++ (lineGap blanks column₁ ++ text))) index line
        column₀ tokens (column :: outer) false none) = run fuel o := by
  cases h with
  | word hword => exact run_word hword htext hle hlt index line tokens outer
  | quoted hquoted =>
      exact run_quoted hquoted htext blanks column column₁ hlt index line tokens outer

/-- At the end of the document, the outermost block is closed. -/
theorem run_of_end {o : Outline} (h : o.SettlesAt tokens [0] 0 []) (fuel : Nat) :
    run (fuel + 1) o = { tokens := tokens ++ [.blockEnd] } := by
  obtain ⟨index, line, hsettle⟩ := h.settle_eq (by simp)
  have hstep : o.step =
      .ok (ahead [] index line 0 (tokens ++ [.blockEnd]) [] true none, true) := by
    rw [step_eq, hsettle]
    simp [finish, closeBlocks, inFlow, dropKey, key?, setKey, ahead, bind, Except.bind, pure,
      Except.pure]
  rw [run, hstep]
  simp [ahead]

end Outline

end PackageScaffold.Yaml
