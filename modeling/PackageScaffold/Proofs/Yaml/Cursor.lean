import PackageScaffold.Yaml.Scalar.Plain

/-!
# Moving along a text

Where a cursor gets to in a text whose beginning is known: past a word, past spaces, and past the
gap between two lines.

* `Cursor.before`: the cursor in front of a text;
* `IsWord`: text that is read as one plain word;
* `lineGap`, `StartsContent`: the end of a line with the blank lines behind it, and what stands on
  the next line;
* `readPlain_of_colon`, `readPlain_of_lineGap`: a word in front of a colon, and at the end of a line.
-/

namespace PackageScaffold.Yaml

/-! ## Characters -/

/-- What holds of every character of a text is decided along the text, not along all characters. -/
instance (priority := 2000) decidableForallMemText (p : Char → Prop) [DecidablePred p]
    (text : List Char) :
    Decidable (∀ c ∈ text, p c) :=
  List.decidableBAll p text

/-- The same where there is at most one character. -/
instance (priority := 2000) decidableForallMemHead (p : Char → Prop) [DecidablePred p]
    (head : Option Char) :
    Decidable (∀ c ∈ head, p c) :=
  Option.decidableForallMem head

/-! ## Cursors -/

/-- The cursor in front of a text. -/
def Cursor.before (text : List Char) (index line column : Nat) : Cursor where
  rest := text
  size := index + text.length
  index := index
  line := line
  column := column

namespace Cursor

variable {text : List Char} {index line column : Nat}

@[simp] theorem before_rest : (before text index line column).rest = text := rfl

@[simp] theorem before_index : (before text index line column).index = index := rfl

@[simp] theorem before_line : (before text index line column).line = line := rfl

@[simp] theorem before_column : (before text index line column).column = column := rfl

@[simp] theorem bound_before : (before text index line column).bound = text.length + 1 := by
  simp [bound, before]

/-- A character that ends no line takes a column. -/
theorem next_before {c : Char} (hbreak : isBreak c = false) (hmark : c ≠ '\uFEFF') :
    (before (c :: text) index line column).next = before text (index + 1) line (column + 1) := by
  unfold next before
  split
  · rename_i hnil
    simp at hnil
  · rename_i rest hrest
    obtain ⟨rfl, -⟩ := List.cons.inj hrest
    simp [isBreak] at hbreak
  · rename_i char rest hother hrest
    obtain ⟨rfl, rfl⟩ := List.cons.inj hrest
    simp [hbreak, hmark, Nat.add_comm, Nat.add_left_comm]

theorem next_before_feed :
    (before ('\n' :: text) index line column).next = before text (index + 1) (line + 1) 0 := by
  simp [next, before, isBreak, Nat.add_comm, Nat.add_left_comm]

/-- Whatever the next character is, the cursor moves past it. -/
theorem exists_next_before (c : Char) (text : List Char) (index line column : Nat) :
    ∃ line' column', line ≤ line' ∧
      (before (c :: text) index line column).next = before text (index + 1) line' column' := by
  unfold next before
  split
  · rename_i hnil
    simp at hnil
  · rename_i rest hrest
    obtain ⟨rfl, rfl⟩ := List.cons.inj hrest
    exact ⟨line, column + 1, Nat.le_refl _, by simp [Nat.add_comm, Nat.add_left_comm]⟩
  · rename_i char rest hother hrest
    obtain ⟨rfl, rfl⟩ := List.cons.inj hrest
    by_cases hbreak : isBreak c
    · exact ⟨line + 1, 0, Nat.le_succ _, by simp [hbreak, Nat.add_comm, Nat.add_left_comm]⟩
    · exact ⟨line, _, Nat.le_refl _, by simp [hbreak, Nat.add_comm, Nat.add_left_comm]; rfl⟩

theorem exists_advance_before (word text : List Char) (index line column : Nat) :
    ∃ line' column', line ≤ line' ∧ (before (word ++ text) index line column).advance word.length =
      before text (index + word.length) line' column' := by
  induction word generalizing index line column with
  | nil => exact ⟨line, column, Nat.le_refl _, rfl⟩
  | cons c word ih =>
      obtain ⟨line₁, column₁, hline₁, hnext⟩ :=
        exists_next_before c (word ++ text) index line column
      obtain ⟨line₂, column₂, hline₂, hrest⟩ := ih (index + 1) line₁ column₁
      refine ⟨line₂, column₂, Nat.le_trans hline₁ hline₂, ?_⟩
      rw [List.cons_append, List.length_cons, advance, hnext, hrest, Nat.add_assoc, Nat.add_comm 1]

/-- Past characters that end no line, the cursor stays on its line. -/
theorem advance_before {word : List Char}
    (hword : ∀ c ∈ word, isBreak c = false ∧ c ≠ '\uFEFF') :
    (before (word ++ text) index line column).advance word.length =
      before text (index + word.length) line (column + word.length) := by
  induction word generalizing index column with
  | nil => rfl
  | cons c word ih =>
      obtain ⟨⟨hbreak, hmark⟩, hword⟩ := List.forall_mem_cons.mp hword
      rw [List.cons_append, List.length_cons, advance, next_before hbreak hmark, ih hword]
      congr 1 <;> omega

/-! ### Spaces and the ends of lines -/

theorem lineBreak_before_feed : (before ('\n' :: text) index line column).lineBreak =
    (['\n'], before text (index + 1) (line + 1) 0) := by
  rw [← @next_before_feed text index line column]
  simp [lineBreak, before, isBreak]

theorem lineBreak_of_endsLine {c : Cursor} (h : ∀ char ∈ c.rest.head?, isBreak char = false) :
    c.lineBreak = ([], c) := by
  unfold lineBreak
  split
  · rename_i rest hrest
    simp [hrest, isBreak] at h
  · rename_i char rest hother hrest
    have hbreak : isBreak char = false := h char (by simp [hrest])
    have hseparator : (char == '\u2028' || char == '\u2029') = false := by
      simp only [isBreak, Bool.or_eq_false_iff] at hbreak
      simp [hbreak.1.2, hbreak.2]
    simp [hseparator, hbreak]
  · rfl

theorem passSpaces_before (spaces : Nat) (h : text.head? ≠ some ' ') :
    (before (List.replicate spaces ' ' ++ text) index line column).passSpaces =
      before text (index + spaces) line (column + spaces) := by
  have htake : (List.replicate spaces ' ' ++ text).takeWhile (· == ' ') =
      List.replicate spaces ' ' := by
    induction spaces with
    | zero =>
        cases text with
        | nil => rfl
        | cons c text =>
            have hc : c ≠ ' ' := by simpa using h
            simp [hc]
    | succ spaces ih => simpa [List.replicate_succ] using ih
  have hadvance := @advance_before text index line column (List.replicate spaces ' ')
    (by simp [isBreak])
  rw [List.length_replicate] at hadvance
  rw [passSpaces, passWhile, before_rest, htake, List.length_replicate, hadvance]

@[simp] theorem passSpaces_feed : (before ('\n' :: text) index line column).passSpaces =
    before ('\n' :: text) index line column := by
  simpa using @passSpaces_before ('\n' :: text) index line column 0 (by simp)

theorem passComment_of_head {c : Cursor} (h : c.rest.head? ≠ some '#') : c.passComment = c := by
  rw [passComment, if_neg (by simpa using h)]

end Cursor

/-! ## Content -/

/-- A text that begins with something to be read: no blank, no comment, no line that separates
documents; or with nothing. -/
structure StartsContent (text : List Char) : Prop where
  space : text.head? ≠ some ' '
  comment : text.head? ≠ some '#'
  line : ∀ c ∈ text.head?, isBreak c = false
  mark : text.head? ≠ some '\uFEFF'
  marker : startsWithMarker text = false

theorem StartsContent.nil : StartsContent [] := by
  constructor <;> decide

/-! ## Words -/

/-- A text that is read as one plain word, by itself and in front of a colon or the end of a
line. -/
structure IsWord (word : List Char) : Prop where
  starts : startsPlain false word = true
  inner : ∀ c ∈ word, isSpace c = false ∧ c ≠ '\uFEFF'
  last : word.getLast? ≠ some ':'
  marker : startsWithMarker word = false

instance (word : List Char) : Decidable (IsWord word) :=
  decidable_of_iff (startsPlain false word = true ∧
    (∀ c ∈ word, isSpace c = false ∧ c ≠ '\uFEFF') ∧ word.getLast? ≠ some ':' ∧
    startsWithMarker word = false)
    ⟨fun ⟨starts, inner, last, marker⟩ => ⟨starts, inner, last, marker⟩,
      fun ⟨starts, inner, last, marker⟩ => ⟨starts, inner, last, marker⟩⟩

variable {text : List Char}

/-- What may follow a plain word: the end of its line, or the colon behind a key. -/
def FollowsWord (text : List Char) : Prop :=
  ∃ c rest, text = c :: rest ∧ (isSpace c = true ∨ c = ':' ∧ endsWord rest = true)

theorem FollowsWord.ne (h : FollowsWord text) {c : Char} {rest : List Char}
    (htext : text = c :: rest) :
    c ≠ '-' ∧ c ≠ '.' := by
  obtain ⟨_, _, hcons, hfollows⟩ := h
  obtain ⟨rfl, rfl⟩ := List.cons.inj (htext.symm.trans hcons)
  rcases hfollows with hspace | ⟨rfl, -⟩
  · constructor <;> rintro rfl <;> exact absurd hspace (by decide)
  · decide

theorem startsWithMarker_cons_cons_cons (a b c : Char) (rest : List Char) :
    startsWithMarker (a :: b :: c :: rest) =
      (decide (a = '-' ∧ b = '-' ∧ c = '-' ∨ a = '.' ∧ b = '.' ∧ c = '.') && endsWord rest) := by
  unfold startsWithMarker
  split
  · simp_all
  · simp_all
  · rename_i hhyphens hdots
    have hnone : ¬ (a = '-' ∧ b = '-' ∧ c = '-' ∨ a = '.' ∧ b = '.' ∧ c = '.') := by
      rintro (⟨rfl, rfl, rfl⟩ | ⟨rfl, rfl, rfl⟩)
      · exact hhyphens rest rfl
      · exact hdots rest rfl
    rw [decide_eq_false hnone, Bool.false_and]

/-- A word is no line that separates documents because of what follows it. -/
theorem startsWithMarker_append {word : List Char} (hword : startsWithMarker word = false)
    (hfollows : FollowsWord text) : startsWithMarker (word ++ text) = false := by
  obtain ⟨c, rest, rfl, -⟩ := id hfollows
  obtain ⟨hhyphen, hdot⟩ := hfollows.ne rfl
  rcases word with _ | ⟨a, _ | ⟨b, _ | ⟨d, more⟩⟩⟩
  · unfold startsWithMarker
    split <;> simp_all
  · unfold startsWithMarker
    split <;> simp_all
  · rw [List.cons_append, List.cons_append, List.nil_append, startsWithMarker_cons_cons_cons]
    simp [hhyphen, hdot]
  · rw [startsWithMarker_cons_cons_cons] at hword
    rw [List.cons_append, List.cons_append, List.cons_append, startsWithMarker_cons_cons_cons]
    rcases more with _ | ⟨e, more⟩
    · rw [show endsWord [] = true from rfl, Bool.and_true] at hword
      rw [hword, Bool.false_and]
    · exact hword

theorem isBreak_of_isSpace {c : Char} (h : isSpace c = false) : isBreak c = false := by
  simp only [isSpace, Bool.or_eq_false_iff] at h
  exact h.2

namespace IsWord

variable {word : List Char}

theorem ne_nil (h : IsWord word) : word ≠ [] := by
  rintro rfl
  exact absurd h.starts (by decide)

/-- A word ends where it is followed by what may follow it. -/
theorem plainWord_append (h : IsWord word) (hfollows : FollowsWord text) :
    plainWord false (word ++ text) = word := by
  obtain ⟨-, hinner, hlast, -⟩ := h
  induction word with
  | nil =>
      obtain ⟨c, rest, rfl, hspace | ⟨rfl, hends⟩⟩ := hfollows
      · simp [plainWord, hspace]
      · simp [plainWord, colonEnds, hends]
  | cons c word ih =>
      obtain ⟨⟨hspace, -⟩, hinner⟩ := List.forall_mem_cons.mp hinner
      have hgoes : (c == ':' && colonEnds false (word ++ text)) = false := by
        rcases word with _ | ⟨d, word⟩
        · have hcolon : c ≠ ':' := by simpa using hlast
          simp [hcolon]
        · have hnext : isSpace d = false := (hinner d List.mem_cons_self).1
          simp [colonEnds, endsWord, endsOr, hnext]
      rw [List.cons_append, plainWord, hspace, hgoes]
      rcases word with _ | ⟨d, word⟩
      · simpa using ih (by simp) (by simp)
      · rw [ih hinner (by simpa using hlast)]
        rfl

theorem startsPlain_append (h : IsWord word) (text : List Char) :
    startsPlain false (word ++ text) = true := by
  obtain ⟨hstarts, -, -, -⟩ := h
  rcases word with _ | ⟨c, _ | ⟨d, word⟩⟩
  · simp [startsPlain] at hstarts
  · by_cases hindicator : c = '-' ∨ c = '?' ∨ c = ':'
    · rcases hindicator with rfl | rfl | rfl <;> simp [startsPlain, endsWord, endsOr] at hstarts
    · -- other characters begin plain text whatever follows
      simp only [not_or] at hindicator
      simpa [startsPlain, hindicator.1, hindicator.2.1, hindicator.2.2] using hstarts
  · exact hstarts

/-- A word and what may follow it are content. -/
theorem startsContent_append (h : IsWord word) (hfollows : FollowsWord text) :
    StartsContent (word ++ text) := by
  obtain ⟨c, tail, rfl⟩ := List.exists_cons_of_ne_nil h.ne_nil
  obtain ⟨hspace, hmark⟩ := h.inner c List.mem_cons_self
  refine ⟨?_, ?_, ?_, by simpa using hmark, startsWithMarker_append h.marker hfollows⟩
  · rintro hc
    obtain rfl : c = ' ' := by simpa using hc
    exact absurd hspace (by decide)
  · rintro hc
    obtain rfl : c = '#' := by simpa using hc
    simpa [startsPlain] using h.starts
  · simpa using isBreak_of_isSpace hspace

/-- The cursor stays on the line of a word. -/
theorem advance (h : IsWord word) (text : List Char) (index line column : Nat) :
    (Cursor.before (word ++ text) index line column).advance word.length =
      Cursor.before text (index + word.length) line (column + word.length) :=
  Cursor.advance_before fun c hc => ⟨isBreak_of_isSpace (h.inner c hc).1, (h.inner c hc).2⟩

end IsWord

/-! ## Gaps between lines -/

/-- The end of a line, the blank lines behind it, and the indentation of the next one. -/
def lineGap (blanks column : Nat) : List Char :=
  List.replicate (blanks + 1) '\n' ++ List.replicate column ' '

/-- No line that separates documents begins in a gap. -/
theorem StartsContent.marker_blanks {text : List Char} (h : StartsContent text)
    (breaks spaces : Nat) :
    startsWithMarker (List.replicate breaks '\n' ++ (List.replicate spaces ' ' ++ text)) =
      false := by
  cases breaks with
  | zero =>
      cases spaces with
      | zero => exact h.marker
      | succ spaces => rfl
  | succ breaks => rfl

/-- Behind line breaks and spaces, the cursor is in front of the text. -/
theorem passPlainBreaks_before {text : List Char} (h : StartsContent text) (breaks spaces fuel index
    line column : Nat) :
    passPlainBreaks (breaks + 1 + fuel)
      (.before (List.replicate breaks '\n' ++ (List.replicate spaces ' ' ++ text)) index line
        column) =
      (List.replicate breaks '\n', false, .before text (index + breaks + spaces) (line + breaks)
        (if breaks = 0 then column + spaces else spaces)) := by
  induction breaks generalizing index line column with
  | zero =>
      rw [show 0 + 1 + fuel = fuel + 1 by omega, passPlainBreaks]
      simp only [List.replicate_zero, List.nil_append, Cursor.passSpaces_before spaces h.space,
        Cursor.lineBreak_of_endsLine (c := .before text (index + spaces) line (column + spaces))
          h.line]
      simp
  | succ breaks ih =>
      rw [show breaks + 1 + 1 + fuel = (breaks + 1 + fuel) + 1 by omega, passPlainBreaks,
        List.replicate_succ, List.cons_append]
      simp only [Cursor.passSpaces_feed, Cursor.lineBreak_before_feed, Cursor.before_rest,
        h.marker_blanks breaks spaces, ih (index + 1) (line + 1) 0]
      simp only [Bool.false_eq_true, if_false, List.singleton_append, Prod.mk.injEq, true_and]
      congr 1
      · omega
      · omega
      · split <;> simp

/-- The gap behind a word, up to a line that is indented as given. -/
theorem plainGap_before {text : List Char} (h : StartsContent text) (blanks column index line
    column₀ : Nat) :
    ∃ gap, gap ≠ [] ∧ plainGap (.before (lineGap blanks column ++ text) index line column₀) =
      (gap, true, .before text (index + (lineGap blanks column).length) (line + blanks + 1)
        column) := by
  refine ⟨folded ['\n'] (List.replicate blanks '\n'), ?_, ?_⟩
  · cases blanks with
    | zero => simp [folded]
    | succ blanks => simp [folded, List.replicate_succ]
  · have hgap : lineGap blanks column ++ text =
        '\n' :: (List.replicate blanks '\n' ++ (List.replicate column ' ' ++ text)) := by
      simp [lineGap, List.replicate_succ]
    have hpass := passPlainBreaks_before h blanks column (column + text.length) (index + 1)
      (line + 1) 0
    have hbound : (Cursor.before (List.replicate blanks '\n' ++ (List.replicate column ' ' ++ text))
        (index + 1) (line + 1) 0).bound = blanks + 1 + (column + text.length) := by
      simp
      omega
    rw [plainGap, hgap, Cursor.before_rest, List.takeWhile_cons_of_neg (by decide), List.length_nil,
      Cursor.advance]
    simp only [Cursor.lineBreak_before_feed, Cursor.before_rest, h.marker_blanks blanks column,
      hbound, hpass]
    simp only [Bool.false_eq_true, if_false, Prod.mk.injEq, true_and]
    congr 1
    · simp [lineGap]
      omega
    · omega
    · split <;> simp

theorem followsWord_lineGap (blanks column : Nat) (text : List Char) :
    FollowsWord (lineGap blanks column ++ text) :=
  ⟨'\n', _, by rw [lineGap, List.replicate_succ]; rfl, .inl (by decide)⟩

/-- A word at the end of its line, in front of a line that is not indented far enough to go on with
it. -/
theorem readPlain_of_lineGap {word text : List Char} (hword : IsWord word) (h : StartsContent text)
    {blanks column indent : Nat} (hcolumn : column < indent) (index line column₀ : Nat) :
    readPlain false indent (.before (word ++ (lineGap blanks column ++ text)) index line column₀) =
      (String.ofList word, true, .before text (index + word.length + (lineGap blanks column).length)
        (line + blanks + 1) column) := by
  obtain ⟨gap, hgap, hpassed⟩ := plainGap_before h blanks column (index + word.length) line
    (column₀ + word.length)
  obtain ⟨c, rest, hcons⟩ := List.exists_cons_of_ne_nil hword.ne_nil
  rw [readPlain, Cursor.bound_before, plainWords, Cursor.before_rest,
    hword.plainWord_append (followsWord_lineGap blanks column text)]
  simp only [hcons]
  rw [← hcons, hword.advance, hpassed]
  simp [hcolumn]

/-- A word in front of the colon that makes it a key. -/
theorem readPlain_of_colon {word rest : List Char} (hword : IsWord word) (h : endsWord rest = true)
    (indent index line column : Nat) :
    readPlain false indent (.before (word ++ ':' :: rest) index line column) =
      (String.ofList word, false,
        .before (':' :: rest) (index + word.length) line (column + word.length)) := by
  obtain ⟨c, tail, hcons⟩ := List.exists_cons_of_ne_nil hword.ne_nil
  have hpassed (index column : Nat) : plainGap (.before (':' :: rest) index line column) =
      ([], false, .before (':' :: rest) index line column) := by
    rw [plainGap, Cursor.before_rest, List.takeWhile_cons_of_neg (by decide), List.length_nil,
      Cursor.advance]
    simp [Cursor.lineBreak_of_endsLine (c := .before (':' :: rest) index line column)
      (by simp [isBreak])]
  rw [readPlain, Cursor.bound_before, plainWords, Cursor.before_rest,
    hword.plainWord_append ⟨':', rest, rfl, .inr ⟨rfl, h⟩⟩]
  simp only [hcons]
  rw [← hcons, hword.advance, hpassed]
  simp

end PackageScaffold.Yaml
