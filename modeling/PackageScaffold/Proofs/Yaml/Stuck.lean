import PackageScaffold.Proofs.Yaml.Block

/-!
# Lines that are no entries

A line at the column of a mapping can only be an entry of it, so that it has to begin with a key.  A
line without a colon breaks the document, and so does a quoted text that cannot be read.

* `line_lt_readPlain`: plain text at the end of its line is read past the end of the line;
* `Outline.fault_run_word`: what becomes of a line without a key;
* `Outline.fault_run_quoted`: what becomes of an entry whose text cannot be read.
-/

namespace PackageScaffold.Yaml

/-! ## Cursors go on -/

namespace Cursor

theorem line_le_next (c : Cursor) : c.line ≤ c.next.line := by
  unfold next
  split
  · exact Nat.le_refl _
  · exact Nat.le_refl _
  · split
    · exact Nat.le_succ _
    · exact Nat.le_refl _

theorem line_le_advance (count : Nat) (c : Cursor) : c.line ≤ (c.advance count).line := by
  induction count generalizing c with
  | zero => exact Nat.le_refl _
  | succ count ih => exact Nat.le_trans c.line_le_next (ih c.next)

theorem line_le_lineBreak (c : Cursor) : c.line ≤ c.lineBreak.2.line := by
  unfold lineBreak
  split
  · exact line_le_advance 2 c
  · split
    · exact c.line_le_next
    · split
      · exact c.line_le_next
      · exact Nat.le_refl _
  · exact Nat.le_refl _

end Cursor

theorem line_le_passPlainBreaks (fuel : Nat) (c : Cursor) :
    c.line ≤ (passPlainBreaks fuel c).2.2.line := by
  induction fuel generalizing c with
  | zero => exact Nat.le_refl _
  | succ fuel ih =>
      have hspaces : c.line ≤ c.passSpaces.line := Cursor.line_le_advance _ _
      have hbreak := c.passSpaces.line_le_lineBreak
      unfold passPlainBreaks
      simp only
      split
      · exact hspaces
      · rename_i one after hnonempty hone
        rw [hone] at hbreak
        split
        · exact Nat.le_trans hspaces hbreak
        · exact Nat.le_trans (Nat.le_trans hspaces hbreak) (ih after)

theorem line_le_plainGap (c : Cursor) : c.line ≤ (plainGap c).2.2.line := by
  have hspaces := Cursor.line_le_advance (c.rest.takeWhile (· == ' ')).length c
  have hbreak := (c.advance (c.rest.takeWhile (· == ' ')).length).line_le_lineBreak
  unfold plainGap
  simp only
  split
  · exact hspaces
  · rename_i first after hnonempty hfirst
    rw [hfirst] at hbreak
    have hpass := line_le_passPlainBreaks after.bound after
    split
    · exact Nat.le_trans hspaces hbreak
    · split
      · rename_i hmore
        rw [hmore] at hpass
        exact Nat.le_trans hspaces (Nat.le_trans hbreak hpass)
      · rename_i hmore
        rw [hmore] at hpass
        exact Nat.le_trans hspaces (Nat.le_trans hbreak hpass)

theorem line_le_plainWords (inFlow : Bool) (indent fuel : Nat) (broken : Bool) (c : Cursor) :
    c.line ≤ (plainWords inFlow indent fuel broken c).2.2.line := by
  induction fuel generalizing broken c with
  | zero => exact Nat.le_refl _
  | succ fuel ih =>
      unfold plainWords
      split
      · exact Nat.le_refl _
      · rename_i word hnonempty
        have hadvance := Cursor.line_le_advance (plainWord inFlow c.rest).length c
        have hgap := Nat.le_trans hadvance
          (line_le_plainGap (c.advance (plainWord inFlow c.rest).length))
        simp only
        split
        · exact hgap
        · -- the words behind the gap are read from a cursor that is no further back
          have hmore := ih (plainGap (c.advance (plainWord inFlow c.rest).length)).2.1
            (plainGap (c.advance (plainWord inFlow c.rest).length)).2.2
          split
          · rename_i hwords
            rw [hwords] at hmore
            exact Nat.le_trans hgap hmore
          · rename_i hwords
            rw [hwords] at hmore
            exact Nat.le_trans hgap hmore

/-- Plain text that begins with a word at the end of its line is read past the end of the line. -/
theorem line_lt_readPlain {word text : List Char} (hword : IsWord word) (h : StartsContent text)
    (blanks column indent index line column₀ : Nat) : line <
      (readPlain false indent (.before (word ++ (lineGap blanks column ++ text)) index line
        column₀)).2.2.line := by
  obtain ⟨gap, hgap, hpassed⟩ := plainGap_before h blanks column (index + word.length) line
    (column₀ + word.length)
  obtain ⟨c, rest, hcons⟩ := List.exists_cons_of_ne_nil hword.ne_nil
  have hlater (fuel : Nat) := line_le_plainWords false indent fuel true
    (.before text (index + word.length + (lineGap blanks column).length) (line + blanks + 1) column)
  rw [Cursor.before_line] at hlater
  rw [readPlain, Cursor.bound_before, plainWords, Cursor.before_rest,
    hword.plainWord_append (followsWord_lineGap blanks column text)]
  simp only [hcons]
  rw [← hcons, hword.advance, hpassed]
  simp only
  split
  · exact Nat.lt_succ_of_le (Nat.le_add_right line blanks)
  · split
    · rename_i hwords
      have hle := hlater (word ++ (lineGap blanks column ++ text)).length
      rw [hwords] at hle
      exact Nat.lt_of_lt_of_le (by omega) hle
    · rename_i hwords
      have hle := hlater (word ++ (lineGap blanks column ++ text)).length
      rw [hwords] at hle
      exact Nat.lt_of_lt_of_le (by omega) hle

/-- No document holds a character that is not allowed. -/
theorem Tokens.exists_fault_of_not_allowed {text : List Char} {c : Char} (hmem : c ∈ text)
    (h : isAllowed c = false) : ∃ fault, (Tokens.ofText text).fault = some fault := by
  unfold Tokens.ofText
  split
  · exact ⟨_, rfl⟩
  · rename_i hnone
    exact absurd (by rw [h]; rfl) (List.find?_eq_none.mp hnone c hmem)

namespace Outline

/-! ## A line without a key -/

/-- A required key cannot be given up. -/
theorem dropLateKeys_of_required {o : Outline} {key : PossibleKey} (hkeys : o.keys = [some key])
    (hlate : isLate o.cursor key = true) (hrequired : key.required = true) :
    o.dropLateKeys = .error (.malformed .missingColon) := by
  simp [dropLateKeys, hkeys, hlate, hrequired]

theorem run_of_step_error {o : Outline} {fault : Fault} (h : o.step = .error fault) (fuel : Nat) :
    (run (fuel + 1) o).fault = some fault := by
  rw [run, h]

theorem fault_run_of_required {o : Outline} {key : PossibleKey} (hkeys : o.keys = [some key])
    (hlate : isLate o.cursor key = true) (hrequired : key.required = true) (fuel : Nat) :
    (run (fuel + 1) o).fault = some (.malformed .missingColon) := by
  apply run_of_step_error
  rw [step, dropLateKeys_of_required hkeys hlate hrequired]
  rfl

/-- A word at the column of a mapping, and at the end of its line, is a key without its colon. -/
theorem fault_run_word {o : Outline} {tokens : List Token} {outer : List Nat} {column : Nat}
    {word text : List Char} {blanks column₁ : Nat}
    (h : o.SettlesAt tokens (column :: outer) column (word ++ (lineGap blanks column₁ ++ text)))
    (hword : IsWord word) (htext : StartsContent text) (fuel : Nat) :
    (run (2 + fuel) o).fault = some (.malformed .missingColon) := by
  obtain ⟨index, line, hsettle⟩ := h.settle_eq (by simp)
  have hfollows := followsWord_lineGap blanks column₁ text
  obtain ⟨c, tail, hcons, htake⟩ := takeToken_of_isWord hword hfollows (o := ahead
    (word ++ (lineGap blanks column₁ ++ text)) index line column tokens (column :: outer) true none)
    inFlow_ahead
  have hlater := line_lt_readPlain hword htext blanks column₁ (column + 1) index line column
  have hplain : ∃ o',
      takePlain (ahead (word ++ (lineGap blanks column₁ ++ text)) index line column tokens
      (column :: outer) true none) = .ok o' ∧
      o'.keys = [some (possibleKey tokens (column :: outer) index line column)] ∧
        line < o'.cursor.line := by
    rw [takePlain, noteKey_ahead]
    exact ⟨_, rfl, rfl, hlater⟩
  obtain ⟨o', hplain, hkeys, hline⟩ := hplain
  rw [show 2 + fuel = fuel + 1 + 1 by omega, run_of_settle hsettle hcons (htake.trans hplain)]
  apply fault_run_of_required hkeys
  · simp [isLate, possibleKey]
    omega
  · simp [possibleKey]

/-! ## A text that cannot be read -/

/-- A text that cannot be read in quotes, behind the opening one. -/
def IsUnreadable (body : List Char) (fault : Fault) : Prop :=
  ∀ index line column, readQuoted '"' (.before ('"' :: body) index line column) = .error fault

/-- An entry whose text cannot be read. -/
theorem fault_run_quoted {o : Outline} {tokens : List Token} {outer : List Nat} {column : Nat}
    {key body : List Char} {fault : Fault}
    (h : o.SettlesAt tokens (column :: outer) column (key ++ ':' :: ' ' :: '"' :: body))
    (hkey : IsWord key) (hlength : key.length ≤ 1024) (hbody : IsUnreadable body fault)
    (fuel : Nat) :
    (run (3 + fuel) o).fault = some fault := by
  obtain ⟨index, line, hrun⟩ := run_key h hkey hlength (by rfl) (by simp)
  have hcontent : StartsContent ('"' :: body) := by
    constructor <;> simp [isBreak, startsWithMarker]
  have hread := hbody (index + 1) line (column + key.length + 1 + 1)
  rw [show 3 + fuel = fuel + 1 + 2 by omega, hrun]
  apply run_of_step_error
  rw [step_eq]
  simp only [entered, List.head?_cons, if_true]
  rw [settle_of_space hcontent _ _ _ _ _ _ (by simp; omega)]
  simp only [bind, Except.bind, cursor_ahead, Cursor.before_rest]
  rw [takeToken_quote, takeContent, noteKey_of_not_allowed]
  simp only [bind, Except.bind, cursor_ahead, hread]

end Outline

end PackageScaffold.Yaml
