import Mathlib.Data.List.TakeWhile
import Mathlib.Data.Option.Basic
import PackageScaffold.Json.Reader
import PackageScaffold.Json.Writer

/-!
# Texts and numbers that are read back

In a text of a document only quotes, backslashes and controls are escaped, and the digits of a
number end where its item does.  So what is written for a text or for a whole number is read as it
was, in front of whatever follows in the document.

* `escapeChar_cases`: how a character of a text is written;
* `readText_quote`: a text in quotes is read back;
* `readMagnitude_toDigits`: so are the digits of a number;
* `readValue_quote`, `readValue_wholeText`: both are values.
-/

namespace PackageScaffold.Json

/-! ## Texts -/

/-- The escapes by a letter, each with the character that it stands for. -/
def shortEscapes : List (Char × Char) :=
  [('"', '"'), ('\\', '\\'), ('n', '\n'), ('r', '\r'), ('t', '\t'), ('f', '\x0c'), ('b', '\x08')]

/-- A character is escaped by a letter, by its number, or not at all. -/
theorem escapeChar_cases (c : Char) :
    (∃ name, escapeChar c = ['\\', name] ∧ (name, c) ∈ shortEscapes) ∨
    (c.toNat < 32 ∧ escapeChar c = '\\' :: 'u' :: Text.hex 4 c.toNat) ∨
    (escapeChar c = [c] ∧ c ≠ '"' ∧ c ≠ '\\' ∧ 32 ≤ c.toNat) := by
  by_cases hshort : c ∈ shortEscapes.map Prod.snd
  · obtain ⟨⟨name, _⟩, hmem, rfl⟩ := List.mem_map.mp hshort
    have hall : ∀ pair ∈ shortEscapes, escapeChar pair.2 = ['\\', pair.1] := by decide
    exact .inl ⟨name, hall _ hmem, hmem⟩
  · simp only [shortEscapes, List.map_cons, List.map_nil, List.mem_cons, List.not_mem_nil, or_false,
      not_or] at hshort
    by_cases hcontrol : c.toNat < 32
    · exact .inr (.inl ⟨hcontrol, by simp [escapeChar, hshort, hcontrol]⟩)
    · exact .inr (.inr ⟨by simp [escapeChar, hshort, hcontrol], hshort.1, hshort.2.1,
        Nat.le_of_not_lt hcontrol⟩)

/-- Four digits spell the number of a control. -/
theorem exists_fourDigits {code : Nat} (h : code < 32) :
    ∃ a b c d, Text.hex 4 code = [a, b, c, d] ∧ fourDigits? a b c d = some code := by
  have hall : ∀ code < 32,
      Text.hex 4 code = (List.range 4).map ((Text.hex 4 code).getD · '0') ∧
        fourDigits? ((Text.hex 4 code).getD 0 '0') ((Text.hex 4 code).getD 1 '0')
          ((Text.hex 4 code).getD 2 '0') ((Text.hex 4 code).getD 3 '0') = some code := by
    decide
  exact ⟨_, _, _, _, hall code h⟩

/-- An escaped character is read as it was. -/
theorem readText_escapeChar (c : Char) (rest : List Char) :
    readText none (escapeChar c ++ rest) =
      (readText none rest).map fun read => (c :: read.1, read.2) := by
  rcases escapeChar_cases c with ⟨name, hname, hmem⟩ | ⟨hcode, hhex⟩ |
    ⟨hself, hquote, hslash, hcode⟩
  · rw [hname]
    simp only [shortEscapes, List.mem_cons, List.not_mem_nil, or_false, Prod.mk.injEq] at hmem
    rcases hmem with ⟨rfl, rfl⟩ | ⟨rfl, rfl⟩ | ⟨rfl, rfl⟩ | ⟨rfl, rfl⟩ | ⟨rfl, rfl⟩ | ⟨rfl, rfl⟩ |
      ⟨rfl, rfl⟩
    all_goals cases hread : readText none rest <;> simp [readText, escaped?, hread, guard]
  · obtain ⟨a, b, x, d, hdigits, hfour⟩ := exists_fourDigits hcode
    rw [hhex, hdigits]
    have hfirst : ¬ 0xD800 ≤ c.toNat := by omega
    have hsecond : c.toNat < 0xDC00 := by omega
    cases hread : readText none rest <;> simp [readText, hfour, hread, hfirst, hsecond, guard]
  · rw [hself]
    cases hread : readText none rest <;> simp [readText, hread, hquote, hslash, hcode, guard]

/-- A text in quotes is read as it was. -/
theorem readText_quote (text rest : List Char) :
    readText none (text.flatMap escapeChar ++ '"' :: rest) = some (text, rest) := by
  induction text with
  | nil => simp [readText, guard]
  | cons c text ih =>
      rw [List.flatMap_cons, List.append_assoc, readText_escapeChar, ih]
      rfl

/-! ## Numbers -/

/-- A number ends in front of a text that begins neither with a digit nor with the point or the
exponent of a number. -/
def EndsNumber (rest : List Char) : Prop :=
  ∀ c, rest.head? = some c → c.isDigit = false ∧ c ≠ '.' ∧ c ≠ 'e' ∧ c ≠ 'E'

theorem readFraction_of_ends {rest : List Char} (h : EndsNumber rest) :
    readFraction rest = some (none, rest) := by
  unfold readFraction
  split
  · exact absurd rfl (h '.' rfl).2.1
  · rfl

theorem readExponent_of_ends {rest : List Char} (h : EndsNumber rest) :
    readExponent rest = some (none, rest) := by
  cases rest with
  | nil => rfl
  | cons c rest =>
      obtain ⟨-, -, hlower, hupper⟩ := h c rfl
      simp [readExponent, hlower, hupper]

theorem ofDigits_toDigits (n : Nat) : ofDigits (Nat.toDigits 10 n) = n := by
  have hsame : ofDigits (Nat.toDigits 10 n) = Nat.ofDigitChars 10 (Nat.toDigits 10 n) 0 := by
    unfold ofDigits Nat.ofDigitChars
    congr 1
    funext read digit
    rw [Nat.mul_comm]
    rfl
  rw [hsame, Nat.ofDigitChars_toDigits (by decide) (by decide)]

/-- Only the number zero is written with a zero in front. -/
theorem head?_toDigits {n : Nat} (hn : n ≠ 0) : (Nat.toDigits 10 n).head? ≠ some '0' := by
  induction n using Nat.strongRecOn with
  | ind n ih =>
      by_cases hsmall : n < 10
      · have hall : ∀ n < 10, n ≠ 0 → [Nat.digitChar n].head? ≠ some '0' := by decide
        rw [Nat.toDigits_of_lt_base hsmall]
        exact hall n hsmall hn
      · have hfront := ih (n / 10) (by omega) (by omega)
        rw [Nat.toDigits_of_base_le (by decide) (by omega), List.head?_append]
        cases hhead : (Nat.toDigits 10 (n / 10)).head? with
        | none => exact absurd (List.head?_eq_none_iff.mp hhead) Nat.toDigits_ne_nil
        | some c => rwa [hhead] at hfront

/-- The digits of a number are read as the number. -/
theorem readMagnitude_toDigits (negative : Bool) (n : Nat)
    (hlength : (Nat.toDigits 10 n).length + (if negative then 1 else 0) ≤ 4300) {rest : List Char}
    (hrest : EndsNumber rest) :
    readMagnitude negative (Nat.toDigits 10 n ++ rest) =
      some (.int (if negative then -(n : Int) else n), rest) := by
  have hdigits : ∀ c ∈ Nat.toDigits 10 n, c.isDigit = true := fun c =>
    Nat.isDigit_of_mem_toDigits (by decide) (by decide)
  have hwhole : (Nat.toDigits 10 n ++ rest).takeWhile Char.isDigit = Nat.toDigits 10 n := by
    rw [List.takeWhile_append_of_pos hdigits]
    cases rest with
    | nil => simp
    | cons c rest => simp [(hrest c rfl).1]
  have hplain : (!(Nat.toDigits 10 n).isEmpty && ((Nat.toDigits 10 n).head? != some '0' ||
      (Nat.toDigits 10 n).length == 1)) = true := by
    have hne : Nat.toDigits 10 n ≠ [] := Nat.toDigits_ne_nil
    by_cases hn : n = 0
    · subst hn
      rfl
    · simp [head?_toDigits hn, hne]
  simp only [readMagnitude, hwhole, hplain, hlength, List.drop_left, readFraction_of_ends hrest]
  simp [guard, readExponent_of_ends hrest, ofDigits_toDigits]

/-! ## Blanks -/

theorem passBlanks_append {blanks : List Char} (hblanks : ∀ c ∈ blanks, isBlank c = true)
    (cs : List Char) : passBlanks (blanks ++ cs) = passBlanks cs :=
  List.dropWhile_append_of_pos hblanks

theorem passBlanks_cons {c : Char} (hc : isBlank c = false) (cs : List Char) :
    passBlanks (c :: cs) = c :: cs := by
  simp [passBlanks, hc]

/-- Blanks in front of a value do not count. -/
theorem readValue_blanks {blanks : List Char} (hblanks : ∀ c ∈ blanks, isBlank c = true)
    (levels fuel : Nat) (cs : List Char) :
    readValue levels fuel (blanks ++ cs) = readValue levels fuel cs := by
  cases fuel with
  | zero => rfl
  | succ fuel => simp only [readValue, passBlanks_append hblanks]

theorem readItems_blanks {blanks : List Char} (hblanks : ∀ c ∈ blanks, isBlank c = true)
    (levels fuel : Nat) (cs : List Char) :
    readItems levels fuel (blanks ++ cs) = readItems levels fuel cs := by
  cases fuel with
  | zero => rfl
  | succ fuel => simp only [readItems, readValue_blanks hblanks]

theorem readEntries_blanks {blanks : List Char} (hblanks : ∀ c ∈ blanks, isBlank c = true)
    (levels fuel : Nat) (cs : List Char) :
    readEntries levels fuel (blanks ++ cs) = readEntries levels fuel cs := by
  cases fuel with
  | zero => rfl
  | succ fuel => simp only [readEntries, passBlanks_append hblanks]

/-! ## Scalars -/

theorem readValue_quote (levels fuel : Nat) (text : String) (rest : List Char) :
    readValue levels (fuel + 1) ((quote text).toList ++ rest) = some (.text text, rest) := by
  have hquote : (quote text).toList ++ rest =
      '"' :: (text.toList.flatMap escapeChar ++ '"' :: rest) := by
    simp [quote]
  rw [hquote, readValue, passBlanks_cons (by decide)]
  simp [readText_quote]

/-- A value that begins with a digit is a number. -/
theorem readValue_digits (levels fuel : Nat) {c : Char} (hc : c.isDigit = true) (cs : List Char) :
    readValue levels (fuel + 1) (c :: cs) = readMagnitude false (c :: cs) := by
  have hdigits : ∀ other ∈ [' ', '\t', '\n', '\r', '"', '[', '\x7b', 't', 'f', 'n', 'N', 'I', '-'],
      other.isDigit ≠ true := by
    simp
  have hother : ∀ other ∈ [' ', '\t', '\n', '\r', '"', '[', '\x7b', 't', 'f', 'n', 'N', 'I', '-'],
      c ≠ other := fun other hmem heq => hdigits other hmem (heq ▸ hc)
  simp only [List.forall_mem_cons] at hother
  have hblank : isBlank c = false := by simp [isBlank, hother]
  rw [readValue, passBlanks_cons hblank]
  split <;> simp_all

/-- A value that begins with a sign and a digit is a number as well. -/
theorem readValue_minus (levels fuel : Nat) {c : Char} (hc : c.isDigit = true) (cs : List Char) :
    readValue levels (fuel + 1) ('-' :: c :: cs) = readMagnitude true (c :: cs) := by
  have hinfinite : c ≠ 'I' := by
    rintro rfl
    revert hc
    decide
  rw [readValue, passBlanks_cons (by decide)]
  split <;> simp_all

theorem readValue_wholeText (levels fuel : Nat) {n : Int}
    (hlength : (Value.wholeText n).length ≤ 4300) {rest : List Char} (hrest : EndsNumber rest) :
    readValue levels (fuel + 1) ((Value.wholeText n).toList ++ rest) = some (.int n, rest) := by
  obtain ⟨c, digits, hdigits⟩ := List.exists_cons_of_ne_nil (Nat.toDigits_ne_nil (b := 10)
    (n := n.natAbs))
  have hdigit : c.isDigit = true := Nat.isDigit_of_mem_toDigits (by decide) (by decide)
    (hdigits ▸ List.mem_cons_self)
  have hread := fun negative hlength => readMagnitude_toDigits negative n.natAbs hlength hrest
  rw [hdigits] at hread
  by_cases hn : n < 0
  · have htext : (Value.wholeText n).toList = '-' :: c :: digits := by
      simp [Value.wholeText, hn, hdigits]
    rw [htext, List.cons_append, List.cons_append, readValue_minus levels fuel hdigit]
    rw [← String.length_toList, htext] at hlength
    refine (hread true (by simpa using hlength)).trans ?_
    simp only [if_true]
    rw [show -(n.natAbs : Int) = n by omega]
  · have htext : (Value.wholeText n).toList = c :: digits := by
      simp [Value.wholeText, hn, hdigits]
    rw [htext, List.cons_append, readValue_digits levels fuel hdigit]
    rw [← String.length_toList, htext] at hlength
    refine (hread false (by simpa using hlength)).trans ?_
    simp only [Bool.false_eq_true, if_false]
    rw [show (n.natAbs : Int) = n by omega]

end PackageScaffold.Json
