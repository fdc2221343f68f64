import PackageScaffold.Proofs.Yaml.Cursor
import PackageScaffold.Proofs.Yaml.Mapping
import PackageScaffold.Yaml.Resolution

/-!
# Mappings that are read as they are written

Plain text that begins with neither a digit nor one of a few signs is no number and no date, so that
it is a text unless it is one of the words for truth values and for nothing.  A text that is one
word, and means itself, needs no quotes.  A mapping of such texts, and of scalars that are read as
they are meant, is read as it is written.

* `Tag.ofPlain_of_begins`: the meaning of a text that begins like no number and no date;
* `Tag.ofPlain_eq_text`: it is a text if it holds a character that none of those words has;
* `IsPlain`: the texts that need no quotes;
* `IsAddress.isPlain`: names and addresses are such texts;
* `Block.IsRead`, `Block.IsRead.read_eq`: mappings that are read as they are written.
-/

namespace PackageScaffold.Yaml

/-! ## Texts that are no numbers -/

open Text

/-- The characters that begin no number, no date and no special key. -/
def beginsText (c : Char) : Bool :=
  !(c.isDigit || isSign c || c == '.' || c == '<' || c == '=')

section Begins

variable {c : Char} {rest : List Char}

/-- The first piece of a text begins like the text. -/
theorem isSpacedNumber_splitOn (h : c.isDigit = false) (separator : Char) {first : List Char}
    {pieces : List (List Char)} (hsplit : splitOn separator (c :: rest) = first :: pieces) :
    isSpacedNumber first = false := by
  rw [splitOn] at hsplit
  split at hsplit
  · obtain ⟨rfl, -⟩ := List.cons.inj hsplit
    rfl
  · split at hsplit
    · obtain ⟨rfl, -⟩ := List.cons.inj hsplit
      simp [isSpacedNumber, h]
    · obtain ⟨rfl, -⟩ := List.cons.inj hsplit
      simp [isSpacedNumber, h]

variable (h : beginsText c = true)

include h

theorem begins_parts : c.isDigit = false ∧ isSign c = false ∧ c ≠ '.' ∧ c ≠ '<' ∧ c ≠ '=' := by
  simpa [beginsText, and_assoc] using h

theorem isFloat_of_begins : isFloat (c :: rest) = false := by
  obtain ⟨hdigit, hsign, hpoint, -, -⟩ := begins_parts h
  have hunsigned : isUnsignedFloat (c :: rest) = false := by
    have hwhole : (c :: rest).takeWhile (· != '.') = c :: rest.takeWhile (· != '.') := by
      simp [hpoint]
    have hnumber : isSpacedNumber (c :: rest.takeWhile (· != '.')) = false := by
      simp [isSpacedNumber, hdigit]
    unfold isUnsignedFloat
    simp only [hwhole, List.isEmpty_cons]
    split
    · rfl
    · simp only [Bool.false_eq_true, if_false, hnumber, Bool.false_and]
      split
      · rfl
      · rename_i first parts hnot hsplit
        rw [isSpacedNumber_splitOn hdigit ':' hsplit]
        rfl
      · rfl
  rw [isFloat, dropOne, hsign, if_neg (by simp), hunsigned, Bool.false_or]
  intro fraction heq
  exact hpoint (List.cons.inj heq).1

theorem isUnsignedInt_of_begins : isUnsignedInt (c :: rest) = false := by
  obtain ⟨hdigit, -, -, -, -⟩ := begins_parts h
  have hzero : c ≠ '0' := by
    rintro rfl
    exact absurd hdigit (by decide)
  unfold isUnsignedInt
  split
  · rename_i digits heq
    exact absurd (List.cons.inj heq).1 hzero
  · rename_i digits heq
    exact absurd (List.cons.inj heq).1 hzero
  · rename_i digits hb hx heq
    exact absurd (List.cons.inj heq).1 hzero
  · split
    · rename_i whole parts hsplit
      rw [isSpacedNumber_splitOn hdigit ':' hsplit]
      rfl
    · rfl

theorem isMoment_of_begins : isMoment (c :: rest) = false := by
  obtain ⟨hdigit, -, -, -, -⟩ := begins_parts h
  have hnone : readDigitsUpTo 4 4 (c :: rest) = none := by
    simp [readDigitsUpTo, hdigit]
  have hmoment : readMoment (c :: rest) = none := by
    rw [readMoment, readDate, hnone]
    rfl
  rw [isMoment, hmoment]

/-- What begins no number and no date is a word for a truth value, for nothing, or a text. -/
theorem Tag.ofLine_of_begins : Tag.ofLine (c :: rest) =
    if boolWords.contains (c :: rest) then .bool
    else if nullWords.contains (c :: rest) then .null else .text := by
  obtain ⟨-, hsign, -, hless, hequal⟩ := begins_parts h
  have hint : isUnsignedInt (dropOne isSign (c :: rest)) = false := by
    rw [dropOne, hsign, if_neg (by simp), isUnsignedInt_of_begins h]
  have hmerge : (c :: rest == ['<', '<']) = false := by
    simp [hless]
  have hvalue : (c :: rest == ['=']) = false := by
    simp [hequal]
  rw [Tag.ofLine, isFloat_of_begins h, hint, hmerge, isMoment_of_begins h, hvalue]
  simp

/-- The same holds of plain text without a line break at its end. -/
theorem Tag.ofPlain_of_begins (hfeed : '\n' ∉ c :: rest) : Tag.ofPlain (c :: rest) =
    if boolWords.contains (c :: rest) then .bool
    else if nullWords.contains (c :: rest) then .null else .text := by
  have hlast : ((c :: rest).getLast? == some '\n') = false := by
    rw [beq_eq_false_iff_ne]
    exact fun hlast => hfeed (List.mem_of_getLast? hlast)
  rw [← Tag.ofLine_of_begins h, Tag.ofPlain, hlast, if_neg (by simp)]
  rintro heq
  exact hfeed (heq ▸ List.mem_singleton_self _)

end Begins

/-- The characters of the words for truth values and for nothing. -/
def wordChars : List Char :=
  ['y', 'e', 's', 'n', 'o', 't', 'r', 'u', 'f', 'a', 'l', 'Y', 'E', 'S', 'N', 'O', 'T', 'R', 'U', 'F',
    'A', 'L', '~']

/-- A text with a character that none of those words has. -/
theorem Tag.ofPlain_eq_text {c : Char} {rest : List Char} (h : beginsText c = true)
    (hfeed : '\n' ∉ c :: rest) {other : Char} (hmem : other ∈ c :: rest)
    (hother : other ∉ wordChars) :
    Tag.ofPlain (c :: rest) = .text := by
  have hchars : ∀ word ∈ boolWords ++ nullWords, ∀ char ∈ word, char ∈ wordChars := by decide
  have hnot : ∀ word ∈ boolWords ++ nullWords, c :: rest ≠ word := by
    rintro word hword rfl
    exact hother (hchars _ hword other hmem)
  have hbool : boolWords.contains (c :: rest) = false := by
    rw [List.contains_eq_mem, decide_eq_false_iff_not]
    exact fun hword => hnot _ (List.mem_append_left _ hword) rfl
  have hnull : nullWords.contains (c :: rest) = false := by
    rw [List.contains_eq_mem, decide_eq_false_iff_not]
    exact fun hword => hnot _ (List.mem_append_right _ hword) rfl
  rw [Tag.ofPlain_of_begins h hfeed, hbool, hnull]
  rfl

/-! ## Texts without quotes -/

/-- A text that is read as itself where it stands without quotes. -/
structure IsPlain (text : String) : Prop where
  word : IsWord text.toList
  tag : Tag.ofPlain text.toList = .text
  allowed : ∀ c ∈ text.toList, isAllowed c = true

instance (text : String) : Decidable (IsPlain text) :=
  decidable_of_iff (IsWord text.toList ∧ Tag.ofPlain text.toList = .text ∧
    ∀ c ∈ text.toList, isAllowed c = true)
    ⟨fun ⟨word, tag, allowed⟩ => ⟨word, tag, allowed⟩, fun ⟨word, tag, allowed⟩ =>
      ⟨word, tag, allowed⟩⟩

/-- The characters of names and paths. -/
def isPathChar (c : Char) : Bool :=
  c.isAlphanum || c == '_' || c == '.' || c == '/' || c == '-'

/-- The characters of addresses. -/
def isAddressChar (c : Char) : Bool :=
  isPathChar c || c == ':'

theorem isAddressChar_of_isPathChar {c : Char} (h : isPathChar c = true) :
    isAddressChar c = true := by
  rw [isAddressChar, h, Bool.true_or]

theorem isAddressChar_of_isAlpha {c : Char} (h : c.isAlpha = true) : isAddressChar c = true := by
  simp [isAddressChar, isPathChar, Char.isAlphanum, h]

theorem toNat_lt_of_isAddressChar {c : Char} (h : isAddressChar c = true) : c.toNat < 128 := by
  have hbelow {last : Char} (hlast : last.toNat < 128) (hle : c ≤ last) : c.toNat < 128 :=
    Nat.lt_of_le_of_lt hle hlast
  simp only [isAddressChar, isPathChar, Char.isAlphanum, Bool.or_eq_true, beq_iff_eq] at h
  rcases h with (((((halpha | hdigit) | rfl) | rfl) | rfl) | rfl) | rfl
  · rcases Bool.or_eq_true_iff.mp halpha with hupper | hlower
    · exact @hbelow 'Z' (by decide) (of_decide_eq_true hupper).2
    · exact @hbelow 'z' (by decide) (of_decide_eq_true (Bool.and_eq_true_iff.mp hlower).2)
  · exact @hbelow '9' (by decide) (of_decide_eq_true (Bool.and_eq_true_iff.mp hdigit).2)
  all_goals decide

/-- What holds of the characters up to a code holds of every character below it. -/
theorem char_of_forall {P : Char → Prop} {most : Nat} (h : ∀ code < most, P (Char.ofNat code))
    {c : Char}
    (hc : c.toNat < most) : P c := by
  have hcode := h c.toNat hc
  rwa [Char.ofNat_toNat] at hcode

/-- They may stand in a document, and end no word. -/
theorem isAllowed_of_isAddressChar {c : Char} (h : isAddressChar c = true) :
    isAllowed c = true ∧ isSpace c = false ∧ c ≠ '\uFEFF' :=
  char_of_forall (P := fun c => isAddressChar c = true →
    isAllowed c = true ∧ isSpace c = false ∧ c ≠ '\uFEFF') (by decide) (toNat_lt_of_isAddressChar h)
      h

/-- A letter begins plain text, whatever follows it. -/
theorem startsPlain_of_isAlpha {c : Char} (h : c.isAlpha = true) (rest : List Char) :
    startsPlain false (c :: rest) = true ∧ startsWithMarker (c :: rest) = false := by
  have hnot : ∀ other ∈ ['-', '?', ':', ' ', '\t', '\n', '\r', '\u0085', '\u2028', '\u2029', ',', '[', ']',
      '\x7b', '\x7d', '#', '&', '*', '!', '|', '>', '\'', '"', '%', '@', '\x60', '.'],
      other.isAlpha = false := by decide
  have hne : ∀ other : Char, other.isAlpha = false → c ≠ other := by
    rintro other hother rfl
    simp [h] at hother
  simp only [List.forall_mem_cons, List.not_mem_nil, false_implies, implies_true, and_true] at hnot
  constructor
  · simp [startsPlain, isSpace, isBreak, hne, hnot]
  · unfold startsWithMarker
    split
    · exact absurd (List.cons.inj ‹_›).1 (by simp [hne, hnot])
    · exact absurd (List.cons.inj ‹_›).1 (by simp [hne, hnot])
    · rfl

theorem beginsText_of_isAlpha {c : Char} (h : c.isAlpha = true) : beginsText c = true :=
  char_of_forall (P := fun c => c.isAlpha = true → beginsText c = true) (by decide)
    (toNat_lt_of_isAddressChar (isAddressChar_of_isAlpha h)) h

/-- A name or an address: it begins with a letter, and ends with no colon. -/
structure IsAddress (text : List Char) : Prop where
  first : ∃ c rest, text = c :: rest ∧ c.isAlpha = true
  chars : ∀ c ∈ text, isAddressChar c = true
  last : text.getLast? ≠ some ':'

namespace IsAddress

variable {text : List Char}

theorem isWord (h : IsAddress text) : IsWord text := by
  obtain ⟨⟨c, rest, rfl, hfirst⟩, hchars, hlast⟩ := h
  obtain ⟨hstarts, hmarker⟩ := startsPlain_of_isAlpha hfirst rest
  exact ⟨hstarts, fun c hc => (isAllowed_of_isAddressChar (hchars c hc)).2, hlast, hmarker⟩

theorem allowed (h : IsAddress text) : ∀ c ∈ text, isAllowed c = true :=
  fun c hc => (isAllowed_of_isAddressChar (h.chars c hc)).1

theorem feed_not_mem (h : IsAddress text) : '\n' ∉ text :=
  fun hmem => absurd (h.chars _ hmem) (by decide)

/-- It is no number, no date, and no key with a meaning of its own. -/
theorem ofPlain_eq (h : IsAddress text) : Tag.ofPlain text =
    if boolWords.contains text then .bool else if nullWords.contains text then .null
      else .text := by
  have hfeed := h.feed_not_mem
  obtain ⟨c, rest, rfl, hfirst⟩ := h.first
  exact Tag.ofPlain_of_begins (beginsText_of_isAlpha hfirst) hfeed

/-- It is a text if it holds a character that no word for a truth value or for nothing has. -/
theorem isPlain {text : String} (h : IsAddress text.toList) {other : Char}
    (hmem : other ∈ text.toList)
    (hother : other ∉ wordChars) : IsPlain text := by
  refine ⟨h.isWord, ?_, h.allowed⟩
  have hfeed := h.feed_not_mem
  obtain ⟨c, rest, hcons, hfirst⟩ := h.first
  rw [hcons] at hmem hfeed ⊢
  exact Tag.ofPlain_eq_text (beginsText_of_isAlpha hfirst) hfeed hmem hother

/-- Behind it, more characters of names and paths may stand. -/
theorem append {more : List Char} (h : IsAddress text) (hmore : ∀ c ∈ more, isPathChar c = true) :
    IsAddress (text ++ more) := by
  obtain ⟨⟨c, rest, rfl, hfirst⟩, hchars, hlast⟩ := h
  refine ⟨⟨c, rest ++ more, rfl, hfirst⟩, ?_, ?_⟩
  · intro d hd
    exact (List.mem_append.mp hd).elim (hchars d) fun hd => isAddressChar_of_isPathChar (hmore d hd)
  · rw [List.getLast?_append]
    cases hmost : more.getLast? with
    | none => simpa using hlast
    | some d =>
        rintro hcolon
        obtain rfl : d = ':' := by simpa using hcolon
        exact absurd (hmore _ (List.mem_of_getLast? hmost)) (by decide)

/-- A dot may stand in front of it. -/
theorem isWord_dot (h : IsAddress text) : IsWord ('.' :: text) := by
  obtain ⟨-, hinner, hlast, -⟩ := h.isWord
  obtain ⟨c, rest, rfl, hfirst⟩ := h.first
  have hdot : c ≠ '.' := by
    rintro rfl
    exact absurd hfirst (by decide)
  refine ⟨rfl, List.forall_mem_cons.mpr ⟨by decide, hinner⟩, by simpa using hlast, ?_⟩
  unfold startsWithMarker
  split <;> simp_all

end IsAddress

/-! ## Files -/

/-- The characters that a document may hold, and that a file gives back as they were written. -/
def isStored (c : Char) : Bool :=
  isAllowed c && c != '\r'

theorem isAllowed_of_isStored {c : Char} (h : isStored c = true) : isAllowed c = true :=
  (Bool.and_eq_true .. ▸ h).1

theorem isStored_of_isSpace {c : Char} (hallowed : isAllowed c = true)
    (hspace : isSpace c = false) :
    isStored c = true := by
  have hne : c ≠ '\r' := by
    rintro rfl
    exact absurd hspace (by decide)
  simp [isStored, hallowed, hne]

theorem IsPlain.stored {text : String} (h : IsPlain text) : ∀ c ∈ text.toList, isStored c = true :=
  fun c hc => isStored_of_isSpace (h.allowed c hc) (h.word.inner c hc).1

/-! ## Scalars -/

namespace Scalar

/-- A scalar that is read as it is meant. -/
structure IsRead (scalar : Scalar) : Prop where
  written : Outline.IsScalar scalar.source scalar.text scalar.isPlain
  holds : (scalarNode scalar.text scalar.isPlain).Holds (.plain scalar.value)
  stored : ∀ c ∈ scalar.source, isStored c = true

/-- A word without quotes, and what it stands for. -/
def word (text : String) (value : Value) : Scalar :=
  ⟨text.toList, text, true, value⟩

/-- A text without quotes. -/
def plain (text : String) : Scalar :=
  word text (.text text)

/-- A text in quotes, as it is written behind the first quote. -/
def quoted (body : List Char) (text : String) : Scalar :=
  ⟨'"' :: body, text, false, .text text⟩

theorem isRead_word {text : String} {value : Value} (hword : IsWord text.toList)
    (hholds : (scalarNode text true).Holds (.plain value))
    (hallowed : ∀ c ∈ text.toList, isAllowed c = true) :
    (word text value).IsRead := by
  refine ⟨?_, hholds, fun c hc => isStored_of_isSpace (hallowed c hc) (hword.inner c hc).1⟩
  have hscalar := Outline.IsScalar.word hword
  rwa [String.ofList_toList] at hscalar

theorem isRead_plain {text : String} (h : IsPlain text) : (plain text).IsRead :=
  isRead_word h.word (Block.holds_word h.tag) h.allowed

theorem isRead_quoted {body : List Char} {text : String} (h : Outline.IsQuoted body text)
    (hstored : ∀ c ∈ body, isStored c = true) : (quoted body text).IsRead where
  written := .quoted h
  holds := .scalar rfl (show Tag.text ≠ .float by decide) rfl
  stored := List.forall_mem_cons.mpr ⟨by decide, hstored⟩

end Scalar

/-! ## Mappings -/

namespace Block

/-- A key that is read as itself. -/
def IsPlainKey (key : String) : Prop :=
  IsPlain key ∧ key.toList.length ≤ 1024

instance (key : String) : Decidable (IsPlainKey key) :=
  inferInstanceAs (Decidable (_ ∧ _))

/-- Keys, scalars and items are read as they are meant, and no key is written twice. -/
def IsRead : Block → Prop
  | nil => True
  | scalar _ key value rest => (IsPlainKey key ∧ key ∉ rest.keys) ∧ value.IsRead ∧ rest.IsRead
  | items _ key words rest =>
    (IsPlainKey key ∧ key ∉ rest.keys) ∧ (words ≠ [] ∧ ∀ word ∈ words, IsPlain word) ∧ rest.IsRead
  | nested _ key inner rest =>
    (IsPlainKey key ∧ key ∉ rest.keys) ∧ (inner ≠ nil ∧ inner.IsRead) ∧ rest.IsRead

namespace IsRead

variable {block : Block}

theorem isWritten (h : block.IsRead) : block.IsWritten := by
  induction block with
  | nil => trivial
  | scalar blanks key value rest ih =>
      obtain ⟨⟨⟨hkey, hlength⟩, -⟩, hvalue, hrest⟩ := h
      exact ⟨⟨hkey.word, hlength⟩, hvalue.written, ih hrest⟩
  | items blanks key words rest ih =>
      obtain ⟨⟨⟨hkey, hlength⟩, -⟩, ⟨hne, hwords⟩, hrest⟩ := h
      exact ⟨⟨hkey.word, hlength⟩, hne, fun word hword => (hwords word hword).word, ih hrest⟩
  | nested blanks key inner rest ihinner ihrest =>
      obtain ⟨⟨⟨hkey, hlength⟩, -⟩, ⟨hne, hinner⟩, hrest⟩ := h
      exact ⟨⟨hkey.word, hlength⟩, hne, ihinner hinner, ihrest hrest⟩

theorem isMeant (h : block.IsRead) : block.IsMeant := by
  induction block with
  | nil => trivial
  | scalar blanks key value rest ih =>
      obtain ⟨⟨hkey, hnew⟩, hvalue, hrest⟩ := h
      exact ⟨hkey.1.tag, hnew, hvalue.holds, ih hrest⟩
  | items blanks key words rest ih =>
      obtain ⟨⟨hkey, hnew⟩, ⟨-, hwords⟩, hrest⟩ := h
      exact ⟨hkey.1.tag, hnew, fun word hword => (hwords word hword).tag, ih hrest⟩
  | nested blanks key inner rest ihinner ihrest =>
      obtain ⟨⟨hkey, hnew⟩, ⟨-, hinner⟩, hrest⟩ := h
      exact ⟨hkey.1.tag, hnew, ihinner hinner, ihrest hrest⟩

theorem stored_lineGap (blanks column : Nat) : ∀ c ∈ lineGap blanks column, isStored c = true := by
  intro c hc
  rcases List.mem_append.mp hc with hc | hc
  · rw [(List.mem_replicate.mp hc).2]
    rfl
  · rw [(List.mem_replicate.mp hc).2]
    rfl

/-- It is written in characters that a document may hold, and that a file gives back. -/
theorem stored (h : block.IsRead) (column : Nat) : ∀ c ∈ block.text column, isStored c = true := by
  induction block generalizing column with
  | nil => simp [text]
  | scalar blanks key value rest ih =>
      obtain ⟨⟨⟨hkey, -⟩, -⟩, hvalue, hrest⟩ := h
      simp only [text, List.forall_mem_append, List.forall_mem_cons]
      exact ⟨stored_lineGap _ _, hkey.stored, rfl, rfl, hvalue.stored, ih hrest column⟩
  | items blanks key words rest ih =>
      obtain ⟨⟨⟨hkey, -⟩, -⟩, ⟨-, hwords⟩, hrest⟩ := h
      simp only [text, List.forall_mem_append, List.forall_mem_cons]
      refine ⟨stored_lineGap _ _, hkey.stored, rfl, ?_, ih hrest column⟩
      intro c hc
      obtain ⟨word, hword, hc⟩ := List.mem_flatMap.mp hc
      have hitem : ∀ c ∈ lineGap 0 (column + indentation) ++ '-' :: ' ' :: word.toList,
          isStored c = true := by
        simp only [List.forall_mem_append, List.forall_mem_cons]
        exact ⟨stored_lineGap _ _, rfl, rfl, (hwords word hword).stored⟩
      exact hitem c hc
  | nested blanks key inner rest ihinner ihrest =>
      obtain ⟨⟨⟨hkey, -⟩, -⟩, ⟨-, hinner⟩, hrest⟩ := h
      simp only [text, List.forall_mem_append, List.forall_mem_cons]
      exact ⟨stored_lineGap _ _, hkey.stored, rfl, ihinner hinner _, ihrest hrest column⟩

theorem stored_document (h : block.IsRead) : ∀ c ∈ block.document, isStored c = true := by
  rw [document, List.forall_mem_append]
  exact ⟨fun c hc => h.stored 0 c (List.mem_of_mem_tail hc), by decide⟩

/-- What is read from a document that is one mapping. -/
theorem read_eq (h : block.IsRead) (hnil : block ≠ nil) (hdepth : block.height < mostNested) :
    read (String.ofList block.document) = .ok (.map block.entries) :=
  read_document h.isWritten h.isMeant hnil hdepth fun c hc =>
    isAllowed_of_isStored (h.stored_document c hc)

end IsRead

end Block

end PackageScaffold.Yaml
