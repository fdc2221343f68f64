import PackageScaffold.Proofs.Json.Scalar
import PackageScaffold.Proofs.Yaml.Line
import PackageScaffold.Proofs.Yaml.Plain

/-!
# Quoted texts that are read back

A text that is written in double quotes, with its controls escaped, is read back as it is unless it
holds characters that end a line: these are folded, and take the spaces around them along.

* `isKept`: the texts that are read back;
* `exists_readsAs`: what is read from a text in quotes, and that it is the text if the text is kept;
* `isQuoted_of_isKept`: such a text is a scalar.
-/

namespace PackageScaffold.Yaml

open Cursor

/-- A text as it is written between its quotes. -/
def escaped (text : List Char) : List Char :=
  text.flatMap Json.escapeChar

@[simp] theorem escaped_nil : escaped [] = [] := rfl

@[simp] theorem escaped_cons (c : Char) (text : List Char) :
    escaped (c :: text) = Json.escapeChar c ++ escaped text := rfl

theorem escaped_append (first second : List Char) :
    escaped (first ++ second) = escaped first ++ escaped second :=
  List.flatMap_append

/-! ## Single characters -/

/-- The characters that are written as they are and read as a part of a gap: spaces, and the ends of
lines that are no controls. -/
def isFolded (c : Char) : Bool :=
  c == ' ' || c == '\u0085' || c == '\u2028' || c == '\u2029'

/-- The characters that a text in quotes can be made of: the controls, which are escaped, and those
that a document may hold. -/
def isWritable (c : Char) : Bool :=
  decide (c.toNat < 32) || isAllowed c

/-- A character is escaped by a letter, by its number, or not at all. -/
theorem escapeChar_cases (c : Char) :
    (∃ name, Json.escapeChar c = ['\\', name] ∧ namedEscape? name = some c ∧
      isStored name = true ∧ isWritable c = true) ∨
    (c.toNat < 32 ∧ Json.escapeChar c = '\\' :: 'u' :: Text.hex 4 c.toNat) ∨
    (Json.escapeChar c = [c] ∧ c ≠ '"' ∧ c ≠ '\\' ∧ 32 ≤ c.toNat) := by
  have hshort : ∀ pair ∈ Json.shortEscapes, namedEscape? pair.1 = some pair.2 ∧
      isStored pair.1 = true ∧ isWritable pair.2 = true := by
    decide
  exact (Json.escapeChar_cases c).imp_left fun ⟨name, hname, hmem⟩ => ⟨name, hname, hshort _ hmem⟩

theorem isSpace_eq_isFolded {c : Char} (h : 32 ≤ c.toNat) : isSpace c = isFolded c := by
  have hne : ∀ other : Char, other.toNat < 32 → (c == other) = false := by
    intro other hother
    rw [beq_eq_false_iff_ne]
    rintro rfl
    omega
  simp [isSpace, isBreak, isFolded, hne '\t' (by decide), hne '\n' (by decide),
    hne '\r' (by decide), Bool.or_assoc]

theorem escapeChar_of_isFolded {c : Char} (h : isFolded c = true) : Json.escapeChar c = [c] := by
  simp only [isFolded, Bool.or_eq_true, beq_iff_eq] at h
  rcases h with ((rfl | rfl) | rfl) | rfl <;> rfl

/-- The escape of any other character begins with a character that is no part of a gap. -/
theorem exists_escapeChar {c : Char} (h : isFolded c = false) :
    ∃ first rest, Json.escapeChar c = first :: rest ∧ isSpace first = false := by
  rcases escapeChar_cases c with ⟨name, hname, -, -⟩ | ⟨-, hhex⟩ | ⟨hself, -, -, hcode⟩
  · exact ⟨_, _, hname, by decide⟩
  · exact ⟨_, _, hhex, by decide⟩
  · exact ⟨_, _, hself, by rw [isSpace_eq_isFolded hcode, h]⟩

theorem length_le_escaped (text : List Char) : text.length ≤ (escaped text).length := by
  induction text with
  | nil => exact Nat.le_refl _
  | cons c text ih =>
      have hpos : 0 < (Json.escapeChar c).length := by
        rcases escapeChar_cases c with ⟨name, hname, -⟩ | ⟨-, hhex⟩ | ⟨hself, -⟩
        · simp [hname]
        · simp [hhex]
        · simp [hself]
      simp only [escaped_cons, List.length_append, List.length_cons]
      omega

/-- A file gives a text in quotes back as it was written. -/
theorem stored_escaped {text : List Char} (h : ∀ c ∈ text, isWritable c = true) :
    ∀ c ∈ escaped text, isStored c = true := by
  intro d hd
  obtain ⟨c, hc, hd⟩ := List.mem_flatMap.mp hd
  rcases escapeChar_cases c with ⟨name, hname, -, hstored, -⟩ | ⟨hcode, hhex⟩ | ⟨hself, -, -, hcode⟩
  · rw [hname] at hd
    rcases List.mem_cons.mp hd with rfl | hd
    · rfl
    · rwa [List.mem_singleton.mp hd]
  · have hall : ∀ code < 32, ∀ d ∈ '\\' :: 'u' :: Text.hex 4 code, isStored d = true := by decide
    exact hall _ hcode d (hhex ▸ hd)
  · rw [hself] at hd
    obtain rfl := List.mem_singleton.mp hd
    have hwritable := h d hc
    rw [isWritable, decide_eq_false (Nat.not_lt.mpr hcode), Bool.false_or] at hwritable
    have hne : d ≠ '\r' := by
      rintro rfl
      exact absurd hcode (by decide)
    simp [isStored, hwritable, hne]

/-- Any other character stands in the quotes as it is. -/
theorem mem_escaped_of_not_isWritable {c : Char} (h : isWritable c = false) {text : List Char}
    (hmem : c ∈ text) : c ∈ escaped text ∧ isAllowed c = false := by
  have hparts : 32 ≤ c.toNat ∧ isAllowed c = false := by simpa [isWritable] using h
  refine ⟨List.mem_flatMap.mpr ⟨c, hmem, ?_⟩, hparts.2⟩
  rcases escapeChar_cases c with ⟨name, -, -, -, hwritable⟩ | ⟨hcode, -⟩ | ⟨hself, -⟩
  · rw [h] at hwritable
    cases hwritable
  · omega
  · simp [hself]

/-- A control is read back from its number. -/
theorem hexNumber?_hex {code : Nat} (h : code < 32) (rest : List Char) :
    hexNumber? 4 (Text.hex 4 code ++ rest) = some code := by
  have hall : ∀ code < 32, (Text.hex 4 code).length = 4 ∧
      hexNumber? 4 (Text.hex 4 code) = some code := by
    decide
  obtain ⟨hlength, hnumber⟩ := hall code h
  unfold hexNumber? at hnumber ⊢
  rw [if_neg (by simp [hlength]), List.take_of_length_le (by omega)] at hnumber
  rw [if_neg (by simp [hlength]), List.take_append_of_le_length (by omega),
    List.take_of_length_le (by omega)]
  exact hnumber

/-- Behind a piece of a text that is read, the rest of the text is. -/
def readOn (fuel : Nat) (piece : List Nat × Cursor) : Except Fault (List Nat × Cursor) :=
  (quotedText '"' fuel piece.2).map fun more => (piece.1 ++ more.1, more.2)

section Steps

variable {fuel index line column : Nat} {text : List Char}

theorem quotedText_quote : quotedText '"' (fuel + 1) (before ('"' :: text) index line column) =
    .ok ([], before text (index + 1) line (column + 1)) := by
  rw [quotedText]
  simp [next_before (c := '"') (by decide) (by decide)]

theorem quotedText_escape : quotedText '"' (fuel + 1) (before ('\\' :: text) index line column) =
    readEscape (before text (index + 1) line (column + 1)) >>= readOn fuel := by
  rw [quotedText]
  simp [next_before (c := '\\') (by decide) (by decide), isSpace, isBreak, bind, Except.bind,
    Except.map, pure, Except.pure, readOn]

theorem quotedText_gap {c : Char} (h : isSpace c = true) :
    quotedText '"' (fuel + 1) (before (c :: text) index line column) =
      quotedGap (before (c :: text) index line column) >>= fun gap =>
        readOn fuel (codesOf gap.1, gap.2) := by
  have hquote : c ≠ '"' := by
    rintro rfl
    exact absurd h (by decide)
  rw [quotedText]
  simp only [before_rest, beq_iff_eq, hquote, h, if_false, if_true, bind, Except.bind, pure,
    Except.pure]
  cases quotedGap (before (c :: text) index line column) <;> rfl

theorem quotedText_plain {c : Char} (h : isSpace c = false) (hquote : c ≠ '"') (hslash : c ≠ '\\') :
    quotedText '"' (fuel + 1) (before (c :: text) index line column) =
      readOn fuel ([c.toNat], (before (c :: text) index line column).next) := by
  rw [quotedText]
  simp [hquote, h, hslash, readOn, bind, Except.bind, Except.map, pure, Except.pure]

/-- An escape is read back, whether it is a letter or a number. -/
theorem exists_readEscape {c : Char} {rest : List Char} (h : Json.escapeChar c = '\\' :: rest) :
    ∃ index' line' column', readEscape (before (rest ++ text) index line column) =
      .ok ([c.toNat], before text index' line' column') := by
  rcases escapeChar_cases c with ⟨name, hname, hnamed, -⟩ | ⟨hcode, hhex⟩ | ⟨hself, -, hslash, -⟩
  · obtain rfl : rest = [name] := (List.cons.inj (h.symm.trans hname)).2
    obtain ⟨line', column', -, hafter⟩ := exists_next_before name text index line column
    refine ⟨index + 1, line', column', ?_⟩
    rw [readEscape, List.singleton_append]
    simp only [before_rest, hnamed, hafter]
  · obtain rfl : rest = 'u' :: Text.hex 4 c.toNat := (List.cons.inj (h.symm.trans hhex)).2
    have hlength : (Text.hex 4 c.toNat).length = 4 := by
      have hall : ∀ code < 32, (Text.hex 4 code).length = 4 := by decide
      exact hall _ hcode
    obtain ⟨line', column', -, hafter⟩ :=
      exists_advance_before ('u' :: Text.hex 4 c.toNat) text index line column
    refine ⟨index + (4 + 1), line', column', ?_⟩
    rw [List.length_cons, hlength] at hafter
    have hcheck : checkNumber c.toNat = .ok c.toNat := by
      rw [checkNumber, if_neg (by omega), if_neg (by omega)]
    rw [readEscape, List.cons_append]
    simp only [before_rest, show namedEscape? 'u' = none from rfl, show escapeWidth? 'u' =
      some 4 from rfl,
      hexNumber?_hex hcode, hcheck, bind, Except.bind, pure, Except.pure]
    rw [← List.cons_append, hafter]
  · rw [hself] at h
    exact absurd (List.cons.inj h).1 hslash

/-- A character that is no part of a gap is read back. -/
theorem exists_quotedText_char {c : Char} (h : isFolded c = false) (fuel index line column : Nat)
    (text : List Char) : ∃ index' line' column',
      quotedText '"' (fuel + 1) (before (Json.escapeChar c ++ text) index line column) =
        readOn fuel ([c.toNat], before text index' line' column') := by
  have hescape : ∀ rest, Json.escapeChar c = '\\' :: rest → ∃ index' line' column',
      quotedText '"' (fuel + 1) (before (Json.escapeChar c ++ text) index line column) =
        readOn fuel ([c.toNat], before text index' line' column') := by
    intro rest hrest
    obtain ⟨index', line', column', hread⟩ :=
      @exists_readEscape (index + 1) line (column + 1) text c rest hrest
    refine ⟨index', line', column', ?_⟩
    rw [hrest, List.cons_append, quotedText_escape, hread]
    rfl
  rcases escapeChar_cases c with ⟨name, hname, -⟩ | ⟨-, hhex⟩ | ⟨hself, hquote, hslash, hcode⟩
  · exact hescape _ hname
  · exact hescape _ hhex
  · obtain ⟨line', column', -, hafter⟩ := exists_next_before c text index line column
    refine ⟨index + 1, line', column', ?_⟩
    rw [hself, List.singleton_append,
      quotedText_plain (by rw [isSpace_eq_isFolded hcode, h]) hquote hslash, hafter]

end Steps

/-! ## Texts that are kept -/

/-- Whether what is written for a text, at the beginning of a line, separates documents. -/
def beginsMarker (text : List Char) : Bool :=
  startsWithMarker (escaped text ++ ['"'])

/-- The characters that end a line and are read as themselves. -/
def isSeparator (c : Char) : Bool :=
  c == '\u2028' || c == '\u2029'

/-- Whether a text in quotes is read back as it is.  It must not hold the character that is read as
an ordinary line break, nor a separator of lines next to a space or in front of a line that
separates documents. -/
def isKept : List Char → Bool
  | [] => true
  | c :: text =>
    c != '\u0085' && !(isSeparator c && (text.head? == some ' ' || beginsMarker text)) &&
      !(c == ' ' && (text.head?.map isSeparator).getD false) && isKept text

theorem startsWithMarker_quote (text rest : List Char) :
    startsWithMarker (text ++ '"' :: rest) = startsWithMarker (text ++ ['"']) := by
  rcases text with _ | ⟨a, _ | ⟨b, _ | ⟨c, _ | ⟨d, more⟩⟩⟩⟩
  · simp [startsWithMarker]
  · simp [startsWithMarker]
  · simp [startsWithMarker]
  · simp only [List.cons_append, List.nil_append, startsWithMarker_cons_cons_cons]
    rfl
  · simp only [List.cons_append, startsWithMarker_cons_cons_cons]
    rfl

theorem isKept_of_not_isFolded {c : Char} (h : isFolded c = false) (text : List Char) :
    isKept (c :: text) = isKept text := by
  simp only [isFolded, Bool.or_eq_false_iff, beq_eq_false_iff_ne] at h
  simp [isKept, isSeparator, h]

/-- A separator is kept where neither a space nor a line that separates documents follows it. -/
theorem isKept_separator {c : Char} (h : isSeparator c = true) (text : List Char) :
    isKept (c :: text) = true ↔
      text.head? ≠ some ' ' ∧ beginsMarker text = false ∧ isKept text = true := by
  have hne : c ≠ '\u0085' ∧ c ≠ ' ' := by
    constructor <;> rintro rfl <;> exact absurd h (by decide)
  simp [isKept, h, hne, and_assoc]

theorem isKept_spaces {text : List Char} (h : ∀ c ∈ text.head?, isFolded c = false) (count : Nat) :
    isKept (List.replicate count ' ' ++ text) = isKept text := by
  have hnot : (text.head?.map isSeparator).getD false = false := by
    cases hhead : text.head? with
    | none => rfl
    | some c =>
        have hc := h c hhead
        simp only [isFolded, Bool.or_eq_false_iff] at hc
        simp [isSeparator, hc]
  induction count with
  | zero => rfl
  | succ count ih =>
      rw [List.replicate_succ, List.cons_append, isKept, ih]
      cases count with
      | zero => simpa [isSeparator] using fun _ => hnot
      | succ count => simp [isSeparator, List.replicate_succ]

/-! ## Gaps -/

/-- How the end of a line is read. -/
def lineRead (c : Char) : Char :=
  if c == '\u0085' then '\n' else c

/-- The characters that end a line in a quoted text. -/
def endsOwnLine (c : Char) : Bool :=
  c == '\u0085' || isSeparator c

theorem isFolded_eq (c : Char) : isFolded c = (c == ' ' || endsOwnLine c) := by
  simp [isFolded, endsOwnLine, isSeparator, Bool.or_assoc]

theorem lineBreak_of_endsOwnLine {c : Char} (h : endsOwnLine c = true) (text : List Char)
    (index line column : Nat) : (before (c :: text) index line column).lineBreak =
      ([lineRead c], before text (index + 1) (line + 1) 0) := by
  have hnext : (before (c :: text) index line column).next =
      before text (index + 1) (line + 1) 0 := by
    simp only [endsOwnLine, isSeparator, Bool.or_eq_true, beq_iff_eq] at h
    rcases h with rfl | rfl | rfl <;>
      simp [next, before, isBreak, Nat.add_comm, Nat.add_left_comm]
  rw [← hnext]
  simp only [endsOwnLine, isSeparator, Bool.or_eq_true, beq_iff_eq] at h
  rcases h with rfl | rfl | rfl <;> simp [lineBreak, lineRead, isBreak]

/-- The spaces in front of a text. -/
theorem exists_spaces (text : List Char) :
    ∃ count rest, text = List.replicate count ' ' ++ rest ∧ rest.head? ≠ some ' ' := by
  induction text with
  | nil => exact ⟨0, [], rfl, by simp⟩
  | cons c text ih =>
      by_cases hc : c = ' '
      · obtain ⟨count, rest, rfl, hrest⟩ := ih
        exact ⟨count + 1, rest, by rw [hc]; rfl, hrest⟩
      · exact ⟨0, c :: text, rfl, by simpa using hc⟩

/-- What is written for a text that begins with no space begins with none. -/
theorem exists_escaped {text : List Char} (h : text.head? ≠ some ' ') (rest : List Char) :
    ∃ first more, escaped text ++ '"' :: rest = first :: more ∧ isGap first = false ∧
      ((∀ c ∈ text.head?, isFolded c = false) → isBreak first = false) := by
  cases text with
  | nil => exact ⟨'"', rest, rfl, by decide, fun _ => by decide⟩
  | cons c text =>
      cases hc : isFolded c with
      | true =>
          refine ⟨c, escaped text ++ '"' :: rest, by simp [escapeChar_of_isFolded hc], ?_, ?_⟩
          · simp only [isFolded, Bool.or_eq_true, beq_iff_eq] at hc
            rcases hc with ((rfl | rfl) | rfl) | rfl
            · simp at h
            all_goals decide
          · intro hnot
            rw [hnot c rfl] at hc
            cases hc
      | false =>
          obtain ⟨first, more, hfirst, hspace⟩ := exists_escapeChar hc
          refine ⟨first, more ++ (escaped text ++ '"' :: rest), by simp [hfirst], ?_, fun _ =>
            isBreak_of_isSpace hspace⟩
          simp only [isSpace, Bool.or_eq_false_iff] at hspace
          simp [isGap, hspace.1.1, hspace.1.2]

theorem escaped_spaces (count : Nat) (text : List Char) :
    escaped (List.replicate count ' ' ++ text) = List.replicate count ' ' ++ escaped text := by
  induction count with
  | zero => rfl
  | succ count ih =>
      rw [List.replicate_succ, List.cons_append, escaped_cons, ih]
      rfl

/-- The spaces in front of a text are passed. -/
theorem takeWhile_spaces {first : Char} (h : isGap first = false) (more : List Char) (count : Nat) :
    (List.replicate count ' ' ++ first :: more).takeWhile isGap = List.replicate count ' ' := by
  induction count with
  | zero => simp [h]
  | succ count ih =>
      rw [List.replicate_succ, List.cons_append, List.takeWhile_cons_of_pos (by decide), ih]

theorem advance_spaces (count : Nat) (text : List Char) (index line column : Nat) :
    (before (List.replicate count ' ' ++ text) index line column).advance count =
      before text (index + count) line (column + count) := by
  have hadvance := @advance_before text index line column (List.replicate count ' ')
    (by simp [isBreak])
  rwa [List.length_replicate] at hadvance

/-- The text behind the gap in front of it. -/
def behindGap (text : List Char) : List Char :=
  text.dropWhile isFolded

/-- The gap in front of a text. -/
def gapOf (text : List Char) : List Char :=
  text.takeWhile isFolded

theorem gapOf_append_behindGap (text : List Char) : gapOf text ++ behindGap text = text :=
  List.takeWhile_append_dropWhile

theorem gap_spaces (count : Nat) (text : List Char) :
    gapOf (List.replicate count ' ' ++ text) = List.replicate count ' ' ++ gapOf text ∧
      behindGap (List.replicate count ' ' ++ text) = behindGap text := by
  induction count with
  | zero => exact ⟨rfl, rfl⟩
  | succ count ih =>
      rw [List.replicate_succ, List.cons_append, gapOf, behindGap,
        List.takeWhile_cons_of_pos (by decide),
        List.dropWhile_cons_of_pos (by decide)]
      exact ⟨congrArg _ ih.1, ih.2⟩

theorem gap_of_head {text : List Char} (h : ∀ c ∈ text.head?, isFolded c = false) :
    gapOf text = [] ∧ behindGap text = text := by
  cases text with
  | nil => exact ⟨rfl, rfl⟩
  | cons c text =>
      have hc : isFolded c = false := h c rfl
      simp [gapOf, behindGap, hc]

theorem gap_cons {c : Char} (h : isFolded c = true) (text : List Char) :
    gapOf (c :: text) = c :: gapOf text ∧ behindGap (c :: text) = behindGap text := by
  simp [gapOf, behindGap, h]

/-- How the rest of a gap is read, behind its first line break: the outcome, which is as long as the
gap only if no more than separators are in it and no line that separates documents follows. -/
structure PassesAs (text : List Char) (outcome : Except Fault (List Char)) : Prop where
  pass_eq : ∀ rest index line column fuel, text.length < fuel → ∃ index' line' column',
    passQuotedBreaks fuel (before (escaped text ++ '"' :: rest) index line column) = outcome.map
      fun more => (more, before (escaped (behindGap text) ++ '"' :: rest) index' line' column')
  length_le : ∀ more, outcome = .ok more → more.length ≤ (gapOf text).length
  kept : outcome = .ok (gapOf text) ∧ isKept (behindGap text) = true ↔
    text.head? ≠ some ' ' ∧ beginsMarker text = false ∧ isKept text = true

/-- No line is passed where documents are separated. -/
theorem passesAs_of_marker {text : List Char} (h : beginsMarker text = true) :
    PassesAs text (.error (.malformed .markerInText)) where
  pass_eq := by
    intro rest index line column fuel hfuel
    obtain ⟨fuel, rfl⟩ : ∃ fuel', fuel = fuel' + 1 := ⟨fuel - 1, by omega⟩
    refine ⟨0, 0, 0, ?_⟩
    rw [passQuotedBreaks, before_rest, startsWithMarker_quote,
      show startsWithMarker _ = true from h,
      if_pos rfl]
    rfl
  length_le := by simp
  kept := by simp [h]

/-- Where something else stands behind the spaces, the gap is at its end. -/
theorem passesAs_of_content {text : List Char} {count : Nat}
    (h : ∀ c ∈ text.head?, isFolded c = false)
    (hmarker : beginsMarker (List.replicate count ' ' ++ text) = false) :
    PassesAs (List.replicate count ' ' ++ text) (.ok []) where
  pass_eq := by
    intro rest index line column fuel hfuel
    obtain ⟨fuel, rfl⟩ : ∃ fuel', fuel = fuel' + 1 := ⟨fuel - 1, by omega⟩
    have hhead : text.head? ≠ some ' ' := fun hspace => absurd (h ' ' hspace) (by decide)
    obtain ⟨first, more, hfirst, hgap, hbreak⟩ := exists_escaped hhead rest
    refine ⟨index + count, line, column + count, ?_⟩
    rw [passQuotedBreaks, before_rest, startsWithMarker_quote, show startsWithMarker _ =
      false from hmarker,
      if_neg (by simp), escaped_spaces, List.append_assoc, hfirst, passWhile, before_rest,
      takeWhile_spaces hgap, List.length_replicate, advance_spaces]
    have hline := lineBreak_of_endsLine (c := before (first :: more) (index + count) line
      (column + count))
      (by simpa using hbreak h)
    simp only [hline, (gap_spaces count text).2, (gap_of_head h).2, hfirst]
    rfl
  length_le := by
    rintro more hmore
    obtain rfl := Except.ok.inj hmore
    simp
  kept := by
    rw [(gap_spaces count text).1, (gap_spaces count text).2, (gap_of_head h).1, (gap_of_head h).2,
      isKept_spaces h]
    cases count with
    | zero =>
        have hhead : text.head? ≠ some ' ' := fun hspace => absurd (h ' ' hspace) (by decide)
        simpa [hhead] using fun _ => hmarker
    | succ count => simp [List.replicate_succ]

theorem isFolded_of_endsOwnLine {c : Char} (h : endsOwnLine c = true) : isFolded c = true := by
  rw [isFolded_eq, h, Bool.or_true]

theorem ne_space_of_endsOwnLine {c : Char} (h : endsOwnLine c = true) : c ≠ ' ' := by
  rintro rfl
  exact absurd h (by decide)

/-- The gap in front of a line break. -/
theorem gap_break {c : Char} (h : endsOwnLine c = true) (count : Nat) (text : List Char) :
    gapOf (List.replicate count ' ' ++ c :: text) = List.replicate count ' ' ++ c :: gapOf text ∧
      behindGap (List.replicate count ' ' ++ c :: text) = behindGap text := by
  have hfolded := isFolded_of_endsOwnLine h
  rw [(gap_spaces count _).1, (gap_spaces count _).2, (gap_cons hfolded text).1,
    (gap_cons hfolded text).2]
  exact ⟨rfl, rfl⟩

/-- Only a separator is read as itself. -/
theorem lineRead_eq_iff {c : Char} (h : endsOwnLine c = true) :
    lineRead c = c ↔ isSeparator c = true := by
  simp only [endsOwnLine, isSeparator, Bool.or_eq_true, beq_iff_eq] at h
  rcases h with rfl | rfl | rfl <;> decide

/-- A line break behind the spaces is read, and the rest of the gap behind it. -/
theorem PassesAs.cons {text : List Char} {outcome : Except Fault (List Char)}
    (h : PassesAs text outcome)
    {c : Char} (hc : endsOwnLine c = true) {count : Nat}
    (hmarker : beginsMarker (List.replicate count ' ' ++ c :: text) = false) :
    PassesAs (List.replicate count ' ' ++ c :: text) (outcome.map (lineRead c :: ·)) where
  pass_eq := by
    intro rest index line column fuel hfuel
    obtain ⟨fuel, rfl⟩ : ∃ fuel', fuel = fuel' + 1 := ⟨fuel - 1, by omega⟩
    obtain ⟨index', line', column', hpass⟩ := h.pass_eq rest (index + count + 1) (line + 1) 0 fuel
      (by simp at hfuel; omega)
    have hwritten : escaped (c :: text) ++ '"' :: rest = c :: (escaped text ++ '"' :: rest) := by
      simp [escapeChar_of_isFolded (isFolded_of_endsOwnLine hc)]
    have hgap : isGap c = false := by
      simp only [endsOwnLine, isSeparator, Bool.or_eq_true, beq_iff_eq] at hc
      rcases hc with rfl | rfl | rfl <;> decide
    refine ⟨index', line', column', ?_⟩
    rw [passQuotedBreaks, before_rest, startsWithMarker_quote, show startsWithMarker _ =
      false from hmarker,
      if_neg (by simp), escaped_spaces, List.append_assoc, hwritten, passWhile, before_rest,
      takeWhile_spaces hgap, List.length_replicate, advance_spaces]
    simp only [lineBreak_of_endsOwnLine hc, hpass, (gap_break hc count text).2]
    cases outcome <;> rfl
  length_le := by
    rintro more hmore
    obtain ⟨read, hread, rfl⟩ : ∃ read, outcome = .ok read ∧ lineRead c :: read = more := by
      cases outcome with
      | error fault => simp [Except.map] at hmore
      | ok read => exact ⟨read, rfl, Except.ok.inj hmore⟩
    have hle := h.length_le read hread
    rw [(gap_break hc count text).1]
    simp
    omega
  kept := by
    rw [(gap_break hc count text).1, (gap_break hc count text).2]
    cases count with
    | succ count =>
        -- the spaces are lost, so that what is read is too short
        refine iff_of_false (fun hboth => ?_) fun hspace => hspace.1 (by simp [List.replicate_succ])
        cases outcome with
        | error fault => simp [Except.map] at hboth
        | ok read =>
            have hle := h.length_le read rfl
            have hlength := congrArg List.length (Except.ok.inj hboth.1)
            simp at hlength
            omega
    | zero =>
        rw [List.replicate_zero, List.nil_append] at hmarker
        have hmap : (outcome.map (lineRead c :: ·) = .ok (c :: gapOf text)) ↔
            lineRead c = c ∧ outcome = .ok (gapOf text) := by
          cases outcome <;> simp [Except.map]
        rw [List.replicate_zero, List.nil_append, List.nil_append, hmap, lineRead_eq_iff hc,
          and_assoc, h.kept]
        cases hseparator : isSeparator c with
        | true => simp [ne_space_of_endsOwnLine hc, hmarker, isKept_separator hseparator]
        | false =>
            obtain rfl : c = '\u0085' := by simpa [endsOwnLine, hseparator] using hc
            simp [isKept]

/-- Whatever stands behind a line break in quotes, the rest of its gap is read in one way. -/
theorem exists_passesAs (text : List Char) : ∃ outcome, PassesAs text outcome := by
  -- by induction on the length, since each line break takes the spaces in front of it along
  induction hlength : text.length using Nat.strongRecOn generalizing text with
  | _ length ih =>
    cases hmarker : beginsMarker text with
    | true => exact ⟨_, passesAs_of_marker hmarker⟩
    | false =>
        obtain ⟨count, rest, rfl, hrest⟩ := exists_spaces text
        cases rest with
        | nil => exact ⟨_, passesAs_of_content (by simp) hmarker⟩
        | cons c rest =>
            cases hc : endsOwnLine c with
            | true =>
                obtain ⟨outcome, houtcome⟩ := ih rest.length (by simp at hlength; omega) rest rfl
                exact ⟨_, houtcome.cons hc hmarker⟩
            | false =>
                refine ⟨_, passesAs_of_content ?_ hmarker⟩
                have hspace : c ≠ ' ' := by simpa using hrest
                simp [isFolded_eq, hc, hspace]

/-- How a gap is read: the outcome, which is no longer than the gap, and is the gap if and only if
the text is kept as far as the gap is concerned. -/
structure FoldsAs (text : List Char) (outcome : Except Fault (List Char)) : Prop where
  gap_eq : ∀ rest index line column, ∃ index' line' column',
    quotedGap (before (escaped text ++ '"' :: rest) index line column) = outcome.map
      fun gap => (gap, before (escaped (behindGap text) ++ '"' :: rest) index' line' column')
  length_le : ∀ gap, outcome = .ok gap → gap.length ≤ (gapOf text).length
  kept : outcome = .ok (gapOf text) ∧ isKept (behindGap text) = true ↔ isKept text = true

/-- Spaces inside of a line are read as they are. -/
theorem foldsAs_of_content {text : List Char} (h : ∀ c ∈ text.head?, isFolded c = false)
    (count : Nat) :
    FoldsAs (List.replicate count ' ' ++ text) (.ok (List.replicate count ' ')) where
  gap_eq := by
    intro rest index line column
    have hhead : text.head? ≠ some ' ' := fun hspace => absurd (h ' ' hspace) (by decide)
    obtain ⟨first, more, hfirst, hgap, hbreak⟩ := exists_escaped hhead rest
    refine ⟨index + count, line, column + count, ?_⟩
    have hline := lineBreak_of_endsLine (c := before (first :: more) (index + count) line
      (column + count))
      (by simpa using hbreak h)
    rw [quotedGap, before_rest, escaped_spaces, List.append_assoc, hfirst, takeWhile_spaces hgap,
      List.length_replicate, advance_spaces]
    simp only [hline, (gap_spaces count text).2, (gap_of_head h).2, hfirst]
    rfl
  length_le := by
    rintro gap hgap
    obtain rfl := Except.ok.inj hgap
    rw [(gap_spaces count text).1]
    simp
  kept := by
    rw [(gap_spaces count text).1, (gap_spaces count text).2, (gap_of_head h).1, (gap_of_head h).2,
      isKept_spaces h]
    simp

theorem length_folded_le (first : Char) (more : List Char) :
    (folded [first] more).length ≤ 1 + more.length := by
  unfold folded
  split
  · rw [List.length_append, List.length_singleton]
  · split <;> simp

/-- The spaces in front of a line break are lost. -/
theorem isKept_space_break {c : Char} (h : endsOwnLine c = true) (count : Nat) (text : List Char) :
    isKept (List.replicate (count + 1) ' ' ++ c :: text) = false := by
  induction count with
  | zero =>
      rw [endsOwnLine, Bool.or_eq_true] at h
      rcases h with h | h
      · obtain rfl := beq_iff_eq.mp h
        simp [isKept]
      · simp [isKept, h]
  | succ count ih => rw [List.replicate_succ, List.cons_append, isKept, ih, Bool.and_false]

/-- What is read of the line breaks in a gap is folded. -/
theorem PassesAs.foldsAs {text : List Char} {outcome : Except Fault (List Char)}
    (h : PassesAs text outcome)
    {c : Char} (hc : endsOwnLine c = true) (count : Nat) :
    FoldsAs (List.replicate count ' ' ++ c :: text) (outcome.map (folded [lineRead c])) where
  gap_eq := by
    intro rest index line column
    have hgap : isGap c = false := by
      simp only [endsOwnLine, isSeparator, Bool.or_eq_true, beq_iff_eq] at hc
      rcases hc with rfl | rfl | rfl <;> decide
    have hwritten : escaped (c :: text) ++ '"' :: rest = c :: (escaped text ++ '"' :: rest) := by
      simp [escapeChar_of_isFolded (isFolded_of_endsOwnLine hc)]
    obtain ⟨index', line', column', hpass⟩ := h.pass_eq rest (index + count + 1) (line + 1) 0
      ((escaped text ++ '"' :: rest).length + 1) (by
        have hlong := length_le_escaped text
        simp
        omega)
    refine ⟨index', line', column', ?_⟩
    rw [quotedGap, before_rest, escaped_spaces, List.append_assoc, hwritten, takeWhile_spaces hgap,
      List.length_replicate, advance_spaces]
    simp only [lineBreak_of_endsOwnLine hc, bound_before, hpass, (gap_break hc count text).2]
    cases outcome <;> rfl
  length_le := by
    rintro gap hgap
    cases outcome with
    | error fault => simp [Except.map] at hgap
    | ok more =>
        obtain rfl := Except.ok.inj hgap
        have hle := h.length_le more rfl
        have hfolded := length_folded_le (lineRead c) more
        rw [(gap_break hc count text).1]
        simp
        omega
  kept := by
    rw [(gap_break hc count text).1, (gap_break hc count text).2]
    cases count with
    | succ count =>
        -- the spaces in front of the break are lost, and what is read is too short to be the text
        rw [isKept_space_break hc]
        refine iff_of_false (fun hboth => ?_) (by simp)
        cases outcome with
        | error fault => simp [Except.map] at hboth
        | ok more =>
            have hle := h.length_le more rfl
            have hfolded := length_folded_le (lineRead c) more
            have hlength := congrArg List.length (Except.ok.inj hboth.1)
            simp at hlength
            omega
    | zero =>
        rw [List.replicate_zero, List.nil_append, List.nil_append]
        -- a separator is read as it is, any other end of a line as a line feed
        cases hseparator : isSeparator c with
        | true =>
            have hfolded : ∀ more, folded [lineRead c] more = c :: more := by
              intro more
              rw [(lineRead_eq_iff hc).mpr hseparator, folded, if_pos]
              · rfl
              · have hne : c ≠ '\n' := by
                  rintro rfl
                  exact absurd hseparator (by decide)
                simpa using hne
            rw [isKept_separator hseparator, ← h.kept]
            cases outcome <;> simp [Except.map, hfolded]
        | false =>
            obtain rfl : c = '\u0085' := by simpa [endsOwnLine, hseparator] using hc
            refine iff_of_false (fun hboth => ?_) (by simp [isKept])
            cases outcome with
            | error fault => simp [Except.map] at hboth
            | ok more =>
                have hle := h.length_le more rfl
                have hfolded := Except.ok.inj hboth.1
                cases more with
                | nil => simp [folded, lineRead] at hfolded
                | cons first more =>
                    have hlength := congrArg List.length hfolded
                    simp [folded, lineRead] at hlength hle
                    omega

/-- Every gap is read in one way. -/
theorem exists_foldsAs (text : List Char) : ∃ outcome, FoldsAs text outcome := by
  obtain ⟨count, rest, rfl, hrest⟩ := exists_spaces text
  cases rest with
  | nil => exact ⟨_, foldsAs_of_content (by simp) count⟩
  | cons c rest =>
      cases hc : endsOwnLine c with
      | true =>
          obtain ⟨outcome, houtcome⟩ := exists_passesAs rest
          exact ⟨_, houtcome.foldsAs hc count⟩
      | false =>
          refine ⟨_, foldsAs_of_content ?_ count⟩
          have hspace : c ≠ ' ' := by simpa using hrest
          simp [isFolded_eq, hc, hspace]

/-! ## Whole texts -/

/-- How a text in quotes is read: the outcome, which is no longer than the text, and is the text if
and only if the text is kept. -/
structure ReadsAs (text : List Char) (outcome : Except Fault (List Char)) : Prop where
  read_eq : ∀ rest index line column fuel, (escaped text).length < fuel → ∃ index' line' column',
    quotedText '"' fuel (before (escaped text ++ '"' :: rest) index line column) = outcome.map
      fun read => (codesOf read, before rest index' line' column')
  length_le : ∀ read, outcome = .ok read → read.length ≤ text.length
  kept : outcome = .ok text ↔ isKept text = true

theorem readsAs_nil : ReadsAs [] (.ok []) where
  read_eq := by
    intro rest index line column fuel hfuel
    obtain ⟨fuel, rfl⟩ : ∃ fuel', fuel = fuel' + 1 := ⟨fuel - 1, by omega⟩
    exact ⟨_, _, _, quotedText_quote⟩
  length_le := by
    rintro read hread
    obtain rfl := Except.ok.inj hread
    simp
  kept := by simp [isKept]

/-- A character that is no part of a gap is read as itself. -/
theorem ReadsAs.cons {text : List Char} {outcome : Except Fault (List Char)}
    (h : ReadsAs text outcome)
    {c : Char} (hc : isFolded c = false) : ReadsAs (c :: text) (outcome.map (c :: ·)) where
  read_eq := by
    intro rest index line column fuel hfuel
    obtain ⟨fuel, rfl⟩ : ∃ fuel', fuel = fuel' + 1 := ⟨fuel - 1, by omega⟩
    obtain ⟨index₁, line₁, column₁, hfirst⟩ := exists_quotedText_char hc fuel index line column
      (escaped text ++ '"' :: rest)
    obtain ⟨first, more, hescape, -⟩ := exists_escapeChar hc
    obtain ⟨index', line', column', hread⟩ := h.read_eq rest index₁ line₁ column₁ fuel (by
      simp [hescape] at hfuel
      omega)
    refine ⟨index', line', column', ?_⟩
    rw [escaped_cons, List.append_assoc, hfirst, readOn, hread]
    cases outcome <;> rfl
  length_le := by
    rintro read hread
    cases outcome with
    | error fault => simp [Except.map] at hread
    | ok more =>
        obtain rfl := Except.ok.inj hread
        simpa using h.length_le more rfl
  kept := by
    rw [isKept_of_not_isFolded hc, ← h.kept]
    cases outcome <;> simp [Except.map]

/-- A gap is read by itself, and the text behind it by itself. -/
theorem FoldsAs.readsAs {text : List Char} {gap outcome : Except Fault (List Char)}
    (h : FoldsAs text gap)
    (hrest : ReadsAs (behindGap text) outcome) {c : Char} (hc : c ∈ text.head?)
    (hfolded : isFolded c = true) :
    ReadsAs text (gap >>= fun gap => outcome.map (gap ++ ·)) where
  read_eq := by
    intro rest index line column fuel hfuel
    obtain ⟨fuel, rfl⟩ : ∃ fuel', fuel = fuel' + 1 := ⟨fuel - 1, by omega⟩
    obtain ⟨more, rfl⟩ : ∃ more, text = c :: more := by
      cases text with
      | nil => simp at hc
      | cons first more => exact ⟨more, by simpa using hc⟩
    obtain ⟨index₁, line₁, column₁, hgap⟩ := h.gap_eq rest index line column
    obtain ⟨index', line', column', hread⟩ := hrest.read_eq rest index₁ line₁ column₁ fuel (by
      have hlength := congrArg (List.length ∘ escaped) (gapOf_append_behindGap more)
      rw [escaped_cons, escapeChar_of_isFolded hfolded] at hfuel
      rw [(gap_cons hfolded more).2]
      simp only [Function.comp_apply, escaped_append, List.length_append, List.length_cons,
        List.length_nil] at hlength hfuel
      omega)
    have hspace : isSpace c = true := by
      simp only [isFolded, Bool.or_eq_true, beq_iff_eq] at hfolded
      rcases hfolded with ((rfl | rfl) | rfl) | rfl <;> decide
    have hwritten : escaped (c :: more) ++ '"' :: rest = c :: (escaped more ++ '"' :: rest) := by
      simp [escapeChar_of_isFolded hfolded]
    refine ⟨index', line', column', ?_⟩
    rw [hwritten] at hgap ⊢
    rw [quotedText_gap hspace, hgap]
    cases gap with
    | error fault => rfl
    | ok gap =>
        simp only [Except.map, bind, Except.bind, readOn, hread]
        cases outcome <;> simp [codesOf]
  length_le := by
    rintro read hread
    cases gap with
    | error fault => simp [bind, Except.bind] at hread
    | ok gap =>
        cases outcome with
        | error fault => simp [bind, Except.bind, Except.map] at hread
        | ok more =>
            obtain rfl := Except.ok.inj hread
            have hgap := h.length_le gap rfl
            have hmore := hrest.length_le more rfl
            have hlength := congrArg List.length (gapOf_append_behindGap text)
            simp at hlength ⊢
            omega
  kept := by
    rw [← h.kept, ← hrest.kept]
    cases gap with
    | error fault => simp [bind, Except.bind]
    | ok gap =>
        cases outcome with
        | error fault => simp [bind, Except.bind, Except.map]
        | ok more =>
            have hgap := h.length_le gap rfl
            have hmore := hrest.length_le more rfl
            simp only [bind, Except.bind, Except.map, Except.ok.injEq]
            constructor
            · intro heq
              -- neither part can be shorter, as the other is not longer
              have hsplit := heq.trans (gapOf_append_behindGap text).symm
              have hlength := congrArg List.length hsplit
              simp only [List.length_append] at hlength
              exact List.append_inj hsplit (by omega)
            · rintro ⟨rfl, rfl⟩
              exact gapOf_append_behindGap text

/-- Every text in quotes is read in one way, whatever stands around it. -/
theorem exists_readsAs (text : List Char) : ∃ outcome, ReadsAs text outcome := by
  induction hlength : text.length using Nat.strongRecOn generalizing text with
  | _ length ih =>
    cases text with
    | nil => exact ⟨_, readsAs_nil⟩
    | cons c text =>
        cases hc : isFolded c with
        | false =>
            obtain ⟨outcome, houtcome⟩ := ih text.length (by simp at hlength; omega) text rfl
            exact ⟨_, houtcome.cons hc⟩
        | true =>
            obtain ⟨gap, hgap⟩ := exists_foldsAs (c :: text)
            have hshort : (behindGap (c :: text)).length ≤ text.length := by
              rw [(gap_cons hc text).2]
              exact List.length_dropWhile_le _ _
            obtain ⟨outcome, houtcome⟩ :=
              ih _ (by simp at hlength; omega) (behindGap (c :: text)) rfl
            exact ⟨_, hgap.readsAs houtcome rfl hc⟩

/-! ## Scalars -/

theorem ofCodes_codesOf (text : List Char) :
    Text.Wording.ofCodes (codesOf text) = .text (String.ofList text) := by
  have hnot (c : Char) : Text.isHalf c.toNat = false := by
    have hcode : c.toNat = c.val.toNat := rfl
    have hvalid := c.valid
    simp only [UInt32.isValidChar, Nat.isValidChar] at hvalid
    simp only [Text.isHalf, Bool.and_eq_false_iff, decide_eq_false_iff_not]
    omega
  have hhalf : (codesOf text).any Text.isHalf = false := by
    simp [codesOf, hnot]
  rw [Text.Wording.ofCodes, hhalf, if_neg (by simp), Text.legible, codesOf, List.map_map]
  have hsame : ((fun code => if Text.isHalf code = true then '\uFFFD' else Char.ofNat code) ∘
      Char.toNat) = id := by
    funext c
    simp [hnot]
  rw [hsame, List.map_id]

/-- A text in quotes, read from its first quote. -/
theorem ReadsAs.readQuoted_eq {text : List Char} {outcome : Except Fault (List Char)}
    (h : ReadsAs text outcome) (rest : List Char) (index line column : Nat) :
    ∃ index' line' column',
      readQuoted '"' (before ('"' :: (escaped text ++ '"' :: rest)) index line column) =
      outcome.map fun read => (.text (String.ofList read), before rest index' line' column') := by
  obtain ⟨index', line', column', hread⟩ := h.read_eq rest (index + 1) line (column + 1)
    (('"' :: (escaped text ++ '"' :: rest)).length + 1) (by simp; omega)
  refine ⟨index', line', column', ?_⟩
  rw [readQuoted, bound_before, next_before (by decide) (by decide), hread]
  cases outcome with
  | error fault => rfl
  | ok read => exact congrArg (fun wording => Except.ok (wording, _)) (ofCodes_codesOf read)

/-- What is read from a text in quotes is a scalar. -/
theorem ReadsAs.isQuoted {text read : List Char} (h : ReadsAs text (.ok read)) :
    Outline.IsQuoted (escaped text ++ ['"']) (String.ofList read) := by
  intro rest index line column
  rw [List.append_assoc, List.singleton_append]
  exact h.readQuoted_eq rest index line column

/-- A text that is kept is read back from its quotes. -/
theorem isQuoted_of_isKept {text : List Char} (h : isKept text = true) :
    Outline.IsQuoted (escaped text ++ ['"']) (String.ofList text) := by
  obtain ⟨outcome, houtcome⟩ := exists_readsAs text
  obtain rfl := houtcome.kept.mpr h
  exact houtcome.isQuoted

end PackageScaffold.Yaml
