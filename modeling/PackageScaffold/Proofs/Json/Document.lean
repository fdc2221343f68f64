import PackageScaffold.Proofs.Json.Scalar

/-!
# Documents that are read back

A document is read as the value that it was written for: what is inside a list or a mapping is set
off by brackets and commas, and the blanks around it do not count.

* `ReadsBack`: what can be read back in front of a rest, and `readItems_row`, `readEntries_row`: rows of
  such items;
* `IsDocument`: the values that documents can hold;
* `read?_write`: they are read back;
* `not_mem_write`: a document has no carriage return, which a file would not give back.
-/

namespace PackageScaffold.Json

/-! ## Rows of items -/

/-- Texts with commas between them, and a gap in front of each of them. -/
def row (gap : List Char) : List (List Char) → List Char
  | [] => []
  | [text] => gap ++ text
  | text :: texts => gap ++ text ++ ',' :: row gap texts

theorem row_cons (gap text : List Char) {texts : List (List Char)} (h : texts ≠ []) :
    row gap (text :: texts) = gap ++ (text ++ ',' :: row gap texts) := by
  cases texts with
  | nil => exact absurd rfl h
  | cons next texts => simp [row]

theorem row_eq_intercalate (gap : List Char) {texts : List (List Char)} (h : texts ≠ []) :
    gap ++ List.intercalate (',' :: gap) texts = row gap texts := by
  induction texts with
  | nil => exact absurd rfl h
  | cons text texts ih =>
      cases texts with
      | nil => simp [row]
      | cons next texts =>
          rw [row_cons gap text (by simp), ← ih (by simp), List.intercalate_cons_cons]
          simp

/-- A list or a mapping that is not empty is laid out as a row between two brackets. -/
theorem toList_laidOut (opening closing : String) (level : Nat) {items : List String}
    (h : items ≠ []) :
    (laidOut opening closing level items).toList =
      opening.toList ++ (row (newLine (level + 1)).toList (items.map String.toList) ++
        ((newLine level).toList ++ closing.toList)) := by
  have hne : items.map String.toList ≠ [] := by simpa using h
  have hempty : items.isEmpty = false := by simpa using h
  rw [laidOut, hempty, ← row_eq_intercalate _ hne]
  simp [Text.join, String.toList_intercalate]

theorem isBlank_of_mem_newLine (level : Nat) : ∀ c ∈ (newLine level).toList, isBlank c = true := by
  intro c hc
  simp only [newLine, String.toList_ofList, List.mem_cons, List.mem_replicate] at hc
  rcases hc with rfl | ⟨-, rfl⟩ <;> decide

/-- A number ends where its item does, also if blanks come first. -/
theorem endsNumber_of_mark {blanks : List Char} (hblanks : ∀ c ∈ blanks, isBlank c = true)
    (mark : Char)
    (hmark : mark ∈ [',', ']', '\x7d']) (rest : List Char) :
    EndsNumber (blanks ++ mark :: rest) := by
  have hends : ∀ c ∈ [' ', '\t', '\n', '\r', ',', ']', '\x7d'],
      c.isDigit = false ∧ c ≠ '.' ∧ c ≠ 'e' ∧ c ≠ 'E' := by
    simp
  intro c hc
  refine hends c ?_
  cases blanks with
  | nil =>
      obtain rfl : mark = c := by simpa using hc
      simp only [List.mem_cons, List.not_mem_nil, or_false] at hmark ⊢
      simp [hmark]
  | cons blank blanks =>
      obtain rfl : blank = c := by simpa using hc
      have hblank := hblanks blank List.mem_cons_self
      simp only [isBlank, Bool.or_eq_true, beq_iff_eq] at hblank
      rcases hblank with ((rfl | rfl) | rfl) | rfl <;> simp

/-- A value is read back from its text, with as much fuel as the text is long, in front of
everything that a number does not go on with. -/
def ReadsBack (levels : Nat) (value : Value) (text : List Char) : Prop :=
  ∀ fuel rest, text.length < fuel → EndsNumber rest →
    readValue levels fuel (text ++ rest) = some (value, rest)

theorem ReadsBack.of_succ {levels : Nat} {value : Value} {text : List Char}
    (h : ∀ fuel rest, text.length ≤ fuel → EndsNumber rest →
      readValue levels (fuel + 1) (text ++ rest) = some (value, rest)) :
    ReadsBack levels value text := by
  intro fuel rest hfuel hrest
  cases fuel with
  | zero => exact absurd hfuel (Nat.not_lt_zero _)
  | succ fuel => exact h fuel rest (Nat.le_of_lt_succ hfuel) hrest

section Row

variable {levels : Nat} {gap back : List Char} (hgap : ∀ c ∈ gap, isBlank c = true)
  (hwide : gap ≠ []) (hback : ∀ c ∈ back, isBlank c = true)

include hgap hwide hback

theorem readItems_row {texts : Value → List Char} {items : List Value} (hne : items ≠ [])
    (hread : ∀ item ∈ items, ReadsBack levels item (texts item)) {fuel : Nat}
    (hfuel : (row gap (items.map texts)).length < fuel) (rest : List Char) :
    readItems levels fuel (row gap (items.map texts) ++ (back ++ ']' :: rest)) =
      some (items, rest) := by
  -- every item costs one more step, which the gap in front of it pays for
  have hlength := List.length_pos_iff.mpr hwide
  induction items generalizing fuel with
  | nil => exact absurd rfl hne
  | cons item items ih =>
      obtain ⟨hitem, hitems⟩ := List.forall_mem_cons.mp hread
      obtain ⟨fuel, rfl⟩ : ∃ more, fuel = more + 1 := ⟨fuel - 1, by omega⟩
      cases items with
      | nil =>
          simp only [List.map_cons, List.map_nil, row, List.length_append] at hfuel
          have hread := hitem fuel _ (by omega) (endsNumber_of_mark hback ']' (by simp) rest)
          simp only [List.map_cons, List.map_nil, row, List.append_assoc]
          rw [readItems_blanks hgap, readItems, hread]
          simp [passBlanks_append hback, passBlanks_cons (show isBlank ']' = false by decide)]
      | cons next items =>
          rw [List.map_cons, row_cons gap _ (by simp)] at hfuel ⊢
          simp only [List.length_append, List.length_cons] at hfuel
          have hread := hitem fuel _ (by omega) (endsNumber_of_mark (List.forall_mem_nil _) ','
            (by simp) (row gap ((next :: items).map texts) ++ (back ++ ']' :: rest)))
          simp only [List.append_assoc, List.cons_append, List.nil_append] at hread ⊢
          rw [readItems_blanks hgap, readItems, hread, Option.bind_eq_bind, Option.bind_some]
          simp only [passBlanks_cons (show isBlank ',' = false by decide)]
          rw [ih (by simp) hitems (by omega)]
          rfl

/-- The text of an entry of a mapping. -/
def entryText (texts : Value → List Char) (field : String × Value) : List Char :=
  (quote field.1).toList ++ ':' :: ' ' :: texts field.2

omit hwide hback in
/-- The key of an entry is read, and then its value behind a blank. -/
theorem readEntries_entry (texts : Value → List Char) (field : String × Value) (fuel : Nat)
    (behind : List Char) :
    readEntries levels (fuel + 1) (gap ++ (entryText texts field ++ behind)) =
      (readValue levels fuel (texts field.2 ++ behind)).bind fun read =>
        match passBlanks read.2 with
        | '\x7d' :: rest => some ([(.text field.1, read.1)], rest)
        | ',' :: rest => (readEntries levels fuel rest).bind fun more =>
          some ((.text field.1, read.1) :: more.1, more.2)
        | _ => none := by
  have hquote : (quote field.1).toList ++ ':' :: ' ' :: (texts field.2 ++ behind) =
      '"' :: (field.1.toList.flatMap escapeChar ++ '"' :: ':' :: ' ' ::
        (texts field.2 ++ behind)) := by
    simp [quote]
  have hblank : readValue levels fuel (' ' :: (texts field.2 ++ behind)) =
      readValue levels fuel (texts field.2 ++ behind) :=
    readValue_blanks (show ∀ c ∈ [' '], isBlank c = true by simp [isBlank]) levels fuel _
  simp only [entryText, List.append_assoc, List.cons_append]
  rw [readEntries, passBlanks_append hgap, hquote, passBlanks_cons (by decide)]
  simp only [readText_quote, Option.bind_eq_bind, Option.bind_some, String.ofList_toList,
    passBlanks_cons (show isBlank ':' = false by decide), hblank]
  rfl

theorem readEntries_row (texts : Value → List Char) {fields : List (String × Value)}
    (hne : fields ≠ []) (hread : ∀ field ∈ fields, ReadsBack levels field.2 (texts field.2))
    {fuel : Nat} (hfuel : (row gap (fields.map (entryText texts))).length < fuel)
    (rest : List Char) :
    readEntries levels fuel (row gap (fields.map (entryText texts)) ++ (back ++ '\x7d' :: rest)) =
      some (fields.map fun field => (.text field.1, field.2), rest) := by
  have hlength := List.length_pos_iff.mpr hwide
  induction fields generalizing fuel with
  | nil => exact absurd rfl hne
  | cons field fields ih =>
      obtain ⟨hfield, hfields⟩ := List.forall_mem_cons.mp hread
      obtain ⟨fuel, rfl⟩ : ∃ more, fuel = more + 1 := ⟨fuel - 1, by omega⟩
      -- behind the last entry the row ends, behind every other one is a comma
      cases fields with
      | nil =>
          simp only [List.map_cons, List.map_nil, row, List.length_append, entryText,
            List.length_cons] at hfuel
          have hread := hfield fuel _ (by omega) (endsNumber_of_mark hback '\x7d' (by simp) rest)
          simp only [List.map_cons, List.map_nil, row, List.append_assoc]
          rw [readEntries_entry hgap, hread]
          simp [passBlanks_append hback, passBlanks_cons (show isBlank '\x7d' = false by decide)]
      | cons next fields =>
          rw [List.map_cons, row_cons gap _ (by simp)] at hfuel ⊢
          simp only [List.length_append, List.length_cons, entryText] at hfuel
          have hread := hfield fuel _ (by omega) (endsNumber_of_mark (List.forall_mem_nil _) ','
            (by simp) (row gap ((next :: fields).map (entryText texts)) ++
              (back ++ '\x7d' :: rest)))
          simp only [List.append_assoc, List.cons_append, List.nil_append] at hread ⊢
          rw [readEntries_entry hgap, hread, Option.bind_some]
          simp only [passBlanks_cons (show isBlank ',' = false by decide)]
          rw [ih (by simp) hfields (by omega)]
          rfl

end Row

/-! ## Lists and mappings -/

theorem exists_blanks (cs : List Char) :
    ∃ blanks, (∀ c ∈ blanks, isBlank c = true) ∧ cs = blanks ++ passBlanks cs :=
  ⟨cs.takeWhile isBlank, List.all_eq_true.mp List.all_takeWhile,
    List.takeWhile_append_dropWhile.symm⟩

/-- No value begins with the end of a list. -/
theorem readValue_eq_none {levels fuel : Nat} {cs more : List Char}
    (h : passBlanks cs = ']' :: more) :
    readValue levels fuel cs = none := by
  cases fuel with
  | zero => rfl
  | succ fuel =>
      have hdigit : ']'.isDigit = false := by decide
      simp [readValue, h, readMagnitude, hdigit, guard]

theorem readValue_items {levels fuel : Nat} {cs rest : List Char} {items : List Value}
    (h : readItems levels fuel cs = some (items, rest)) :
    readValue (levels + 1) (fuel + 1) ('[' :: cs) = some (.list items, rest) := by
  obtain ⟨blanks, hblanks, hcs⟩ := exists_blanks cs
  have hstart : ∀ more, passBlanks cs ≠ ']' :: more := by
    intro more hend
    cases fuel with
    | zero => simp [readItems] at h
    | succ fuel => simp [readItems, readValue_eq_none hend] at h
  rw [hcs, readItems_blanks hblanks] at h
  rw [readValue, passBlanks_cons (by decide)]
  simp [guard, h]

theorem readValue_entries {levels fuel : Nat} {cs rest : List Char} {fields : List (Value × Value)}
    (h : readEntries levels fuel cs = some (fields, rest)) :
    readValue (levels + 1) (fuel + 1) ('\x7b' :: cs) =
      some (.map (Entries.ofList fields), rest) := by
  obtain ⟨blanks, hblanks, hcs⟩ := exists_blanks cs
  have hstart : ∀ more, passBlanks cs ≠ '\x7d' :: more := by
    intro more hend
    cases fuel with
    | zero => simp [readEntries] at h
    | succ fuel => simp [readEntries, hend] at h
  rw [hcs, readEntries_blanks hblanks] at h
  rw [readValue, passBlanks_cons (by decide)]
  simp [guard, h]

/-! ## Documents -/

/-- The entries of a mapping whose keys are names. -/
def named (fields : List (String × Value)) : Entries :=
  fields.map fun field => (.text field.1, field.2)

theorem put_named {fields : List (String × Value)} {name : String}
    (h : name ∉ fields.map Prod.fst) (value : Value) :
    Entries.put (named fields) (.text name) value = named (fields ++ [(name, value)]) := by
  induction fields with
  | nil => rfl
  | cons field fields ih =>
      obtain ⟨hne, hmore⟩ := not_or.mp (mt List.mem_cons.mpr h)
      have hother : (Value.text field.1).sameKey (.text name) = false := by
        simpa [Value.sameKey] using Ne.symm hne
      rw [named, List.map_cons, Entries.put, hother]
      exact congrArg (_ :: ·) (ih hmore)

/-- Fields with new and distinct names come behind those that are there. -/
theorem foldl_put_named {front fields : List (String × Value)}
    (h : ((front ++ fields).map Prod.fst).Nodup) :
    (named fields).foldl (fun entries (entry : Value × Value) => entries.put entry.1 entry.2)
      (named front) = named (front ++ fields) := by
  induction fields generalizing front with
  | nil => simp [named]
  | cons field fields ih =>
      have hnew : field.1 ∉ front.map Prod.fst := by
        rw [List.map_append, List.nodup_append] at h
        exact fun hmem => h.2.2 _ hmem _ (List.mem_map_of_mem List.mem_cons_self) rfl
      have hmore := @ih (front ++ [field]) (by simpa using h)
      rw [← put_named hnew, List.append_assoc] at hmore
      exact hmore

/-- A mapping with distinct names is built as it is. -/
theorem ofList_named {fields : List (String × Value)} (h : (fields.map Prod.fst).Nodup) :
    Entries.ofList (named fields) = named fields := by
  simpa [Entries.ofList, named] using @foldl_put_named [] fields h

/-- A value that a document can hold, with values on `levels` levels inside it: texts, truth values
and whole numbers that are not too long, and lists and mappings of them, with distinct names. -/
inductive IsDocument : Nat → Value → Prop
  | null (levels : Nat) : IsDocument levels .null
  | bool (levels : Nat) (value : Bool) : IsDocument levels (.bool value)
  | int (levels : Nat) {value : Int} (h : (Value.wholeText value).length ≤ 4300) :
      IsDocument levels (.int value)
  | text (levels : Nat) (value : String) : IsDocument levels (.text value)
  | list {levels : Nat} {items : List Value} (h : ∀ item ∈ items, IsDocument levels item) :
      IsDocument (levels + 1) (.list items)
  | map {levels : Nat} {fields : List (String × Value)} (hdistinct : (fields.map Prod.fst).Nodup)
      (h : ∀ field ∈ fields, IsDocument levels field.2) : IsDocument (levels + 1) (.map (named fields))

theorem writeItems_eq_map (level : Nat) (items : List Value) :
    writeItems level items = items.map (write level) := by
  induction items with
  | nil => rfl
  | cons item items ih => rw [writeItems, ih, List.map_cons]

theorem writeEntries_named (level : Nat) (fields : List (String × Value)) :
    (writeEntries level (named fields)).map String.toList =
      fields.map (entryText fun value => (write level value).toList) := by
  induction fields with
  | nil => rfl
  | cons field fields ih =>
      rw [named, List.map_cons, writeEntries, List.map_cons, List.map_cons]
      refine congrArg₂ _ ?_ ih
      simp [entryText, Value.display]

theorem readsBack_list {levels level : Nat} {items : List Value}
    (h : ∀ item ∈ items, ReadsBack levels item (write (level + 1) item).toList) :
    ReadsBack (levels + 1) (.list items) (write level (.list items)).toList := by
  refine .of_succ fun fuel rest hfuel _ => ?_
  rw [write, writeItems_eq_map] at hfuel ⊢
  by_cases hempty : items = []
  · subst hempty
    have htext : (laidOut "[" "]" level []).toList = ['[', ']'] := by simp [laidOut]
    rw [List.map_nil, htext, List.cons_append, readValue, passBlanks_cons (by decide)]
    simp [passBlanks_cons (show isBlank ']' = false by decide)]
  · have htexts : (items.map (write (level + 1))).map String.toList =
        items.map fun item => (write (level + 1) item).toList := List.map_map
    rw [toList_laidOut _ _ _ (by simpa using hempty), htexts] at hfuel ⊢
    simp only [List.length_append] at hfuel
    have hrow : (row (newLine (level + 1)).toList (items.map
        fun item => (write (level + 1) item).toList)).length < fuel := by
      have hclosing : "]".toList.length = 1 := by simp
      have hopening : "[".toList.length = 1 := by simp
      omega
    have hitems := readItems_row (isBlank_of_mem_newLine _) (by simp [newLine])
      (isBlank_of_mem_newLine level) hempty h hrow rest
    simpa using readValue_items hitems

theorem readsBack_named {levels level : Nat} {fields : List (String × Value)}
    (hdistinct : (fields.map Prod.fst).Nodup)
    (h : ∀ field ∈ fields, ReadsBack levels field.2 (write (level + 1) field.2).toList) :
    ReadsBack (levels + 1) (.map (named fields)) (write level (.map (named fields))).toList := by
  refine .of_succ fun fuel rest hfuel _ => ?_
  rw [write] at hfuel ⊢
  by_cases hempty : fields = []
  · subst hempty
    have htext : (laidOut "\x7b" "\x7d" level []).toList = ['\x7b', '\x7d'] := by simp [laidOut]
    rw [named, List.map_nil, writeEntries, htext, List.cons_append, readValue,
      passBlanks_cons (by decide)]
    simp [passBlanks_cons (show isBlank '\x7d' = false by decide)]
  · have hne : writeEntries (level + 1) (named fields) ≠ [] := by
      intro hnil
      simpa [hnil, hempty] using writeEntries_named (level + 1) fields
    rw [toList_laidOut _ _ _ hne, writeEntries_named] at hfuel ⊢
    simp only [List.length_append] at hfuel
    have hrow : (row (newLine (level + 1)).toList (fields.map
        (entryText fun value => (write (level + 1) value).toList))).length < fuel := by
      have hclosing : "\x7d".toList.length = 1 := by simp
      have hopening : "\x7b".toList.length = 1 := by simp
      omega
    have hentries := readEntries_row (isBlank_of_mem_newLine _) (by simp [newLine])
      (isBlank_of_mem_newLine level) (fun value => (write (level + 1) value).toList) hempty h
        hrow rest
    have hvalue := readValue_entries hentries
    rw [← named, ofList_named hdistinct] at hvalue
    simpa using hvalue

/-- What is written for a value is read as the value, however deep it stands in a document. -/
theorem readsBack_write {levels : Nat} {value : Value} (h : IsDocument levels value) (level : Nat) :
    ReadsBack levels value (write level value).toList := by
  induction h generalizing level with
  | null levels =>
      refine .of_succ fun fuel rest _ _ => ?_
      have htext : (write level .null).toList = ['n', 'u', 'l', 'l'] := by simp [write]
      rw [htext, List.cons_append, readValue, passBlanks_cons (by decide)]
      simp [readWord]
  | bool levels value =>
      refine .of_succ fun fuel rest _ _ => ?_
      cases value with
      | true =>
          have htext : (write level (.bool true)).toList = ['t', 'r', 'u', 'e'] := by simp [write]
          rw [htext, List.cons_append, readValue, passBlanks_cons (by decide)]
          simp [readWord]
      | false =>
          have htext : (write level (.bool false)).toList = ['f', 'a', 'l', 's', 'e'] := by
            simp [write]
          rw [htext, List.cons_append, readValue, passBlanks_cons (by decide)]
          simp [readWord]
  | int levels hlength =>
      refine .of_succ fun fuel rest _ hrest => ?_
      rw [write]
      exact readValue_wholeText levels fuel hlength hrest
  | text levels value =>
      refine .of_succ fun fuel rest _ _ => ?_
      rw [write]
      exact readValue_quote levels fuel value rest
  | list h ih => exact readsBack_list fun item hitem => ih item hitem (level + 1)
  | map hdistinct h ih =>
      exact readsBack_named hdistinct fun field hfield => ih field hfield (level + 1)

/-- A document is read as the value that it was written for. -/
theorem read?_write {value : Value} (h : IsDocument 200 value) :
    read? (write 0 value) = some value := by
  have hread := readsBack_write h 0 ((write 0 value).length + 1) []
    (by rw [String.length_toList]; omega) (by simp [EndsNumber])
  rw [List.append_nil] at hread
  rw [read?, hread]
  rfl

/-! ## Characters of a document -/

theorem mem_row {c : Char} {gap : List Char} {texts : List (List Char)} (h : c ∈ row gap texts) :
    c ∈ gap ∨ c = ',' ∨ ∃ text ∈ texts, c ∈ text := by
  induction texts with
  | nil => simp [row] at h
  | cons text texts ih =>
      by_cases hempty : texts = []
      · subst hempty
        rcases List.mem_append.mp h with h | h
        · exact .inl h
        · exact .inr (.inr ⟨text, List.mem_cons_self, h⟩)
      · rw [row_cons gap text hempty] at h
        simp only [List.mem_append, List.mem_cons] at h
        rcases h with h | h | h | h
        · exact .inl h
        · exact .inr (.inr ⟨text, List.mem_cons_self, h⟩)
        · exact .inr (.inl h)
        · exact (ih h).imp_right (Or.imp_right fun ⟨text, hmem, hc⟩ =>
            ⟨text, List.mem_cons_of_mem _ hmem, hc⟩)

theorem not_mem_quote (text : String) : '\r' ∉ (quote text).toList := by
  have hescape : ∀ c, '\r' ∉ escapeChar c := by
    intro c
    rcases escapeChar_cases c with ⟨name, hname, hmem⟩ | ⟨hcode, hhex⟩ | ⟨hself, -, -, hcode⟩
    · have hall : ∀ pair ∈ shortEscapes, '\r' ∉ ['\\', pair.1] := by decide
      exact hname ▸ hall _ hmem
    · have hall : ∀ code < 32, '\r' ∉ '\\' :: 'u' :: Text.hex 4 code := by decide
      exact hhex ▸ hall _ hcode
    · rw [hself, List.mem_singleton]
      rintro rfl
      exact absurd hcode (by decide)
  simp [quote, hescape]

theorem not_mem_wholeText (n : Int) : '\r' ∉ (Value.wholeText n).toList := by
  have hdigits : '\r' ∉ Nat.toDigits 10 n.natAbs := fun hmem =>
    absurd (Nat.isDigit_of_mem_toDigits (by decide) (by decide) hmem) (by decide)
  by_cases hn : n < 0 <;> simp [Value.wholeText, hn, hdigits]

theorem not_mem_laidOut {opening closing : String} (hopening : '\r' ∉ opening.toList)
    (hclosing : '\r' ∉ closing.toList) (level : Nat) {items : List String}
    (h : ∀ item ∈ items, '\r' ∉ item.toList) :
    '\r' ∉ (laidOut opening closing level items).toList := by
  have hline : ∀ level, '\r' ∉ (newLine level).toList := by simp [newLine]
  by_cases hempty : items = []
  · subst hempty
    simp [laidOut, hopening, hclosing]
  · rw [toList_laidOut _ _ _ hempty]
    simp only [List.mem_append, not_or]
    refine ⟨hopening, fun hrow => ?_, hline level, hclosing⟩
    rcases mem_row hrow with hgap | hcomma | ⟨text, htext, hmem⟩
    · exact hline _ hgap
    · exact absurd hcomma (by decide)
    · obtain ⟨item, hitem, rfl⟩ := List.mem_map.mp htext
      exact h item hitem hmem

/-- A document has no carriage return in it. -/
theorem not_mem_write {levels : Nat} {value : Value} (h : IsDocument levels value) (level : Nat) :
    '\r' ∉ (write level value).toList := by
  induction h generalizing level with
  | null => simp [write]
  | bool levels value => cases value <;> simp [write]
  | @int levels value hlength =>
      rw [write]
      exact not_mem_wholeText value
  | text levels value =>
      rw [write]
      exact not_mem_quote value
  | @list levels items h ih =>
      rw [write, writeItems_eq_map]
      exact not_mem_laidOut (by simp) (by simp) level
        (List.forall_mem_map.mpr fun item hitem => ih item hitem (level + 1))
  | @map levels fields hdistinct h ih =>
      rw [write]
      refine not_mem_laidOut (by simp) (by simp) level fun text htext hmem => ?_
      have htexts := List.mem_map_of_mem (f := String.toList) htext
      rw [writeEntries_named] at htexts
      obtain ⟨field, hfield, hentry⟩ := List.mem_map.mp htexts
      rw [← hentry, entryText] at hmem
      simp only [List.mem_append, List.mem_cons] at hmem
      rcases hmem with hmem | hmem | hmem | hmem
      · exact not_mem_quote field.1 hmem
      · exact absurd hmem (by decide)
      · exact absurd hmem (by decide)
      · exact ih field hfield (level + 1) hmem

end PackageScaffold.Json
