import PackageScaffold.Proofs.Text.Trim
import PackageScaffold.Template.Marker

/-!
# Names between braces

What stands between the braces of a marker is a sigil and a name, with blanks around both.  No
character of a name is a blank, a brace or a sigil, so a marker can be written in this way only, and
is read back from every body that it is written in.

* `Marker.IsWritten`: the bodies of a marker;
* `Marker.read?_eq_some_iff`: a body is read as a marker exactly if it is one of them.
-/

namespace PackageScaffold.Template

open Text

/-! ## The characters of a name -/

/-- The code points of a table, one by one. -/
theorem mem_of_inRanges {ranges : List (Nat × Nat)} {code : Nat} (h : inRanges ranges code = true) :
    code ∈ ranges.flatMap fun range => List.range' range.1 (range.2 + 1 - range.1) := by
  obtain ⟨⟨first, last⟩, hmem, hbounds⟩ := List.any_eq_true.mp h
  simp only [Bool.and_eq_true, decide_eq_true_eq] at hbounds
  refine List.mem_flatMap.mpr ⟨_, hmem, List.mem_range'_1.mpr ?_⟩
  dsimp only
  omega

/-- A blank is no character of a name. -/
theorem isNamePart_eq_false_of_isBlank {c : Char} (h : isBlank c = true) :
    isNamePart c = false := by
  have hall : ∀ code ∈ blankRanges.flatMap fun range =>
      List.range' range.1 (range.2 + 1 - range.1), isNamePart (Char.ofNat code) = false := by
    decide +kernel
  have hcode := hall c.toNat (mem_of_inRanges h)
  rwa [Char.ofNat_toNat] at hcode

/-- A brace is no character of a name. -/
theorem isPlain_of_isNamePart {c : Char} (h : isNamePart c = true) : isPlain c = true := by
  have hopen : c ≠ '{' := by
    rintro rfl
    revert h
    decide
  have hclose : c ≠ '}' := by
    rintro rfl
    revert h
    decide
  simp [isPlain, hopen, hclose]

theorem lt_of_isAlpha {c : Char} (h : c.isAlpha = true) : c.toNat < 128 := by
  rcases Bool.or_eq_true_iff.mp h with hupper | hlower
  · have hle : c.toNat ≤ 'Z'.toNat := (of_decide_eq_true hupper).2
    exact Nat.lt_of_le_of_lt hle (by decide)
  · have hle : c.toNat ≤ 'z'.toNat := of_decide_eq_true (Bool.and_eq_true_iff.mp hlower).2
    exact Nat.lt_of_le_of_lt hle (by decide)

theorem isNamePart_of_isNameStart {c : Char} (h : isNameStart c = true) : isNamePart c = true := by
  unfold isNameStart at h
  rcases Bool.or_eq_true_iff.mp h with halpha | hunderscore
  · simp [isNamePart, isWord, lt_of_isAlpha halpha, Char.isAlphanum, halpha]
  · obtain rfl := beq_iff_eq.mp hunderscore
    decide

/-- A name has a first character, and none of its characters is a blank, a brace or a sigil. -/
theorem isName_chars {name : List Char} (h : isName name = true) :
    name ≠ [] ∧ ∀ c ∈ name, isBlank c = false ∧ isPlain c = true ∧ c ≠ '#' ∧ c ≠ '/' := by
  have hpart : name ≠ [] ∧ ∀ c ∈ name, isNamePart c = true := by
    cases name with
    | nil => simp [isName] at h
    | cons c cs =>
        refine ⟨by simp, ?_⟩
        rcases Bool.or_eq_true_iff.mp h with hdot | hname
        · simp only [Bool.and_eq_true, beq_iff_eq, List.isEmpty_iff] at hdot
          obtain ⟨rfl, rfl⟩ := hdot
          exact List.forall_mem_singleton.mpr (by decide)
        · simp only [Bool.and_eq_true, List.all_eq_true] at hname
          exact List.forall_mem_cons.mpr ⟨isNamePart_of_isNameStart hname.1, hname.2⟩
  refine ⟨hpart.1, fun c hc => ?_⟩
  have hname := hpart.2 c hc
  refine ⟨?_, isPlain_of_isNamePart hname, ?_, ?_⟩
  · cases hblank : isBlank c with
    | false => rfl
    | true => simp [isNamePart_eq_false_of_isBlank hblank] at hname
  all_goals
    rintro rfl
    revert hname
    decide

/-! ## Reading markers -/

/-- The character in front of the name that says what a marker does. -/
def MarkerKind.sigil : MarkerKind → List Char
  | .variable => []
  | .opening => ['#']
  | .closing => ['/']

/-- The bodies that a marker can be written in: its sigil and its name, which is a valid one, with
blanks in front of them, between them and behind them. -/
def Marker.IsWritten (marker : Marker) (body : List Char) : Prop :=
  isName marker.name.toList = true ∧ ∃ front gap back,
    (∀ c ∈ front ++ gap ++ back, isBlank c = true) ∧
      body = front ++ (marker.kind.sigil ++ gap ++ marker.name.toList) ++ back

/-- The sigil of a section is no blank. -/
theorem head?_sigil_append {kind : MarkerKind} (h : kind.isSection = true) (gap : List Char) :
    ∀ c, (kind.sigil ++ gap).head? = some c → isBlank c = false := by
  cases kind with
  | «variable» => simp [MarkerKind.isSection] at h
  | opening | closing =>
      rintro c hc
      obtain rfl : _ = c := Option.some.inj hc
      decide

/-- A text that begins with a character of a sigil or a name, and ends with a name, has no blanks at
its ends. -/
theorem trimBy_of_isName {name front lead back : List Char} (hname : isName name = true)
    (hfront : ∀ c ∈ front, isBlank c = true) (hback : ∀ c ∈ back, isBlank c = true)
    (hlead : ∀ c, lead.head? = some c → isBlank c = false) :
    trimBy isBlank (front ++ (lead ++ name) ++ back) = lead ++ name := by
  obtain ⟨hne, hchars⟩ := isName_chars hname
  refine trimBy_around hfront hback (fun c hc => ?_) fun c hc => ?_
  · rw [List.head?_append] at hc
    cases hhead : lead.head? with
    | none => exact (hchars c (List.mem_of_mem_head? (by simpa [hhead] using hc))).1
    | some first => exact hlead c (by simpa [hhead] using hc)
  · rw [List.getLast?_append, List.getLast?_eq_some_getLast hne, Option.some_or] at hc
    exact (hchars c (Option.some.inj hc ▸ List.getLast_mem hne)).1

/-- A body is read as a marker exactly if the marker can be written in it. -/
theorem Marker.read?_eq_some_iff {marker : Marker} {body : List Char} :
    Marker.read? body = some marker ↔ marker.IsWritten body := by
  constructor
  · intro h
    obtain ⟨front, back, hfront, hback, hbody⟩ := exists_trimBy isBlank body
    unfold Marker.read? at h
    split at h
    rename_i kind name hcore
    split at h
    · rename_i hname
      obtain rfl := Option.some.inj h
      -- the sigil says which of the three cases it is
      split at hcore
      case h_1 | h_2 =>
        obtain ⟨rfl, rfl⟩ := Prod.mk.inj hcore
        rename_i rest hsigil
        obtain ⟨gap, hgap, hrest⟩ := exists_trimStart isBlank rest
        refine ⟨by simpa using hname, front, gap, back,
          List.forall_mem_append.mpr ⟨List.forall_mem_append.mpr ⟨hfront, hgap⟩, hback⟩, ?_⟩
        rw [String.toList_ofList, List.append_assoc _ gap, ← hrest]
        rwa [hsigil] at hbody
      case h_3 =>
        obtain ⟨rfl, rfl⟩ := Prod.mk.inj hcore
        refine ⟨by simpa using hname, front, [], back,
          by simpa using List.forall_mem_append.mpr ⟨hfront, hback⟩, ?_⟩
        simpa [MarkerKind.sigil] using hbody
    · simp at h
  · obtain ⟨kind, name⟩ := marker
    rintro ⟨hname, front, gap, back, hblank, rfl⟩
    dsimp only at hname ⊢
    obtain ⟨-, hchars⟩ := isName_chars hname
    simp only [List.forall_mem_append] at hblank
    obtain ⟨⟨hfront, hgap⟩, hback⟩ := hblank
    have hstart : trimStart isBlank (gap ++ name.toList) = name.toList := by
      rw [trimStart_append_of_pos hgap]
      exact trimStart_eq_self fun c hc => (hchars c (List.mem_of_mem_head? hc)).1
    cases hsection : kind.isSection with
    | true =>
        have hcore := trimBy_of_isName hname hfront hback (head?_sigil_append hsection gap)
        unfold Marker.read?
        rw [hcore]
        cases kind with
        | «variable» => simp [MarkerKind.isSection] at hsection
        | opening | closing => simp [MarkerKind.sigil, hstart, hname]
    | false =>
        obtain rfl : kind = .variable := by cases kind <;> simp_all [MarkerKind.isSection]
        have hcore := trimBy_of_isName hname (List.forall_mem_append.mpr ⟨hfront, hgap⟩) hback
          (show ∀ c, ([] : List Char).head? = some c → isBlank c = false by simp)
        simp only [List.append_assoc, List.nil_append] at hcore
        simp only [Marker.read?, MarkerKind.sigil, List.nil_append, List.append_assoc, hcore]
        split
        · exact absurd rfl (hchars '#' (by simp [*])).2.2.1
        · exact absurd rfl (hchars '/' (by simp [*])).2.2.2
        · simp [hname]

/-- A section marker is read from its sigil and its name. -/
theorem read?_section {name : List Char} (h : isName name = true) :
    Marker.read? ('#' :: name) = some ⟨.opening, String.ofList name⟩ ∧
      Marker.read? ('/' :: name) = some ⟨.closing, String.ofList name⟩ := by
  have hwritten : ∀ kind : MarkerKind,
      (⟨kind, String.ofList name⟩ : Marker).IsWritten (kind.sigil ++ name) :=
    fun kind => ⟨by simpa using h, [], [], [], by simp, by simp⟩
  exact ⟨Marker.read?_eq_some_iff.mpr (hwritten .opening),
    Marker.read?_eq_some_iff.mpr (hwritten .closing)⟩

end PackageScaffold.Template
