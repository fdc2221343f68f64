import PackageScaffold.Proofs.Template.Line

/-!
# Tokens lose nothing

The tokens of a template stand for all of its text, in order.  A marker stands for what is written
between and with its braces; a section marker that stands alone on its line stands for that line,
with the indentation in front of it and the line feed behind it.

## Main statements

* `sources_tokenize`: the sources of the tokens of a template make up the template;
* `isPlaced_tokenize`: what every marker of a template takes with it, by what stands around it.
-/

namespace PackageScaffold.Template

open Text

/-- The text that a token sequence stands for. -/
def sources (tokens : List Token) : List Char :=
  tokens.flatMap fun token => token.source.toList

@[simp]
theorem sources_nil : sources [] = [] := rfl

@[simp]
theorem sources_cons (token : Token) (tokens : List Token) :
    sources (token :: tokens) = token.source.toList ++ sources tokens := rfl

@[simp]
theorem sources_append (first second : List Token) :
    sources (first ++ second) = sources first ++ sources second := by
  simp [sources]

@[simp]
theorem sources_flush (lead : List Char) : sources (flush lead) = lead.reverse := by
  cases lead with
  | nil => rfl
  | cons c cs => simp [flush, Token.source]

/-! ## The scanner, marker by marker -/

/-- What holds at the end of a text, and in front of a character or a marker if it holds behind it,
holds of what the scanner makes of every text. -/
theorem scan_induction {motive : List Char → Bool → List Char → List Token → Prop}
    (nil : ∀ lead fresh, motive lead fresh [] (flush lead))
    (char : ∀ lead fresh c cs, bracedBody? (c :: cs) = none →
      motive (c :: lead) (c == '\n' || (fresh && isIndent c)) cs
        (scan (c :: lead) (c == '\n' || (fresh && isIndent c)) 0 cs) →
      motive lead fresh (c :: cs) (scan (c :: lead) (c == '\n' || (fresh && isIndent c)) 0 cs))
    (braces : ∀ lead fresh body after, (∀ c ∈ body, isPlain c = true) →
      markerAfter? lead body = none →
      motive ((spell body).reverse ++ lead) false after
        (scan ((spell body).reverse ++ lead) false 0 after) →
      motive lead fresh (spell body ++ after) (scan ((spell body).reverse ++ lead) false 0 after))
    (inline : ∀ lead fresh body after (marker : Marker), (∀ c ∈ body, isPlain c = true) →
      markerAfter? lead body = some marker → ownLine? marker fresh after = none →
        motive [] false after (scan [] false 0 after) →
      motive lead fresh (spell body ++ after)
        (flush lead ++ .marker marker.kind marker.name (String.ofList (spell body))
          (String.ofList (spell body)) :: scan [] false 0 after))
    (ownLine : ∀ lead fresh body tail after (marker : Marker), (∀ c ∈ body, isPlain c = true) →
      markerAfter? lead body = some marker →
      ownLine? marker fresh (tail ++ after) = some tail →
      motive [] true after (scan [] true 0 after) →
      motive lead fresh (spell body ++ (tail ++ after))
        (flush (lead.dropWhile isIndent) ++
          .marker marker.kind marker.name (String.ofList (spell body))
            (String.ofList ((lead.takeWhile isIndent).reverse ++ spell body ++ tail)) ::
            scan [] true 0 after))
    (lead : List Char) (fresh : Bool) (cs : List Char) :
    motive lead fresh cs (scan lead fresh 0 cs) := by
  -- a marker is passed over as a whole, so the induction is on the length of the text
  induction hlength : cs.length using Nat.strongRecOn generalizing cs lead fresh with
  | ind n ih =>
      have hbehind : ∀ lead fresh after, after.length < cs.length →
          motive lead fresh after (scan lead fresh 0 after) := fun lead fresh after hless =>
        ih after.length (by omega) lead fresh after rfl
      cases cs with
      | nil => exact nil lead fresh
      | cons c cs =>
          cases hbody : bracedBody? (c :: cs) with
          | none =>
              rw [scan_cons_of_none lead fresh hbody]
              exact char lead fresh c cs hbody (hbehind _ _ cs (by simp))
          | some pair =>
              obtain ⟨body, after⟩ := pair
              obtain ⟨hcs, hplain⟩ := bracedBody?_eq_some_iff.mp hbody
              rw [hcs, List.length_append, length_spell] at hbehind
              rw [hcs]
              cases hmarker : markerAfter? lead body with
              | none =>
                  rw [scan_spell_of_none hplain fresh hmarker]
                  exact braces lead fresh body after hplain hmarker (hbehind _ _ after (by omega))
              | some marker =>
                  cases hown : ownLine? marker fresh after with
                  | none =>
                      rw [scan_spell_of_inline hplain fresh hmarker hown]
                      exact inline lead fresh body after marker hplain hmarker hown
                        (hbehind _ _ after (by omega))
                  | some tail =>
                      obtain ⟨rest, rfl⟩ := exists_append_of_ownLine? hown
                      rw [scan_spell_of_ownLine hplain fresh hmarker hown]
                      rw [List.length_append] at hbehind
                      exact ownLine lead fresh body tail rest marker hplain hmarker hown
                        (hbehind _ _ rest (by omega))

/-! ## All of the text -/

theorem sources_scan (lead : List Char) (fresh : Bool) (cs : List Char) :
    sources (scan lead fresh 0 cs) = lead.reverse ++ cs := by
  refine scan_induction (motive := fun lead _ cs tokens => sources tokens = lead.reverse ++ cs)
    ?nil ?char ?braces ?inline ?ownLine lead fresh cs
  case nil =>
    intro lead _
    simp
  case char =>
    intro lead fresh c cs _ ih
    simp [ih]
  case braces =>
    intro lead fresh body after _ _ ih
    simp [ih]
  case inline =>
    intro lead fresh body after marker _ _ _ ih
    simp [ih, Token.source]
  case ownLine =>
    intro lead fresh body tail after marker _ _ _ ih
    have hlead : (lead.dropWhile isIndent).reverse ++ (lead.takeWhile isIndent).reverse =
        lead.reverse := by
      rw [← List.reverse_append, List.takeWhile_append_dropWhile]
    simp [ih, Token.source, ← hlead]

/-- The tokens of a template stand for all of its text. -/
theorem sources_tokenize (template : String) : sources (tokenize template) = template.toList := by
  simpa [tokenize] using sources_scan [] true template.toList

/-! ## The line that a marker stands on -/

/-- The end of a text behind its last line feed. -/
def lineSoFar (front : List Char) : List Char :=
  (front.reverse.takeWhile (· != '\n')).reverse

/-- The beginning of a text up to its first line feed, which is included. -/
def restOfLine (back : List Char) : List Char :=
  back.takeWhile (· != '\n') ++ (back.dropWhile (· != '\n')).take 1

/-- Whether a marker of the given kind stands alone on its line: it opens or closes a section, with
only spaces and tabs in front of it and only blanks behind it. -/
def standsAlone (kind : MarkerKind) (front back : List Char) : Bool :=
  kind.isSection && (lineSoFar front).all isIndent && (back.takeWhile (· != '\n')).all isLineEnd

/-- What a token between two texts stands for.  A marker stands for its braces and what is between
them, and for the rest of its line, line feed included, if it stands alone on the line. -/
def IsPlaced (before : List Char) (token : Token) (after : List Char) : Prop :=
  match token with
  | .literal _ => True
  | .marker kind _ text consumed =>
    ∃ body indent tail, text.toList = spell body ∧ consumed.toList = indent ++ spell body ++ tail ∧
      if standsAlone kind (before ++ indent) (tail ++ after) then
        indent = lineSoFar (before ++ indent) ∧ tail = restOfLine (tail ++ after)
      else indent = [] ∧ tail = []

theorem lineSoFar_concat (front : List Char) (c : Char) :
    lineSoFar (front ++ [c]) = if c = '\n' then [] else lineSoFar front ++ [c] := by
  by_cases hc : c = '\n' <;> simp [lineSoFar, hc]

/-- A line that holds a brace holds more than its indentation. -/
theorem all_lineSoFar_spell (front body : List Char) :
    (lineSoFar (front ++ spell body)).all isIndent = false := by
  have hbrace : front ++ spell body = (front ++ '{' :: '{' :: body ++ ['}']) ++ ['}'] := by
    simp [spell]
  rw [hbrace, lineSoFar_concat]
  simp [isIndent]

theorem blankLine?_eq (cs : List Char) :
    blankLine? cs =
      if (cs.takeWhile (· != '\n')).all isLineEnd then some (restOfLine cs) else none := by
  have hfeed : isLineEnd '\n' = false := by decide
  induction cs with
  | nil => rfl
  | cons c cs ih =>
      by_cases hc : c = '\n'
      · subst hc
        simp [blankLine?, restOfLine, hfeed]
      · by_cases hblank : isLineEnd c = true
        · have hcons : blankLine? (c :: cs) = (blankLine? cs).map (c :: ·) := by
            simp only [blankLine?, List.dropWhile_cons, hblank, if_true, List.takeWhile_cons]
            split <;> simp
          rw [hcons, ih]
          by_cases hall : (cs.takeWhile (· != '\n')).all isLineEnd = true <;>
            simp_all [restOfLine]
        · simp only [Bool.not_eq_true] at hblank
          simp [blankLine?, hblank, hc]

/-- What comes behind the rest of a line comes behind its line feed. -/
theorem getLast?_of_restOfLine {tail after : List Char} (h : tail = restOfLine (tail ++ after))
    (hafter : after ≠ []) : tail.getLast? = some '\n' := by
  have hsplit := List.takeWhile_append_dropWhile (p := (· != '\n')) (l := tail ++ after)
  have hhead := List.head?_dropWhile_not (· != '\n') (tail ++ after)
  cases hdrop : (tail ++ after).dropWhile (· != '\n') with
  | nil =>
      rw [restOfLine, hdrop] at h
      rw [hdrop] at hsplit
      simp only [List.take_nil, List.append_nil] at h hsplit
      rw [← h] at hsplit
      exact absurd (List.append_right_eq_self.mp hsplit.symm) hafter
  | cons c cs =>
      rw [hdrop] at hhead
      obtain rfl : c = '\n' := by simpa using hhead
      rw [h, restOfLine, hdrop]
      simp

/-! ## What every marker takes -/

/-- Where the scanner stands: behind the text `older` of the markers it has read and the text `lead`
that it has read since.  It knows whether the current line is only indentation, and the text `lead`
begins a line, unless a marker stands in front of it on the line. -/
def IsAt (older lead : List Char) (fresh : Bool) : Prop :=
  fresh = (lineSoFar (older ++ lead.reverse)).all isIndent ∧
    (lineSoFar older = [] ∨ (lineSoFar older).all isIndent = false)

/-- On a line that is only indentation so far, the indentation is the end of what has been read
since the last marker. -/
theorem IsAt.lineSoFar_eq {older lead : List Char} (h : IsAt older lead true) :
    lineSoFar (older ++ lead.reverse) = (lead.takeWhile isIndent).reverse := by
  obtain ⟨hindent, holder⟩ := h
  induction lead with
  | nil =>
      rcases holder with hempty | hbrace
      · simpa using hempty
      · simp [hbrace] at hindent
  | cons c cs ih =>
      rw [List.reverse_cons, ← List.append_assoc, lineSoFar_concat] at hindent ⊢
      by_cases hc : c = '\n'
      · have hfeed : isIndent '\n' = false := by decide
        simp [hc, hfeed]
      · simp only [hc, if_false, List.all_append, List.all_cons, List.all_nil, Bool.and_true,
          Bool.true_eq, Bool.and_eq_true] at hindent ⊢
        rw [ih hindent.1.symm]
        simp [hindent.2]

/-- Every token of a sequence is placed in the text that the sequence stands for, behind `front`. -/
def ArePlaced (front : List Char) (tokens : List Token) : Prop :=
  ∀ before token after, tokens = before ++ token :: after →
    IsPlaced (front ++ sources before) token (sources after)

theorem arePlaced_cons {front : List Char} {token : Token} {tokens : List Token}
    (hhead : IsPlaced front token (sources tokens))
    (htail : ArePlaced (front ++ token.source.toList) tokens) :
    ArePlaced front (token :: tokens) := by
  intro before other after heq
  cases before with
  | nil =>
      obtain ⟨rfl, rfl⟩ := List.cons.inj heq
      simpa using hhead
  | cons first before =>
      obtain ⟨rfl, rfl⟩ := List.cons.inj heq
      simpa using htail before other after rfl

theorem arePlaced_flush {front lead : List Char} {tokens : List Token}
    (h : ArePlaced (front ++ lead.reverse) tokens) : ArePlaced front (flush lead ++ tokens) := by
  cases lead with
  | nil => simpa [flush] using h
  | cons c cs => exact arePlaced_cons trivial (by simpa [Token.source] using h)

theorem arePlaced_scan (lead : List Char) (fresh : Bool) (cs : List Char) :
    ∀ older, (cs ≠ [] → IsAt older lead fresh) → ArePlaced older (scan lead fresh 0 cs) := by
  refine scan_induction (motive := fun lead fresh cs tokens =>
    ∀ older, (cs ≠ [] → IsAt older lead fresh) → ArePlaced older tokens)
    ?nil ?char ?braces ?inline ?ownLine lead fresh cs
  case nil =>
    intro lead fresh older _
    have hnone : ArePlaced (older ++ lead.reverse) [] := by
      intro before token after heq
      simp at heq
    simpa using arePlaced_flush hnone
  case char =>
    intro lead fresh c cs _ ih older hat
    obtain ⟨hfresh, holder⟩ := hat (by simp)
    refine ih older fun _ => ⟨?_, holder⟩
    rw [List.reverse_cons, ← List.append_assoc, lineSoFar_concat, hfresh]
    by_cases hc : c = '\n' <;> simp [hc]
  case braces =>
    intro lead fresh body after _ _ ih older hat
    obtain ⟨-, holder⟩ := hat (by simp [spell])
    refine ih older fun _ => ⟨?_, holder⟩
    rw [List.reverse_append, List.reverse_reverse, ← List.append_assoc, all_lineSoFar_spell]
  case inline =>
    intro lead fresh body after marker _ _ hown ih older hat
    obtain ⟨hfresh, -⟩ := hat (by simp [spell])
    refine arePlaced_flush (arePlaced_cons ?_ ?_)
    · -- had it been alone on its line, it would have taken the line
      have hshares : standsAlone marker.kind (older ++ lead.reverse) after = false := by
        rw [ownLine?, blankLine?_eq, hfresh] at hown
        rw [Bool.eq_false_iff]
        intro halone
        simp only [standsAlone, Bool.and_eq_true] at halone
        obtain ⟨⟨hsection, hindent⟩, hblank⟩ := halone
        rw [if_pos (by rw [hsection, hindent]; rfl), if_pos hblank] at hown
        simp at hown
      refine ⟨body, [], [], by simp, by simp, ?_⟩
      simp [sources_scan, hshares]
    · refine ih _ fun _ => ?_
      have hline := all_lineSoFar_spell (older ++ lead.reverse) body
      simp only [IsAt, Token.source, String.toList_ofList, List.reverse_nil, List.append_nil]
      exact ⟨hline.symm, .inr hline⟩
  case ownLine =>
    intro lead fresh body tail after marker _ _ hown ih older hat
    have hread := hat (by simp [spell])
    unfold ownLine? at hown
    rw [blankLine?_eq] at hown
    split at hown
    · rename_i hsection
      obtain ⟨hsection, rfl⟩ := Bool.and_eq_true_iff.mp hsection
      split at hown
      · rename_i hblank
        have htail : tail = restOfLine (tail ++ after) := (Option.some_inj.mp hown).symm
        -- what the marker takes in front of it is the indentation of its line
        have hsplit : older ++ (lead.dropWhile isIndent).reverse ++
            (lead.takeWhile isIndent).reverse = older ++ lead.reverse := by
          rw [List.append_assoc, ← List.reverse_append, List.takeWhile_append_dropWhile]
        refine arePlaced_flush (arePlaced_cons ?_ ?_)
        · refine ⟨body, (lead.takeWhile isIndent).reverse, tail, by simp, by simp, ?_⟩
          have halone : standsAlone marker.kind (older ++ lead.reverse) (tail ++ after) = true := by
            simp [standsAlone, hsection, hblank, ← hread.1]
          rw [hsplit, sources_scan, List.reverse_nil, List.nil_append, if_pos halone]
          exact ⟨hread.lineSoFar_eq.symm, htail⟩
        · refine ih _ fun hafter => ?_
          obtain ⟨line, rfl⟩ := List.getLast?_eq_some_iff.mp (getLast?_of_restOfLine htail hafter)
          simp [IsAt, Token.source, ← List.append_assoc, lineSoFar_concat]
      · simp at hown
    · simp at hown

/-- Every token of a template is placed in its text. -/
theorem isPlaced_tokenize {template : String} {before after : List Token} {token : Token}
    (h : tokenize template = before ++ token :: after) :
    IsPlaced (sources before) token (sources after) := by
  have hplaced := arePlaced_scan [] true template.toList [] fun _ => ⟨rfl, .inl rfl⟩
  simpa using hplaced before token after h

end PackageScaffold.Template
