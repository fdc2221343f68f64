import PackageScaffold.Template.Token

/-!
# Tokens of whole lines

A template is read line by line: what comes after a line feed has no influence on the tokens in
front of it, unless it closes a pair of braces that was opened there.

* `readsAlone_of_endsLine`: the tokens of whole lines, followed by a rest whose first brace, if it
  has one, is an opening one, are the tokens of the lines alone, with the last literal still open;
* `scan_marker_line`: a section marker on a line of its own gives one token, in front of which the
  text read so far is a token without the indentation.

Together they cut a template at its section lines, which is `scan_lines_marker`.
-/

namespace PackageScaffold.Template

open Text

/-! ## Braced bodies -/

theorem length_spell (body : List Char) : (spell body).length = body.length + 4 := by
  simp [spell]

/-- A braced body stands at the head of a text exactly where the text reads so. -/
theorem bracedBody?_eq_some_iff {cs body after : List Char} :
    bracedBody? cs = some (body, after) ↔
      cs = spell body ++ after ∧ ∀ c ∈ body, isPlain c = true := by
  constructor
  · intro h
    refine ⟨eq_append_of_bracedBody? h, ?_⟩
    unfold bracedBody? at h
    split at h
    · split at h
      · simp only [Option.some.injEq, Prod.mk.injEq] at h
        rw [← h.1]
        exact List.all_eq_true.mp List.all_takeWhile
      · simp at h
    · simp at h
  · rintro ⟨rfl, hplain⟩
    have htake : (body ++ '}' :: '}' :: after).takeWhile isPlain = body := by
      rw [List.takeWhile_append_of_pos hplain]
      simp [isPlain]
    have hdrop : (body ++ '}' :: '}' :: after).dropWhile isPlain = '}' :: '}' :: after := by
      rw [List.dropWhile_append_of_pos hplain]
      simp [isPlain]
    simp [spell, bracedBody?, htake, hdrop]

theorem bracedBody?_spell {body : List Char} (hplain : ∀ c ∈ body, isPlain c = true)
    (after : List Char) : bracedBody? (spell body ++ after) = some (body, after) :=
  bracedBody?_eq_some_iff.mpr ⟨rfl, hplain⟩

/-- A text whose first brace, if it has one, is an opening one. -/
def OpensFirst (cs : List Char) : Prop :=
  (cs.dropWhile isPlain).head? ≠ some '}'

theorem opensFirst_append {front cs : List Char} (hfront : ∀ c ∈ front, isPlain c = true) :
    OpensFirst (front ++ '{' :: cs) := by
  unfold OpensFirst
  rw [List.dropWhile_append_of_pos hfront]
  simp [isPlain]

/-- A braced body that is not there is not made by a later line, whose first brace is an opening
one. -/
theorem bracedBody?_append_eq_none {cs rest : List Char} (hline : cs.getLast? = some '\n')
    (hrest : OpensFirst rest) (h : bracedBody? cs = none) : bracedBody? (cs ++ rest) = none := by
  rcases cs with _ | ⟨a, _ | ⟨b, cs⟩⟩
  · simp at hline
  · obtain rfl : a = '\n' := by simpa using hline
    simp [bracedBody?]
  · by_cases hbraces : a = '{' ∧ b = '{'
    · obtain ⟨rfl, rfl⟩ := hbraces
      simp only [List.cons_append, bracedBody?, List.dropWhile_append] at h ⊢
      cases hdrop : cs.dropWhile isPlain with
      | nil =>
          -- the braces are open at the end of the lines
          simp only [List.isEmpty_nil, if_true]
          unfold OpensFirst at hrest
          split
          · rename_i hclose
            simp [hclose] at hrest
          · rfl
      | cons c tail =>
          have hlast : (c :: tail).getLast? = some '\n' := by
            obtain ⟨front, hfront⟩ := List.dropWhile_suffix isPlain (l := cs)
            rw [hdrop] at hfront
            rw [← hfront] at hline
            simpa [List.getLast?_cons, List.getLast?_append] using hline
          rw [hdrop] at h
          simp only [List.isEmpty_cons, Bool.false_eq_true, if_false, List.cons_append]
          rcases tail with _ | ⟨d, tail⟩
          · obtain rfl : c = '\n' := by simpa using hlast
            simp
          · split at h <;> simp_all
    · simp only [List.cons_append]
      unfold bracedBody?
      split
      · rename_i hcons
        simp only [List.cons.injEq] at hcons
        exact absurd ⟨hcons.1, hcons.2.1⟩ hbraces
      · rfl

/-! ## One step of the scanner

With the passing over of a marker's own characters taken out, the scanner goes on behind the
marker. -/

/-- The scanner passes over a marker that it has just read, and what the marker takes with it. -/
theorem scan_spell (lead : List Char) (fresh : Bool) (body tail after : List Char) :
    scan lead fresh (body.length + 3 + tail.length)
        ('{' :: body ++ ['}', '}'] ++ tail ++ after) = scan lead fresh 0 after := by
  have hlength : body.length + 3 + tail.length =
      ('{' :: body ++ ['}', '}'] ++ tail).length := by
    simp only [List.length_append, List.length_cons, List.length_nil]
  rw [hlength]
  exact scan_append_length lead fresh _ after

theorem scan_cons_of_none {c : Char} {cs : List Char} (lead : List Char) (fresh : Bool)
    (h : bracedBody? (c :: cs) = none) :
    scan lead fresh 0 (c :: cs) = scan (c :: lead) (c == '\n' || (fresh && isIndent c)) 0 cs := by
  simp only [scan, h]

section Marker

variable {lead body after : List Char} (hplain : ∀ c ∈ body, isPlain c = true)

include hplain

/-- Braces that hold no marker are literal text. -/
theorem scan_spell_of_none (fresh : Bool) (h : markerAfter? lead body = none) :
    scan lead fresh 0 (spell body ++ after) =
      scan ((spell body).reverse ++ lead) false 0 after := by
  have hbody := bracedBody?_spell hplain after
  have hskip := scan_spell ((spell body).reverse ++ lead) false body [] after
  simp only [spell, List.cons_append, List.append_nil, List.length_nil, Nat.add_zero]
    at hbody hskip ⊢
  rw [scan]
  simp only [hbody, h, ← hskip, spell, List.cons_append]

/-- A marker that shares its line takes only itself. -/
theorem scan_spell_of_inline {marker : Marker} (fresh : Bool)
    (h : markerAfter? lead body = some marker) (hown : ownLine? marker fresh after = none) :
    scan lead fresh 0 (spell body ++ after) =
      flush lead ++ .marker marker.kind marker.name (String.ofList (spell body))
        (String.ofList (spell body)) :: scan [] false 0 after := by
  have hbody := bracedBody?_spell hplain after
  have hskip := scan_spell [] false body [] after
  simp only [spell, List.cons_append, List.append_nil, List.length_nil, Nat.add_zero]
    at hbody hskip ⊢
  rw [scan]
  simp only [hbody, h, hown, ← hskip, spell, List.cons_append]

/-- A section marker on a line of its own takes the line. -/
theorem scan_spell_of_ownLine {marker : Marker} {tail : List Char} (fresh : Bool)
    (h : markerAfter? lead body = some marker)
    (hown : ownLine? marker fresh (tail ++ after) = some tail) :
    scan lead fresh 0 (spell body ++ (tail ++ after)) =
      flush (lead.dropWhile isIndent) ++
        .marker marker.kind marker.name (String.ofList (spell body))
          (String.ofList ((lead.takeWhile isIndent).reverse ++ spell body ++ tail)) ::
          scan [] true 0 after := by
  have hbody := bracedBody?_spell hplain (tail ++ after)
  have hskip := scan_spell [] true body tail after
  simp only [spell, List.cons_append, List.append_assoc] at hbody hskip ⊢
  rw [scan]
  simp only [hbody, h, hown, ← hskip, spell, List.cons_append, List.append_assoc]

end Marker

/-! ## Whole lines -/

/-- Whole lines: a text that is empty or ends in a line feed. -/
def EndsLine (cs : List Char) : Prop :=
  cs = [] ∨ cs.getLast? = some '\n'

instance (cs : List Char) : Decidable (EndsLine cs) :=
  inferInstanceAs (Decidable (_ ∨ _))

theorem EndsLine.of_append {front cs : List Char} (h : EndsLine (front ++ cs)) : EndsLine cs := by
  cases cs with
  | nil => exact .inl rfl
  | cons c cs =>
      rcases h with h | h
      · simp at h
      · refine .inr ?_
        rwa [List.getLast?_append, List.getLast?_cons, Option.some_or, ← List.getLast?_cons] at h

theorem EndsLine.getLast? {cs : List Char} (h : EndsLine cs) (hne : cs ≠ []) :
    cs.getLast? = some '\n' :=
  h.resolve_left hne

/-- The text read since the last marker is empty or ends in a line feed; it is given in reverse. -/
def AtLineStart (lead : List Char) : Prop :=
  lead = [] ∨ lead.head? = some '\n'

/-- What a section marker takes of the line behind it is the beginning of what follows it. -/
theorem exists_append_of_blankLine? {cs tail : List Char} (h : blankLine? cs = some tail) :
    ∃ rest, cs = tail ++ rest := by
  unfold blankLine? at h
  split at h
  · exact ⟨[], by simpa using h⟩
  · rename_i rest hdrop
    refine ⟨rest, ?_⟩
    have hsplit := List.takeWhile_append_dropWhile (p := isLineEnd) (l := cs)
    rw [hdrop] at hsplit
    rw [← Option.some_inj.mp h, ← hsplit]
    simp [hsplit]
  · simp at h

theorem exists_append_of_ownLine? {marker : Marker} {fresh : Bool} {after tail : List Char}
    (h : ownLine? marker fresh after = some tail) : ∃ rest, after = tail ++ rest := by
  unfold ownLine? at h
  split at h
  · exact exists_append_of_blankLine? h
  · simp at h

/-- A line that ends shows its end, whatever follows. -/
theorem ownLine?_append (marker : Marker) (fresh : Bool) {cs : List Char} (rest : List Char)
    (h : '\n' ∈ cs) : ownLine? marker fresh (cs ++ rest) = ownLine? marker fresh cs := by
  have hblank : blankLine? (cs ++ rest) = blankLine? cs := by
    have hsplit := List.takeWhile_append_dropWhile (p := isLineEnd) (l := cs)
    cases hdrop : cs.dropWhile isLineEnd with
    | nil =>
        rw [hdrop, List.append_nil] at hsplit
        have := List.all_eq_true.mp (List.all_takeWhile (p := isLineEnd) (l := cs)) '\n'
          (by rwa [hsplit])
        simp [isLineEnd] at this
    | cons c tail =>
        have htake : (cs ++ rest).takeWhile isLineEnd = cs.takeWhile isLineEnd := by
          rw [List.takeWhile_append, if_neg]
          intro heq
          have hlength := congrArg List.length hsplit
          simp [hdrop, heq] at hlength
        simp only [blankLine?, List.dropWhile_append, hdrop, htake, List.isEmpty_cons,
          Bool.false_eq_true, if_false, List.cons_append]
        split <;> simp_all
  simp only [ownLine?, hblank]

/-- Lines are read in front of a rest as they are read alone, after the text `lead`: with the same
tokens, except that their last literal, which is empty or ends in a line feed, may go on in the
rest. -/
def ReadsAlone (rest lead : List Char) (fresh : Bool) (cs : List Char) : Prop :=
  ∃ tokens last, AtLineStart last ∧
    scan lead fresh 0 (cs ++ rest) = tokens ++ scan last true 0 rest ∧
    scan lead fresh 0 cs = tokens ++ flush last

theorem ReadsAlone.nil (rest : List Char) {lead : List Char} (hlead : AtLineStart lead) :
    ReadsAlone rest lead true [] :=
  ⟨[], lead, hlead, rfl, rfl⟩

theorem ReadsAlone.step {rest lead lead' cs cs' : List Char} {fresh fresh' : Bool}
    (front : List Token) (h : ReadsAlone rest lead' fresh' cs')
    (happend : scan lead fresh 0 (cs ++ rest) = front ++ scan lead' fresh' 0 (cs' ++ rest))
    (halone : scan lead fresh 0 cs = front ++ scan lead' fresh' 0 cs') :
    ReadsAlone rest lead fresh cs := by
  obtain ⟨tokens, last, hlast, happend', halone'⟩ := h
  refine ⟨front ++ tokens, last, hlast, ?_, ?_⟩
  · rw [happend, happend', List.append_assoc]
  · rw [halone, halone', List.append_assoc]

/-- Lines end in a line feed and a marker does not, so something follows a marker in them. -/
theorem feed_mem_of_endsLine_spell {body after : List Char} (h : EndsLine (spell body ++ after)) :
    '\n' ∈ after := by
  have hlast := h.getLast? (by simp [spell])
  rw [List.getLast?_append] at hlast
  cases hafter : after.getLast? with
  | none => simp [hafter, spell, List.getLast?_cons, List.getLast?_append] at hlast
  | some c =>
      rw [hafter] at hlast
      obtain rfl : c = '\n' := by simpa using hlast
      exact List.mem_of_getLast? hafter

/-- Lines that begin with a marker, or with braces that hold none, are read as they are alone if the
lines behind it are. -/
theorem ReadsAlone.marker {rest body after : List Char} (hplain : ∀ c ∈ body, isPlain c = true)
    (hline : EndsLine (spell body ++ after))
    (ih : ∀ cs lead fresh, cs.length ≤ after.length → EndsLine cs →
      (cs = [] → fresh = true ∧ AtLineStart lead) → ReadsAlone rest lead fresh cs)
    (lead : List Char) (fresh : Bool) : ReadsAlone rest lead fresh (spell body ++ after) := by
  have hfeed := feed_mem_of_endsLine_spell hline
  have hne : after ≠ [] := List.ne_nil_of_mem hfeed
  have hafter : ∀ lead fresh, ReadsAlone rest lead fresh after := fun lead fresh =>
    ih after lead fresh (Nat.le_refl _) hline.of_append fun h => absurd h hne
  cases hmarker : markerAfter? lead body with
  | none =>
      refine .step [] (hafter ((spell body).reverse ++ lead) false) ?_ ?_
      · rw [List.append_assoc]
        exact scan_spell_of_none hplain fresh hmarker
      · exact scan_spell_of_none hplain fresh hmarker
  | some marker =>
      -- whether the marker takes its line is decided in front of the next line feed
      have hown := ownLine?_append marker fresh rest hfeed
      cases htail : ownLine? marker fresh after with
      | none =>
          rw [htail] at hown
          refine .step (flush lead ++ [.marker marker.kind marker.name (String.ofList (spell body))
            (String.ofList (spell body))]) (hafter [] false) ?_ ?_
          · rw [List.append_assoc, scan_spell_of_inline hplain fresh hmarker hown]
            simp
          · rw [scan_spell_of_inline hplain fresh hmarker htail]
            simp
      | some tail =>
          obtain ⟨more, rfl⟩ := exists_append_of_ownLine? htail
          rw [htail, List.append_assoc] at hown
          have hmore : ReadsAlone rest [] true more := ih more [] true (by simp)
            hline.of_append.of_append fun _ => ⟨rfl, .inl rfl⟩
          refine .step (flush (lead.dropWhile isIndent) ++ [.marker marker.kind marker.name
            (String.ofList (spell body)) (String.ofList
              ((lead.takeWhile isIndent).reverse ++ spell body ++ tail))]) hmore ?_ ?_
          · rw [List.append_assoc, List.append_assoc,
              scan_spell_of_ownLine hplain fresh hmarker hown]
            simp
          · rw [scan_spell_of_ownLine hplain fresh hmarker htail]
            simp

/-- Whole lines are read in front of a rest as they are alone, if the first brace of the rest, if it
has one, is an opening one. -/
theorem readsAlone_of_endsLine {rest : List Char} (hrest : OpensFirst rest) (cs lead : List Char)
    (fresh : Bool) (hline : EndsLine cs) (hstart : cs = [] → fresh = true ∧ AtLineStart lead) :
    ReadsAlone rest lead fresh cs := by
  -- a marker is passed over as a whole, so the induction is on the length of the lines
  induction hlength : cs.length using Nat.strongRecOn generalizing cs lead fresh with
  | ind n ih =>
      cases cs with
      | nil =>
          obtain ⟨rfl, hlead⟩ := hstart rfl
          exact .nil rest hlead
      | cons c cs =>
          cases hbody : bracedBody? (c :: cs) with
          | none =>
              have hlast : (c :: cs).getLast? = some '\n' := hline.getLast? (by simp)
              have hnone := bracedBody?_append_eq_none hlast hrest hbody
              have hline' : EndsLine cs := (show EndsLine ([c] ++ cs) from hline).of_append
              have hcs : ReadsAlone rest (c :: lead) (c == '\n' || (fresh && isIndent c)) cs := by
                refine ih cs.length (by simp [← hlength]) cs _ _ hline' ?_ rfl
                rintro rfl
                obtain rfl : c = '\n' := by simpa using hlast
                exact ⟨by simp, .inr rfl⟩
              exact .step [] hcs (scan_cons_of_none lead fresh hnone)
                (scan_cons_of_none lead fresh hbody)
          | some pair =>
              obtain ⟨body, after⟩ := pair
              obtain ⟨hcs, hplain⟩ := bracedBody?_eq_some_iff.mp hbody
              rw [hcs] at hline hlength ⊢
              refine .marker hplain hline (fun more lead' fresh' hshorter hmore hstart' => ?_) _ _
              refine ih more.length ?_ more lead' fresh' hmore hstart' rfl
              rw [← hlength, List.length_append, length_spell]
              omega

/-! ## Section markers on lines of their own -/

/-- Indentation is read like any other text, and the line stays fresh. -/
theorem scan_indent {indent : List Char} (hindent : ∀ c ∈ indent, isIndent c = true)
    (lead rest : List Char) :
    scan lead true 0 (indent ++ rest) = scan (indent.reverse ++ lead) true 0 rest := by
  induction indent generalizing lead with
  | nil => rfl
  | cons c cs ih =>
      obtain ⟨hc, hcs⟩ := List.forall_mem_cons.mp hindent
      have hnone : bracedBody? (c :: (cs ++ rest)) = none := by
        unfold bracedBody?
        split
        · rename_i heq
          simp only [List.cons.injEq] at heq
          simp [heq.1, isIndent] at hc
        · rfl
      rw [List.cons_append, scan_cons_of_none _ _ hnone, hc, Bool.true_and, Bool.or_true, ih hcs]
      simp

theorem blankLine?_of_isLineEnd {tail : List Char} (htail : ∀ c ∈ tail, isLineEnd c = true)
    (rest : List Char) : blankLine? (tail ++ '\n' :: rest) = some (tail ++ ['\n']) := by
  have hfeed : isLineEnd '\n' = false := by decide
  unfold blankLine?
  rw [List.dropWhile_append_of_pos htail, List.takeWhile_append_of_pos htail]
  simp [hfeed]

/-- A section marker that stands on a line with nothing but blanks takes the whole line: the text
read before the line stays as it is, and reading goes on behind the line. -/
theorem scan_marker_line {lead indent body tail : List Char} {marker : Marker}
    (hlead : AtLineStart lead) (hindent : ∀ c ∈ indent, isIndent c = true)
    (hplain : ∀ c ∈ body, isPlain c = true) (hmarker : Marker.read? body = some marker)
    (hsection : marker.kind.isSection = true) (htail : ∀ c ∈ tail, isLineEnd c = true)
    (rest : List Char) :
    ∃ consumed, scan lead true 0 (indent ++ (spell body ++ (tail ++ '\n' :: rest))) =
      flush lead ++ .marker marker.kind marker.name (String.ofList (spell body)) consumed ::
        scan [] true 0 rest := by
  have hafter : markerAfter? (indent.reverse ++ lead) body = some marker := by
    have hdollar : (indent.reverse ++ lead).head? ≠ some '$' := by
      rw [List.head?_append]
      cases hhead : indent.reverse.head? with
      | none => rcases hlead with rfl | hlead <;> simp_all
      | some c =>
          have hc := hindent c (by simpa using List.mem_of_head? hhead)
          rintro heq
          obtain rfl : c = '$' := by simpa using heq
          simp [isIndent] at hc
    rwa [markerAfter?, if_neg (by rwa [beq_iff_eq])]
  have hown : ownLine? marker true ((tail ++ ['\n']) ++ rest) = some (tail ++ ['\n']) := by
    simp [ownLine?, hsection, blankLine?_of_isLineEnd htail]
  -- only the indentation goes over to the marker: what is in front of it is another line
  have hdrop : (indent.reverse ++ lead).dropWhile isIndent = lead := by
    rw [List.dropWhile_append_of_pos (by simpa using hindent)]
    rcases hlead with rfl | hlead
    · rfl
    · cases lead with
      | nil => rfl
      | cons c cs =>
          obtain rfl : c = '\n' := by simpa using hlead
          simp [isIndent]
  have hscan := scan_spell_of_ownLine hplain true hafter hown
  rw [hdrop] at hscan
  have hrest : tail ++ '\n' :: rest = tail ++ ['\n'] ++ rest := by simp
  rw [scan_indent hindent, hrest, hscan]
  exact ⟨_, rfl⟩

theorem isPlain_of_isIndent {c : Char} (h : isIndent c = true) : isPlain c = true := by
  rcases Bool.or_eq_true_iff.mp h with h | h <;> obtain rfl := beq_iff_eq.mp h <;> decide

/-- Whole lines and then a section marker on a line of its own: the tokens of the lines, the marker,
and the tokens of what comes behind its line. -/
theorem scan_lines_marker {cs indent body tail : List Char} {marker : Marker}
    (hline : EndsLine cs) (hindent : ∀ c ∈ indent, isIndent c = true)
    (hplain : ∀ c ∈ body, isPlain c = true) (hmarker : Marker.read? body = some marker)
    (hsection : marker.kind.isSection = true) (htail : ∀ c ∈ tail, isLineEnd c = true)
    (rest : List Char) :
    ∃ consumed, scan [] true 0 (cs ++ (indent ++ (spell body ++ (tail ++ '\n' :: rest)))) =
      scan [] true 0 cs ++ .marker marker.kind marker.name (String.ofList (spell body)) consumed ::
        scan [] true 0 rest := by
  have hopens : OpensFirst (indent ++ (spell body ++ (tail ++ '\n' :: rest))) :=
    opensFirst_append fun c hc => isPlain_of_isIndent (hindent c hc)
  obtain ⟨tokens, last, hlast, happend, halone⟩ :=
    readsAlone_of_endsLine hopens cs [] true hline fun _ => ⟨rfl, .inl rfl⟩
  obtain ⟨consumed, hmark⟩ :=
    scan_marker_line hlast hindent hplain hmarker hsection htail rest
  refine ⟨consumed, ?_⟩
  rw [happend, hmark, halone, List.append_assoc]

end PackageScaffold.Template
