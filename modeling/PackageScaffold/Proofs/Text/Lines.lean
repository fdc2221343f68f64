import PackageScaffold.Text.Blank

/-!
# Lines of a text

Languages differ in which characters end a line: a line feed always does, and what is printed in
ASCII never does.  In a text of printed characters and line feeds all languages see the same lines,
and whether one of them begins with some character can be computed from the front to the back.

* `LineRule`, `LineRule.lines`: the lines of a text by the rule of a language;
* `opensLine`, `opensLine_append`: whether a line begins with a character;
* `IsLaidOut.head?_ne`: where none does, it is so by every rule.
-/

namespace PackageScaffold.Text

/-- Which characters end a line. -/
structure LineRule where
  ends : Char → Bool
  feed : ends '\n' = true
  printed : ∀ c, ' ' ≤ c → c ≤ '~' → ends c = false

namespace LineRule

/-- Lines end at line feeds and at carriage returns. -/
def returns : LineRule where
  ends c := c == '\n' || c == '\r'
  feed := rfl
  printed c hleast _ := by
    rw [Bool.or_eq_false_iff, beq_eq_false_iff_ne, beq_eq_false_iff_ne]
    constructor
    all_goals
      rintro rfl
      exact absurd hleast (by decide)

/-- The lines of a text. -/
def lines (rule : LineRule) (text : List Char) : List (List Char) :=
  text.splitOnP rule.ends

variable {rule : LineRule} {first second : List Char}

theorem lines_ne_nil (rule : LineRule) (text : List Char) : rule.lines text ≠ [] :=
  List.splitOnP_ne_nil _ _

/-- A line feed parts the lines in front of it from those behind it. -/
theorem lines_append_feed (first second : List Char) :
    rule.lines (first ++ '\n' :: second) = rule.lines first ++ rule.lines second :=
  List.splitOnP_append_cons _ _ rule.feed

/-- What is printed stays on its line. -/
theorem lines_append_of_printed (h : ∀ c ∈ first, ' ' ≤ c ∧ c ≤ '~') (second : List Char) :
    rule.lines (first ++ second) = (rule.lines second).modifyHead (first ++ ·) := by
  induction first with
  | nil =>
      cases hlines : rule.lines second with
      | nil => exact absurd hlines (rule.lines_ne_nil second)
      | cons line lines => simp [hlines]
  | cons c first ih =>
      obtain ⟨⟨hleast, hmost⟩, hfirst⟩ := List.forall_mem_cons.mp h
      rw [List.cons_append, lines, List.splitOnP_cons_eq_if_modifyHead, rule.printed c hleast hmost,
        ← lines, ih hfirst, if_neg Bool.false_ne_true, List.modifyHead_modifyHead]
      rfl

end LineRule

/-! ## What lines begin with -/

/-- Whether a line that begins with a character opens in a text; the switch says whether the text is
at the beginning of a line itself. -/
def opensLine (initial : Char) : Bool → List Char → Bool
  | _, [] => false
  | start, c :: cs => (start && c == initial) || opensLine initial (c == '\n') cs

/-- Whether what follows a text is at the beginning of a line. -/
def endsLine (start : Bool) (cs : List Char) : Bool :=
  (cs.getLast?.map (· == '\n')).getD start

/-- Whether a character is a line feed or printed. -/
def isPrinted (c : Char) : Bool :=
  c == '\n' || (' ' ≤ c && c ≤ '~')

variable {initial : Char} {start : Bool} {cs first second : List Char}

theorem opensLine_append (initial : Char) (start : Bool) (first second : List Char) :
    opensLine initial start (first ++ second) =
      (opensLine initial start first || opensLine initial (endsLine start first) second) := by
  induction first generalizing start with
  | nil => simp [opensLine, endsLine]
  | cons c first ih =>
      have hend : endsLine start (c :: first) = endsLine (c == '\n') first := by
        cases first <;> simp [endsLine, List.getLast?_cons]
      rw [List.cons_append, opensLine, ih, opensLine, hend, Bool.or_assoc]

/-- A text opens no more lines where none begins. -/
theorem opensLine_mono {start' : Bool} (h : opensLine initial start cs = false)
    (hstart : start' = true → start = true) : opensLine initial start' cs = false := by
  cases cs with
  | nil => rfl
  | cons c cs =>
      rw [opensLine, Bool.or_eq_false_iff] at h ⊢
      refine ⟨?_, h.2⟩
      cases start' with
      | false => rfl
      | true =>
          obtain rfl := hstart rfl
          exact h.1

/-- A text of line feeds and printed characters in which no line opens with a character. -/
structure IsLaidOut (initial : Char) (start : Bool) (cs : List Char) : Prop where
  printed : ∀ c ∈ cs, isPrinted c = true
  closed : opensLine initial start cs = false

namespace IsLaidOut

theorem append (hfirst : IsLaidOut initial start first)
    (hsecond : IsLaidOut initial (endsLine start first) second) :
    IsLaidOut initial start (first ++ second) where
  printed := by
    intro c hc
    rcases List.mem_append.mp hc with hc | hc
    · exact hfirst.printed c hc
    · exact hsecond.printed c hc
  closed := by rw [opensLine_append, hfirst.closed, hsecond.closed, Bool.false_or]

theorem mono {start' : Bool} (h : IsLaidOut initial start cs)
    (hstart : start' = true → start = true) :
    IsLaidOut initial start' cs :=
  ⟨h.printed, opensLine_mono h.closed hstart⟩

/-- Whatever the first text ends in, the second may follow where it may begin a line. -/
theorem append_of_start (hfirst : IsLaidOut initial start first)
    (hsecond : IsLaidOut initial true second) :
    IsLaidOut initial start (first ++ second) :=
  hfirst.append (hsecond.mono fun _ => rfl)

/-- What is printed on one line opens none. -/
theorem of_line (h : ∀ c ∈ cs, ' ' ≤ c ∧ c ≤ '~') : IsLaidOut initial false cs where
  printed c hc := by
    obtain ⟨hleast, hmost⟩ := h c hc
    simp [isPrinted, hleast, hmost]
  closed := by
    induction cs with
    | nil => rfl
    | cons c cs ih =>
        obtain ⟨⟨hleast, -⟩, hcs⟩ := List.forall_mem_cons.mp h
        have hfeed : (c == '\n') = false := by
          rw [beq_eq_false_iff_ne]
          rintro rfl
          exact absurd hleast (by decide)
        rw [opensLine, hfeed, ih hcs, Bool.false_and, Bool.false_or]

theorem lines_cons (rule : LineRule) {c : Char} (hc : isPrinted c = true) (cs : List Char) :
    rule.lines (c :: cs) =
      if c = '\n' then [] :: rule.lines cs else (rule.lines cs).modifyHead (c :: ·) := by
  rw [LineRule.lines, List.splitOnP_cons_eq_if_modifyHead]
  by_cases hfeed : c = '\n'
  · rw [if_pos hfeed, hfeed, rule.feed, if_pos rfl, LineRule.lines]
  · have hstays : rule.ends c = false := by
      simp only [isPrinted, Bool.or_eq_true, beq_iff_eq, hfeed, false_or, Bool.and_eq_true,
        decide_eq_true_eq] at hc
      exact rule.printed c hc.1 hc.2
    rw [if_neg hfeed, hstays, if_neg Bool.false_ne_true, LineRule.lines]

/-- By every rule, no line that begins in the text begins with that character. -/
theorem head?_ne (h : IsLaidOut initial start cs) (rule : LineRule) :
    (∀ line ∈ (rule.lines cs).tail, line.head? ≠ some initial) ∧
      (start = true → ∀ line ∈ rule.lines cs, line.head? ≠ some initial) := by
  induction cs generalizing start with
  | nil => simp [LineRule.lines]
  | cons c cs ih =>
      obtain ⟨hprinted, hrest⟩ := List.forall_mem_cons.mp h.printed
      obtain ⟨hfirst, hclosed⟩ := Bool.or_eq_false_iff.mp h.closed
      obtain ⟨htail, hall⟩ := ih ⟨hrest, hclosed⟩
      rw [lines_cons rule hprinted]
      by_cases hfeed : c = '\n'
      · have hlines : ∀ line ∈ rule.lines cs, line.head? ≠ some initial :=
          hall (beq_iff_eq.mpr hfeed)
        rw [if_pos hfeed]
        refine ⟨hlines, fun _ => ?_⟩
        rw [List.forall_mem_cons]
        exact ⟨by simp, hlines⟩
      · rw [if_neg hfeed]
        cases hlines : rule.lines cs with
        | nil => exact absurd hlines (rule.lines_ne_nil cs)
        | cons line lines =>
            rw [hlines, List.tail_cons] at htail
            refine ⟨htail, fun hstart => ?_⟩
            rw [List.modifyHead_cons, List.forall_mem_cons]
            refine ⟨fun hhead => ?_, htail⟩
            rw [hstart, Bool.true_and, beq_eq_false_iff_ne] at hfirst
            exact hfirst (Option.some.inj hhead)

end IsLaidOut

end PackageScaffold.Text
