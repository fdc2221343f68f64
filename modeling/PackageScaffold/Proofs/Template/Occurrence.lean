import Mathlib.Data.List.Chain
import PackageScaffold.Proofs.Template.Marker
import PackageScaffold.Proofs.Template.Source

/-!
# The markers of a text

A text shows by itself where its markers are: wherever double braces enclose a sigil and a name,
with no brace between them and no `$` in front of them.  The first brace of a marker is the only one
of its braces where a marker begins, so markers never overlap, and reading the text from its
beginning finds all of them and nothing else.

* `StandsAt`: where a marker stands in a text, and `standsAt_spell_append_iff`, how the scanner comes from
  one marker to the next;
* `occurs_scan_iff`: the scanner finds exactly the markers that stand in a text;
* `Occurrence.IsIn`: the markers of a text, each with its place and with what it takes of the text;
* `tokenize_exact`: the tokens of a template lose nothing, keep its literal texts whole, and have
  exactly its markers, in order.
-/

namespace PackageScaffold.Template

open Text

/-! ## Where markers stand -/

/-- A marker with the given text stands at `place` in a text that goes on with `cs` from `start` on,
and reads `lead`, in reverse, in front of that. -/
def StandsAt (lead cs : List Char) (start place : Nat) (marker : Marker) (text : String) : Prop :=
  ∃ front body back, cs = front ++ (spell body ++ back) ∧ place = start + front.length ∧
    text = String.ofList (spell body) ∧ (∀ c ∈ body, isPlain c = true) ∧
    markerAfter? (front.reverse ++ lead) body = some marker

variable {lead cs body after : List Char} {start place : Nat} {marker : Marker} {text : String}

theorem not_standsAt_nil : ¬ StandsAt lead [] start place marker text := by
  rintro ⟨front, body, back, hcs, -⟩
  simp [spell] at hcs

/-- A marker stands at the first character of a text, or behind it. -/
theorem standsAt_cons_iff {c : Char} :
    StandsAt lead (c :: cs) start place marker text ↔
      (place = start ∧ ∃ body after, bracedBody? (c :: cs) = some (body, after) ∧
          text = String.ofList (spell body) ∧ markerAfter? lead body = some marker) ∨
        StandsAt (c :: lead) cs (start + 1) place marker text := by
  constructor
  · rintro ⟨front, body, back, hcs, rfl, rfl, hplain, hmarker⟩
    cases front with
    | nil =>
        refine .inl ⟨rfl, body, back, ?_, rfl, by simpa using hmarker⟩
        exact bracedBody?_eq_some_iff.mpr ⟨hcs, hplain⟩
    | cons d front =>
        obtain ⟨rfl, rfl⟩ := List.cons.inj hcs
        refine .inr ⟨front, body, back, rfl, ?_, rfl, hplain, by simpa using hmarker⟩
        rw [List.length_cons]
        omega
  · rintro (⟨rfl, body, back, hbody, rfl, hmarker⟩ |
      ⟨front, body, back, rfl, rfl, rfl, hplain, hmarker⟩)
    · obtain ⟨hcs, hplain⟩ := bracedBody?_eq_some_iff.mp hbody
      exact ⟨[], body, back, hcs, rfl, rfl, hplain, hmarker⟩
    · refine ⟨c :: front, body, back, rfl, ?_, rfl, hplain, by simpa using hmarker⟩
      rw [List.length_cons]
      omega

/-- Where no braced body begins, a marker stands behind the character or nowhere. -/
theorem standsAt_cons_of_none {c : Char} (h : bracedBody? (c :: cs) = none) :
    StandsAt lead (c :: cs) start place marker text ↔
      StandsAt (c :: lead) cs (start + 1) place marker text := by
  rw [standsAt_cons_iff, h]
  simp

/-- No marker begins in a text without an opening brace, so it stands behind that text. -/
theorem standsAt_append_iff {front : List Char} (hfront : '{' ∉ front) :
    StandsAt lead (front ++ cs) start place marker text ↔
      StandsAt (front.reverse ++ lead) cs (start + front.length) place marker text := by
  induction front generalizing lead start with
  | nil => rfl
  | cons c front ih =>
      obtain ⟨hc, hfront⟩ := not_or.mp (mt List.mem_cons.mpr hfront)
      have hnone : bracedBody? (c :: (front ++ cs)) = none := by
        unfold bracedBody?
        split
        · rename_i heq
          exact absurd (List.cons.inj heq).1.symm hc
        · rfl
      rw [List.cons_append, standsAt_cons_of_none hnone, ih hfront]
      simp only [List.reverse_cons, List.append_assoc, List.singleton_append, List.length_cons,
        Nat.add_assoc, Nat.add_comm 1]

/-- In a text that begins with braces, a marker stands in these braces or behind them: their second
brace begins no braced body, and there is no opening brace after it. -/
theorem standsAt_spell_append_iff (hplain : ∀ c ∈ body, isPlain c = true) :
    StandsAt lead (spell body ++ after) start place marker text ↔
      (place = start ∧ text = String.ofList (spell body) ∧ markerAfter? lead body = some marker) ∨
        StandsAt ((spell body).reverse ++ lead) after (start + (spell body).length) place marker
          text := by
  have hinner : '{' ∉ body ++ ['}', '}'] := by
    intro hmem
    rcases List.mem_append.mp hmem with hmem | hmem
    · exact absurd (hplain _ hmem) (by decide)
    · simp at hmem
  -- the second of the braces begins no body
  have hsecond : bracedBody? ('{' :: (body ++ ['}', '}'] ++ after)) = none := by
    unfold bracedBody?
    split
    · rename_i rest heq
      have hhead := (List.cons.inj heq).2
      cases body with
      | nil => simp at hhead
      | cons c body =>
          obtain rfl : c = '{' := (List.cons.inj hhead).1
          simp at hinner
    · rfl
  have hspell : spell body = '{' :: '{' :: (body ++ ['}', '}']) := rfl
  have hbody := bracedBody?_spell hplain after
  rw [hspell] at hbody ⊢
  simp only [List.cons_append] at hbody ⊢
  rw [standsAt_cons_iff, hbody, standsAt_cons_of_none hsecond, standsAt_append_iff hinner]
  refine or_congr ⟨?_, ?_⟩ (iff_of_eq ?_)
  · rintro ⟨hplace, _, _, heq, htext, hmarker⟩
    obtain ⟨rfl, -⟩ := Prod.mk.inj (Option.some.inj heq)
    exact ⟨hplace, htext, hmarker⟩
  · rintro ⟨hplace, htext, hmarker⟩
    exact ⟨hplace, body, after, rfl, htext, hmarker⟩
  · congr 1
    · simp
    · simp only [List.length_cons]
      omega

/-- Only a `$` in front of a text has an influence on the markers in it. -/
theorem standsAt_iff_of_head? (hlead : lead.head? ≠ some '$') :
    StandsAt lead cs start place marker text ↔ StandsAt [] cs start place marker text := by
  have hafter : ∀ front body : List Char, markerAfter? (front.reverse ++ lead) body =
      markerAfter? (front.reverse ++ []) body := by
    intro front body
    unfold markerAfter?
    rw [List.head?_append, List.head?_append]
    cases front.reverse.head? with
    | none => simp [hlead]
    | some c => rfl
  simp only [StandsAt, hafter]

/-! ## What the scanner finds -/

/-- A marker in a text: the place of its first brace, what it does, its name, what is written
between and with its braces, and the part of the text that it takes. -/
structure Occurrence where
  place : Nat
  kind : MarkerKind
  name : String
  text : String
  consumed : String
  deriving DecidableEq, Repr

/-- The markers of a token sequence that stands for a text from `start` on, with their places in the
text.  The braces of a marker begin behind the indentation that it takes. -/
def occurrencesFrom (start : Nat) : List Token → List Occurrence
  | [] => []
  | .literal text :: tokens => occurrencesFrom (start + text.length) tokens
  | .marker kind name text consumed :: tokens =>
    ⟨start + (consumed.toList.takeWhile isIndent).length, kind, name, text, consumed⟩ ::
      occurrencesFrom (start + consumed.length) tokens

/-- A token sequence that stands for a text from `start` on has a marker at the given place. -/
def Occurs (tokens : List Token) (start place : Nat) (marker : Marker) (text : String) : Prop :=
  ∃ consumed, ⟨place, marker.kind, marker.name, text, consumed⟩ ∈ occurrencesFrom start tokens

theorem occurs_flush_append_iff {tokens : List Token} :
    Occurs (flush lead ++ tokens) start place marker text ↔
      Occurs tokens (start + lead.length) place marker text := by
  cases lead with
  | nil => rfl
  | cons c lead => simp [Occurs, flush, occurrencesFrom]

theorem occurs_marker_iff {kind : MarkerKind} {name text' consumed : String} {tokens : List Token} :
    Occurs (.marker kind name text' consumed :: tokens) start place marker text ↔
      (place = start + (consumed.toList.takeWhile isIndent).length ∧ text = text' ∧
          ⟨kind, name⟩ = marker) ∨
        Occurs tokens (start + consumed.length) place marker text := by
  obtain ⟨markerKind, markerName⟩ := marker
  simp only [Occurs, occurrencesFrom, List.mem_cons, Occurrence.mk.injEq, Marker.mk.injEq]
  constructor
  · rintro ⟨_, ⟨hplace, hkind, hname, htext, -⟩ | hmem⟩
    · exact .inl ⟨hplace, htext, hkind.symm, hname.symm⟩
    · exact .inr ⟨_, hmem⟩
  · rintro (⟨hplace, htext, hkind, hname⟩ | ⟨_, hmem⟩)
    · exact ⟨consumed, .inl ⟨hplace, hkind.symm, hname.symm, htext, rfl⟩⟩
    · exact ⟨_, .inr hmem⟩

/-- The indentation that a marker takes ends at its first brace. -/
theorem takeWhile_isIndent_spell {indent : List Char} (hindent : ∀ c ∈ indent, isIndent c = true)
    (body tail : List Char) : (indent ++ spell body ++ tail).takeWhile isIndent = indent := by
  rw [List.append_assoc, List.takeWhile_append_of_pos hindent]
  simp [spell, isIndent]

/-- What a section marker takes of the line behind it is blanks and a line feed. -/
theorem isLineEnd_of_ownLine? {fresh : Bool} {tail : List Char}
    (h : ownLine? marker fresh after = some tail) : ∀ c ∈ tail, isLineEnd c = true ∨ c = '\n' := by
  unfold ownLine? blankLine? at h
  split at h
  · split at h
    · rename_i hdrop
      obtain rfl := Option.some.inj h
      exact fun c hc => .inl (List.dropWhile_eq_nil_iff.mp hdrop c hc)
    · obtain rfl := Option.some.inj h
      intro c hc
      rcases List.mem_append.mp hc with hc | hc
      · exact .inl (List.mem_takeWhile_imp hc)
      · exact .inr (List.mem_singleton.mp hc)
    · simp at h
  · simp at h

/-- The braces that a marker is read from are the first of a text that begins with them, and the
others stand behind what the marker takes. -/
theorem occurs_spell_iff {indent tail : List Char} {found : Marker} {tokens : List Token}
    (hplain : ∀ c ∈ body, isPlain c = true) (hfound : markerAfter? lead body = some found)
    (hindent : ∀ c ∈ indent, isIndent c = true) (htail : ∀ c ∈ tail, isLineEnd c = true ∨ c = '\n')
    (hafter : ∀ start, Occurs tokens start place marker text ↔
      StandsAt [] after start place marker text) (start : Nat) :
    Occurs (.marker found.kind found.name (String.ofList (spell body))
        (String.ofList (indent ++ spell body ++ tail)) :: tokens) start place marker text ↔
      StandsAt lead (spell body ++ (tail ++ after)) (start + indent.length) place marker text := by
  have hbrace : '{' ∉ tail := fun hmem => absurd (htail _ hmem) (by decide)
  have hdollar : (tail.reverse ++ ((spell body).reverse ++ lead)).head? ≠ some '$' := by
    rw [List.head?_append]
    cases hlast : tail.reverse.head? with
    | none => simp [spell]
    | some c =>
        rintro heq
        obtain rfl : c = '$' := by simpa using heq
        exact absurd (htail _ (by simpa using List.mem_of_mem_head? hlast)) (by decide)
  rw [occurs_marker_iff, String.toList_ofList, takeWhile_isIndent_spell hindent, hafter,
    standsAt_spell_append_iff hplain, standsAt_append_iff hbrace, standsAt_iff_of_head? hdollar,
    hfound, Option.some_inj]
  simp only [String.length_ofList, List.length_append, Nat.add_assoc]

/-- The scanner finds a marker exactly where one stands. -/
theorem occurs_scan_iff (lead : List Char) (fresh : Bool) (cs : List Char) :
    ∀ start, Occurs (scan lead fresh 0 cs) start place marker text ↔
      StandsAt lead cs (start + lead.length) place marker text := by
  -- what has been passed but not yet become a token still counts for the places of what comes
  refine scan_induction (motive := fun lead _ cs tokens =>
    ∀ start, Occurs tokens start place marker text ↔
      StandsAt lead cs (start + lead.length) place marker text) ?nil ?char ?braces ?inline ?ownLine
    lead fresh cs
  case nil =>
    intro lead _ start
    rw [← List.append_nil (flush lead), occurs_flush_append_iff]
    simp [Occurs, occurrencesFrom, not_standsAt_nil]
  case char =>
    intro lead fresh c cs hnone ih start
    rw [ih start, standsAt_cons_of_none hnone]
    rfl
  case braces =>
    intro lead fresh body after hplain hnone ih start
    rw [ih start, standsAt_spell_append_iff hplain, hnone, List.length_append, List.length_reverse,
      Nat.add_comm (spell body).length, ← Nat.add_assoc]
    simp
  case inline =>
    intro lead fresh body after found hplain hfound _ ih start
    rw [occurs_flush_append_iff]
    simpa using occurs_spell_iff hplain hfound (List.forall_mem_nil _) (List.forall_mem_nil _) ih
      (start + lead.length)
  case ownLine =>
    intro lead fresh body tail after found hplain hfound hown ih start
    have hindent : ∀ c ∈ (lead.takeWhile isIndent).reverse, isIndent c = true := fun c hc =>
      List.mem_takeWhile_imp (List.mem_reverse.mp hc)
    have hlength : (lead.dropWhile isIndent).length + (lead.takeWhile isIndent).reverse.length =
        lead.length := by
      rw [List.length_reverse, Nat.add_comm, ← List.length_append, List.takeWhile_append_dropWhile]
    rw [occurs_flush_append_iff,
      occurs_spell_iff hplain hfound hindent (isLineEnd_of_ownLine? hown) ih, Nat.add_assoc,
        hlength]

/-! ## What a marker takes -/

/-- What a marker takes of a text that reads `front` in front of its braces and `back` behind them:
the whole line if it is a section marker that stands alone on the line, and else its braces and what
is between them. -/
def taken (kind : MarkerKind) (front body back : List Char) : List Char :=
  if standsAlone kind front back then lineSoFar front ++ spell body ++ restOfLine back
  else spell body

/-- A marker is in a text: double braces with no brace between them and no `$` directly in front of
them, around a body that the marker can be written in. -/
def Occurrence.IsIn (occurrence : Occurrence) (cs : List Char) : Prop :=
  ∃ front body back, cs = front ++ (spell body ++ back) ∧ occurrence.place = front.length ∧
    (∀ c ∈ body, isPlain c = true) ∧ front.getLast? ≠ some '$' ∧
    (⟨occurrence.kind, occurrence.name⟩ : Marker).IsWritten body ∧
    occurrence.text = String.ofList (spell body) ∧
    occurrence.consumed = String.ofList (taken occurrence.kind front body back)

/-- A marker that is placed in a text takes what stands around it, and the first of its braces is
behind the indentation that it takes. -/
theorem exists_taken_of_isPlaced {before after : List Char} {kind : MarkerKind}
    {name text consumed : String} (h : IsPlaced before (.marker kind name text consumed) after) :
    ∃ indent body tail, text = String.ofList (spell body) ∧
      consumed.toList = indent ++ spell body ++ tail ∧
      consumed.toList.takeWhile isIndent = indent ∧
      consumed = String.ofList (taken kind (before ++ indent) body (tail ++ after)) := by
  obtain ⟨body, indent, tail, htext, hconsumed, htaken⟩ := h
  refine ⟨indent, body, tail, String.ext (by simpa using htext), hconsumed, ?_, ?_⟩
  · have hindent : ∀ c ∈ indent, isIndent c = true := by
      split at htaken
      · rename_i halone
        simp only [standsAlone, Bool.and_eq_true] at halone
        rw [htaken.1]
        exact List.all_eq_true.mp halone.1.2
      · rw [htaken.1]
        simp
    rw [hconsumed, takeWhile_isIndent_spell hindent]
  · refine String.ext ?_
    rw [hconsumed, String.toList_ofList, taken]
    split at htaken
    · rename_i halone
      rw [if_pos halone, ← htaken.1, ← htaken.2]
    · rename_i halone
      rw [if_neg halone, htaken.1, htaken.2, List.nil_append, List.append_nil]

theorem exists_of_mem_occurrencesFrom {occurrence : Occurrence} {tokens : List Token} {start : Nat}
    (h : occurrence ∈ occurrencesFrom start tokens) :
    ∃ before after, tokens = before ++ .marker occurrence.kind occurrence.name occurrence.text
        occurrence.consumed :: after ∧
      occurrence.place = start + (sources before).length +
        (occurrence.consumed.toList.takeWhile isIndent).length := by
  induction tokens generalizing start with
  | nil => simp [occurrencesFrom] at h
  | cons token tokens ih =>
      cases token with
      | literal text =>
          obtain ⟨before, after, rfl, hplace⟩ := ih h
          refine ⟨.literal text :: before, after, rfl, ?_⟩
          simpa [Token.source, ← String.length_toList, Nat.add_assoc] using hplace
      | marker kind name text consumed =>
          rcases List.mem_cons.mp h with rfl | h
          · exact ⟨[], tokens, rfl, rfl⟩
          · obtain ⟨before, after, rfl, hplace⟩ := ih h
            refine ⟨.marker kind name text consumed :: before, after, rfl, ?_⟩
            simpa [Token.source, ← String.length_toList, Nat.add_assoc] using hplace

/-- A marker of a template takes what its place in the template says. -/
theorem exists_taken_of_mem {template : String} {occurrence : Occurrence}
    (h : occurrence ∈ occurrencesFrom 0 (tokenize template)) :
    ∃ front body back, template.toList = front ++ (spell body ++ back) ∧
      occurrence.place = front.length ∧ occurrence.text = String.ofList (spell body) ∧
      occurrence.consumed = String.ofList (taken occurrence.kind front body back) := by
  obtain ⟨before, after, htokens, hplace⟩ := exists_of_mem_occurrencesFrom h
  obtain ⟨indent, body, tail, htext, hconsumed, hindent, htaken⟩ :=
    exists_taken_of_isPlaced (isPlaced_tokenize htokens)
  refine ⟨sources before ++ indent, body, tail ++ sources after, ?_, ?_, htext, htaken⟩
  · rw [← sources_tokenize, htokens, sources_append, sources_cons, Token.source, hconsumed]
    simp
  · rw [hplace, hindent, List.length_append, Nat.zero_add]

theorem standsAt_iff_exists (place : Nat) (marker : Marker) (text : String) {cs : List Char} :
    StandsAt [] cs 0 place marker text ↔
      ∃ front body back, cs = front ++ (spell body ++ back) ∧ place = front.length ∧
        text = String.ofList (spell body) ∧ (∀ c ∈ body, isPlain c = true) ∧
        front.getLast? ≠ some '$' ∧ marker.IsWritten body := by
  have hafter : ∀ front body : List Char, markerAfter? (front.reverse ++ []) body = some marker ↔
      front.getLast? ≠ some '$' ∧ marker.IsWritten body := by
    intro front body
    rw [← Marker.read?_eq_some_iff, markerAfter?, List.append_nil, List.head?_reverse]
    by_cases hdollar : front.getLast? = some '$' <;> simp [hdollar]
  simp only [StandsAt, hafter, Nat.zero_add]

/-- Two markers of the same text and at the same place of a text stand between the same texts. -/
theorem surroundings_eq {front front' body body' back back' : List Char}
    (h : front ++ (spell body ++ back) = front' ++ (spell body' ++ back'))
    (hplace : front.length = front'.length)
    (htext : String.ofList (spell body) = String.ofList (spell body')) :
    front = front' ∧ body = body' ∧ back = back' := by
  obtain ⟨rfl, hbehind⟩ := List.append_inj h hplace
  have hspell : spell body = spell body' := String.ofList_injective htext
  obtain rfl : body = body' := by simpa [spell] using hspell
  exact ⟨rfl, rfl, List.append_cancel_left hbehind⟩

/-- The markers of the tokens of a template are the markers that are in the template. -/
theorem mem_occurrencesFrom_tokenize_iff {template : String} {occurrence : Occurrence} :
    occurrence ∈ occurrencesFrom 0 (tokenize template) ↔ occurrence.IsIn template.toList := by
  have hoccurs := (occurs_scan_iff [] true template.toList 0).trans
    (standsAt_iff_exists occurrence.place ⟨occurrence.kind, occurrence.name⟩ occurrence.text)
  constructor
  · intro hmem
    obtain ⟨front, body, back, htemplate, hplace, htext, htaken⟩ := exists_taken_of_mem hmem
    obtain ⟨front', body', back', htemplate', hplace', htext', hplain, hdollar, hwritten⟩ :=
      hoccurs.mp ⟨occurrence.consumed, hmem⟩
    obtain ⟨rfl, rfl, -⟩ := surroundings_eq (htemplate.symm.trans htemplate')
      (hplace.symm.trans hplace') (htext.symm.trans htext')
    exact ⟨front, body, back, htemplate, hplace, hplain, hdollar, hwritten, htext, htaken⟩
  · rintro ⟨front, body, back, htemplate, hplace, hplain, hdollar, hwritten, htext, htaken⟩
    obtain ⟨consumed, hmem⟩ :=
      hoccurs.mpr ⟨front, body, back, htemplate, hplace, htext, hplain, hdollar, hwritten⟩
    obtain ⟨front', body', back', htemplate', hplace', htext', htaken'⟩ := exists_taken_of_mem hmem
    obtain ⟨rfl, rfl, rfl⟩ := surroundings_eq (htemplate.symm.trans htemplate')
      (hplace.symm.trans hplace') (htext.symm.trans htext')
    obtain rfl : consumed = occurrence.consumed := htaken'.trans htaken.symm
    exact hmem

/-! ## The order of the markers -/

/-- The markers of a template come in the order of their places. -/
theorem pairwise_occurrencesFrom {tokens : List Token} {start : Nat}
    (h : ∀ kind name text consumed, .marker kind name text consumed ∈ tokens →
      (consumed.toList.takeWhile isIndent).length < consumed.length) :
    (occurrencesFrom start tokens).Pairwise (·.place < ·.place) := by
  induction tokens generalizing start with
  | nil => exact .nil
  | cons token tokens ih =>
      have hbehind (start : Nat) : (occurrencesFrom start tokens).Pairwise (·.place < ·.place) :=
        ih fun kind name text consumed hmem =>
          h kind name text consumed (List.mem_cons_of_mem _ hmem)
      cases token with
      | literal text => exact hbehind _
      | marker kind name text consumed =>
          refine List.pairwise_cons.mpr ⟨fun occurrence hmem => ?_, hbehind _⟩
          -- the next marker stands behind all that this one takes, and this one inside of it
          obtain ⟨before, after, -, hplace⟩ := exists_of_mem_occurrencesFrom hmem
          have hless := h kind name text consumed List.mem_cons_self
          dsimp only
          omega

theorem pairwise_occurrencesFrom_tokenize (template : String) :
    (occurrencesFrom 0 (tokenize template)).Pairwise (·.place < ·.place) := by
  refine pairwise_occurrencesFrom fun kind name text consumed hmem => ?_
  obtain ⟨before, after, htokens⟩ := List.append_of_mem hmem
  obtain ⟨indent, body, tail, -, hconsumed, hindent, -⟩ :=
    exists_taken_of_isPlaced (isPlaced_tokenize htokens)
  rw [hindent, ← String.length_toList, hconsumed]
  simp only [List.length_append, length_spell]
  omega

/-! ## Literal texts -/

/-- Whether a token is literal text. -/
def Token.isLiteral : Token → Bool
  | .literal _ => true
  | .marker .. => false

/-- No literal text is empty, and none comes directly behind another one. -/
def KeepsWhole (tokens : List Token) : Prop :=
  .literal "" ∉ tokens ∧
    tokens.IsChain fun first second => first.isLiteral = false ∨ second.isLiteral = false

theorem keepsWhole_flush (lead : List Char) : KeepsWhole (flush lead) := by
  cases lead with
  | nil => exact ⟨by simp [flush], .nil⟩
  | cons c lead =>
      refine ⟨?_, .singleton _⟩
      simp [flush]

/-- A marker keeps the text in front of it apart from the text behind it. -/
theorem keepsWhole_flush_append_marker {tokens : List Token} (h : KeepsWhole tokens)
    (lead : List Char) (kind : MarkerKind) (name text consumed : String) :
    KeepsWhole (flush lead ++ .marker kind name text consumed :: tokens) := by
  obtain ⟨hlead, hchain⟩ := keepsWhole_flush lead
  refine ⟨?_, List.isChain_append.mpr ⟨hchain, List.isChain_cons.mpr ⟨?_, h.2⟩, ?_⟩⟩
  · simp [hlead, h.1]
  · exact fun _ _ => .inl rfl
  · rintro _ _ _ ⟨⟩
    exact .inr rfl

theorem keepsWhole_scan (lead : List Char) (fresh : Bool) (cs : List Char) :
    KeepsWhole (scan lead fresh 0 cs) := by
  refine scan_induction (motive := fun _ _ _ tokens => KeepsWhole tokens)
    ?nil ?char ?braces ?inline ?ownLine lead fresh cs
  case nil => exact fun lead _ => keepsWhole_flush lead
  case char => exact fun _ _ _ _ _ ih => ih
  case braces => exact fun _ _ _ _ _ _ ih => ih
  case inline =>
    exact fun lead _ _ _ _ _ _ _ ih => keepsWhole_flush_append_marker ih lead _ _ _ _
  case ownLine =>
    exact fun lead _ _ _ _ _ _ _ _ ih => keepsWhole_flush_append_marker ih _ _ _ _ _

/-! ## The tokens of a template -/

/-- The tokens of a template stand for all of its text.  Its literal texts are not empty and as long
as they can be, and its markers are, in order, exactly the ones that are in the text, each with what
it takes of the text. -/
theorem tokenize_exact (template : String) :
    sources (tokenize template) = template.toList ∧ KeepsWhole (tokenize template) ∧
      (occurrencesFrom 0 (tokenize template)).Pairwise (·.place < ·.place) ∧
      ∀ occurrence, occurrence ∈ occurrencesFrom 0 (tokenize template) ↔
        occurrence.IsIn template.toList :=
  ⟨sources_tokenize template, keepsWhole_scan [] true template.toList,
    pairwise_occurrencesFrom_tokenize template, fun _ => mem_occurrencesFrom_tokenize_iff⟩

end PackageScaffold.Template
