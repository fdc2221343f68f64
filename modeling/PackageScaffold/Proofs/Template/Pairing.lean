import PackageScaffold.Proofs.Template.Source

/-!
# Pairs of section markers

The sections of a template, found by the places of their markers: a closing marker takes the nearest
opening marker of its name that is still free.  From the pairs come the spans of the text that the
outermost sections take up.

## Main definitions

* `pairsUpTo`, `pairs`: the pairs of section markers of a token sequence;
* `sectionSpans`: where the outermost sections begin and end in the text;
* `withoutSpans`: a text without the characters in some spans;
* `kept`: the text of the tokens in a stretch that are in no pair.

A character is in one of the spans exactly if its token is in a pair (`within_sectionSpans`), so
that cutting the spans out of the text leaves the tokens that are in no pair
(`withoutSpans_sources`).
-/

namespace PackageScaffold.Template

/-! ## Pairs of section markers -/

/-- Whether the token at a place opens a section of the given name. -/
def opensAt (tokens : List Token) (name : String) (place : Nat) : Bool :=
  match tokens[place]? with
  | some (.marker .opening other _ _) => other == name
  | _ => false

/-- Whether a place belongs to one of the pairs: it is one of the two places or lies between them.
-/
def inside (pairs : List (Nat × Nat)) (place : Nat) : Bool :=
  pairs.any fun pair => decide (pair.1 ≤ place) && decide (place ≤ pair.2)

/-- Whether the token at a place opens a section of the given name and belongs to none of the pairs.
-/
def isFree (tokens : List Token) (pairs : List (Nat × Nat)) (name : String) (place : Nat) : Bool :=
  opensAt tokens name place && !inside pairs place

/-- The last place below a bound that has a property. -/
def lastBelow? (p : Nat → Bool) : Nat → Option Nat
  | 0 => none
  | n + 1 => if p n then some n else lastBelow? p n

/-- The pairs of section markers among the first `n` tokens.  A closing marker takes the nearest
opening marker of its name in front of it that is free: it has not been taken, and it is not between
the markers of a pair, where it is literal text. -/
def pairsUpTo (tokens : List Token) : Nat → List (Nat × Nat)
  | 0 => []
  | n + 1 =>
    let pairs := pairsUpTo tokens n
    match tokens[n]? with
    | some (.marker .closing name _ _) =>
      match lastBelow? (isFree tokens pairs name) n with
      | some opening => (opening, n) :: pairs
      | none => pairs
    | _ => pairs

/-- The pairs of section markers of a token sequence, by their places. -/
def pairs (tokens : List Token) : List (Nat × Nat) :=
  pairsUpTo tokens tokens.length

/-- The pairs that do not lie in another pair. -/
def outermost (pairs : List (Nat × Nat)) : List (Nat × Nat) :=
  pairs.filter fun pair => !pairs.any fun other =>
    decide (other.1 < pair.1) && decide (pair.2 < other.2)

/-- Where a token begins in the text that the token sequence stands for. -/
def offset (tokens : List Token) (place : Nat) : Nat :=
  (sources (tokens.take place)).length

/-- The spans of the outermost sections of a token sequence: from the beginning of what the opening
marker stands for to the end of what the closing marker stands for. -/
def sectionSpans (tokens : List Token) : List (Nat × Nat) :=
  (outermost (pairs tokens)).map fun pair => (offset tokens pair.1, offset tokens (pair.2 + 1))

/-- Whether a position lies in one of the spans. -/
def within (spans : List (Nat × Nat)) (position : Nat) : Bool :=
  spans.any fun span => decide (span.1 ≤ position) && decide (position < span.2)

/-- A text without the characters in the given spans. -/
def withoutSpans (spans : List (Nat × Nat)) (cs : List Char) : List Char :=
  (cs.zipIdx.filter fun (_, position) => !within spans position).map Prod.fst

theorem lastBelow?_of_none {p : Nat → Bool} {n : Nat} (h : ∀ place < n, p place = false) :
    lastBelow? p n = none := by
  induction n with
  | zero => rfl
  | succ n ih =>
      simp [lastBelow?, h n (Nat.lt_succ_self n), ih fun place hplace => h place (by omega)]

theorem lastBelow?_of_last {p : Nat → Bool} {n place : Nat} (hlt : place < n)
    (hplace : p place = true) (hlast : ∀ other, place < other → other < n → p other = false) :
    lastBelow? p n = some place := by
  induction n with
  | zero => omega
  | succ n ih =>
      rcases Nat.lt_succ_iff_lt_or_eq.mp hlt with hless | rfl
      · have hn : p n = false := hlast n hless (Nat.lt_succ_self n)
        simp [lastBelow?, hn, ih hless fun other hover hother => hlast other hover (by omega)]
      · simp [lastBelow?, hplace]

theorem inside_cons (pair : Nat × Nat) (pairs : List (Nat × Nat)) (place : Nat) :
    inside (pair :: pairs) place = true ↔
      (pair.1 ≤ place ∧ place ≤ pair.2) ∨ inside pairs place = true := by
  simp [inside]

/-- The first tokens hold their pairs. -/
theorem lt_of_inside_pairsUpTo {tokens : List Token} {n place : Nat}
    (h : inside (pairsUpTo tokens n) place = true) : place < n := by
  induction n with
  | zero => simp [pairsUpTo, inside] at h
  | succ n ih =>
      simp only [pairsUpTo] at h
      split at h
      · split at h
        · rcases (inside_cons _ _ _).mp h with ⟨-, hle⟩ | hrest
          · simpa [Nat.lt_succ_iff] using hle
          · exact Nat.lt_succ_of_lt (ih hrest)
        · exact Nat.lt_succ_of_lt (ih h)
      · exact Nat.lt_succ_of_lt (ih h)

/-! ## Tokens and the pairs they make -/

section Pairs

variable {tokens : List Token} {n : Nat}

theorem inside_pairsUpTo_self : inside (pairsUpTo tokens n) n = false := by
  rw [Bool.eq_false_iff]
  intro h
  exact absurd (lt_of_inside_pairsUpTo h) (Nat.lt_irrefl n)

/-- A token that closes no section makes no pair. -/
theorem pairsUpTo_succ_of_ne {token : Token} (htoken : tokens[n]? = some token)
    (h : ∀ name text consumed, token ≠ .marker .closing name text consumed) :
    pairsUpTo tokens (n + 1) = pairsUpTo tokens n := by
  rw [pairsUpTo, htoken]
  split
  · rename_i name text consumed heq
    exact absurd (Option.some_inj.mp heq) (h name text consumed)
  · rfl

/-- A closing marker without a free opening marker of its name makes no pair. -/
theorem pairsUpTo_succ_of_none {name text consumed : String}
    (htoken : tokens[n]? = some (.marker .closing name text consumed))
    (h : ∀ place < n, opensAt tokens name place = true → inside (pairsUpTo tokens n) place = true) :
    pairsUpTo tokens (n + 1) = pairsUpTo tokens n := by
  have hnone : lastBelow? (isFree tokens (pairsUpTo tokens n) name) n = none := by
    refine lastBelow?_of_none fun place hplace => ?_
    cases hopens : opensAt tokens name place with
    | false => simp [isFree, hopens]
    | true => simp [isFree, h place hplace hopens]
  simp only [pairsUpTo, htoken, hnone]

/-- A closing marker makes a pair with the nearest free opening marker of its name. -/
theorem pairsUpTo_succ_of_nearest {name text consumed : String} {place : Nat}
    (htoken : tokens[n]? = some (.marker .closing name text consumed)) (hplace : place < n)
    (hopens : opensAt tokens name place = true)
    (hfree : inside (pairsUpTo tokens n) place = false)
    (hbetween : ∀ other, place < other → other < n → opensAt tokens name other = true →
      inside (pairsUpTo tokens n) other = true) :
    pairsUpTo tokens (n + 1) = (place, n) :: pairsUpTo tokens n := by
  have hlast : lastBelow? (isFree tokens (pairsUpTo tokens n) name) n = some place := by
    refine lastBelow?_of_last hplace (by simp [isFree, hopens, hfree]) fun other hover hother => ?_
    cases hname : opensAt tokens name other with
    | false => simp [isFree, hname]
    | true => simp [isFree, hbetween other hover hother hname]
  simp only [pairsUpTo, htoken, hlast]

end Pairs

/-- What lies in a pair lies in one that lies in no other. -/
theorem inside_outermost (pairs : List (Nat × Nat)) (place : Nat) :
    inside (outermost pairs) place = inside pairs place := by
  have hcover : ∀ start stop, (start, stop) ∈ pairs →
      ∃ pair ∈ outermost pairs, pair.1 ≤ start ∧ stop ≤ pair.2 := by
    -- a pair around this one begins further in front
    intro start
    induction start using Nat.strongRecOn with
    | ind start ih =>
        intro stop hmem
        by_cases hout : (start, stop) ∈ outermost pairs
        · exact ⟨_, hout, Nat.le_refl _, Nat.le_refl _⟩
        · have hinner : ∃ other ∈ pairs, other.1 < start ∧ stop < other.2 := by
            simpa [outermost, hmem] using hout
          obtain ⟨other, hother, hstart, hstop⟩ := hinner
          obtain ⟨pair, hpair, hle, hge⟩ := ih other.1 hstart other.2 hother
          exact ⟨pair, hpair, by omega, by omega⟩
  rw [Bool.eq_iff_iff]
  simp only [inside, List.any_eq_true, Bool.and_eq_true, decide_eq_true_eq]
  constructor
  · rintro ⟨pair, hpair, hbounds⟩
    exact ⟨pair, (List.mem_filter.mp hpair).1, hbounds⟩
  · rintro ⟨⟨start, stop⟩, hpair, hstart, hstop⟩
    obtain ⟨outer, houter, hle, hge⟩ := hcover start stop hpair
    dsimp only at hstart hstop
    exact ⟨outer, houter, by omega, by omega⟩

/-! ## The tokens that stay -/

/-- The text that the token at a place stands for. -/
def sourceAt (tokens : List Token) (place : Nat) : List Char :=
  (tokens[place]?.map fun token => token.source.toList).getD []

/-- The text of the tokens from place `lo` to place `n` that are in no pair. -/
def kept (tokens : List Token) (pairs : List (Nat × Nat)) (lo : Nat) : Nat → List Char
  | 0 => []
  | n + 1 => kept tokens pairs lo n ++
      if lo ≤ n ∧ inside pairs n = false then sourceAt tokens n else []

theorem sourceAt_of_getElem? {tokens : List Token} {place : Nat} {token : Token}
    (h : tokens[place]? = some token) : sourceAt tokens place = token.source.toList := by
  simp [sourceAt, h]

section Kept

variable {tokens : List Token} {pairs pairs' : List (Nat × Nat)} {lo n m : Nat}

theorem kept_self : kept tokens pairs n n = [] := by
  have hempty : ∀ m ≤ n, kept tokens pairs n m = [] := by
    intro m hm
    induction m with
    | zero => rfl
    | succ m ih => simp [kept, ih (by omega), show ¬ n ≤ m by omega]
  exact hempty n (Nat.le_refl n)

theorem kept_congr (h : ∀ place < n, inside pairs' place = inside pairs place) :
    kept tokens pairs' lo n = kept tokens pairs lo n := by
  induction n with
  | zero => rfl
  | succ n ih =>
      rw [kept, kept, ih fun place hplace => h place (by omega), h n (Nat.lt_succ_self n)]

theorem kept_of_inside (hle : n ≤ m) (h : ∀ place, n ≤ place → place < m →
    inside pairs place = true) : kept tokens pairs lo m = kept tokens pairs lo n := by
  induction m with
  | zero => rw [Nat.le_zero.mp hle]
  | succ m ih =>
      rcases Nat.lt_succ_iff_lt_or_eq.mp (Nat.lt_succ_of_le hle) with hless | rfl
      · rw [kept, h m (by omega) (by omega), ih (by omega) fun place hfrom hto =>
          h place hfrom (by omega)]
        simp
      · rfl

/-- What stays can be cut at a token that stays. -/
theorem kept_split (hlo : lo ≤ m) (hm : inside pairs m = false) (hle : m < n) :
    kept tokens pairs lo n =
      kept tokens pairs lo m ++ (sourceAt tokens m ++ kept tokens pairs (m + 1) n) := by
  induction n with
  | zero => omega
  | succ n ih =>
      rcases Nat.lt_succ_iff_lt_or_eq.mp hle with hless | rfl
      · rw [kept, ih hless, kept, List.append_assoc, List.append_assoc]
        simp only [show lo ≤ n by omega, show m + 1 ≤ n by omega]
      · rw [kept_self, kept, if_pos ⟨hlo, hm⟩, List.append_nil]

end Kept

/-! ## Spans of characters -/

section Spans

variable {tokens : List Token} {n : Nat}

theorem take_succ_sources : sources (tokens.take (n + 1)) =
    sources (tokens.take n) ++ sourceAt tokens n := by
  rw [List.take_add_one, sources_append, sourceAt]
  cases tokens[n]? <;> simp

theorem offset_mono {first second : Nat} (h : first ≤ second) :
    offset tokens first ≤ offset tokens second := by
  induction h with
  | refl => exact Nat.le_refl _
  | @step place _ ih =>
      have hsucc : offset tokens (place + 1) =
          offset tokens place + (sourceAt tokens place).length := by
        rw [offset, take_succ_sources, List.length_append, offset]
      rw [Nat.succ_eq_add_one, hsucc]
      exact Nat.le_trans ih (Nat.le_add_right _ _)

/-- A character is in one of the spans exactly if its token is in a pair. -/
theorem within_sectionSpans {position : Nat} (hfrom : offset tokens n ≤ position)
    (hto : position < offset tokens (n + 1)) :
    within (sectionSpans tokens) position = inside (pairs tokens) n := by
  have hpair : ∀ pair : Nat × Nat,
      (decide (offset tokens pair.1 ≤ position) && decide (position < offset tokens (pair.2 + 1))) =
        (decide (pair.1 ≤ n) && decide (n ≤ pair.2)) := by
    intro pair
    have hstart : offset tokens pair.1 ≤ position ↔ pair.1 ≤ n := by
      constructor
      · intro h
        refine Nat.le_of_not_lt fun hlater => ?_
        have hoffset : offset tokens (n + 1) ≤ offset tokens pair.1 := offset_mono hlater
        omega
      · intro h
        exact Nat.le_trans (offset_mono h) hfrom
    have hstop : position < offset tokens (pair.2 + 1) ↔ n ≤ pair.2 := by
      constructor
      · intro h
        refine Nat.le_of_not_lt fun hearlier => ?_
        have hoffset : offset tokens (pair.2 + 1) ≤ offset tokens n := offset_mono hearlier
        omega
      · intro h
        exact Nat.lt_of_lt_of_le hto (offset_mono (by omega))
    simp only [hstart, hstop]
  rw [← inside_outermost, within, sectionSpans, List.any_map, inside]
  exact congrArg _ (funext hpair)

/-- A piece of a text stays or goes as a whole if all its characters do. -/
theorem withoutSpans_append {spans : List (Nat × Nat)} {front piece : List Char} {gone : Bool}
    (h : ∀ position, front.length ≤ position → position < front.length + piece.length →
      within spans position = gone) :
    withoutSpans spans (front ++ piece) =
      withoutSpans spans front ++ if gone then [] else piece := by
  have hpiece : ∀ entry ∈ piece.zipIdx front.length, within spans entry.2 = gone := by
    rintro ⟨c, position⟩ hmem
    obtain ⟨hfrom, hto, -⟩ := List.mem_zipIdx hmem
    exact h position hfrom hto
  rw [withoutSpans, List.zipIdx_append, List.filter_append, List.map_append, Nat.zero_add]
  congr 1
  cases gone with
  | true =>
      rw [List.filter_eq_nil_iff.mpr fun entry hmem => by simp [hpiece entry hmem]]
      rfl
  | false =>
      rw [List.filter_eq_self.mpr fun entry hmem => by simp [hpiece entry hmem]]
      simp

theorem withoutSpans_nil (cs : List Char) : withoutSpans [] cs = cs := by
  rw [withoutSpans, List.filter_eq_self.mpr fun entry _ => by rfl]
  simp

theorem withoutSpans_sources (n : Nat) :
    withoutSpans (sectionSpans tokens) (sources (tokens.take n)) =
      kept tokens (pairs tokens) 0 n := by
  induction n with
  | zero => rfl
  | succ n ih =>
      have hpiece : ∀ position, (sources (tokens.take n)).length ≤ position →
          position < (sources (tokens.take n)).length + (sourceAt tokens n).length →
          within (sectionSpans tokens) position = inside (pairs tokens) n := by
        intro position hfrom hto
        refine within_sectionSpans hfrom ?_
        rwa [offset, take_succ_sources, List.length_append]
      rw [take_succ_sources, withoutSpans_append hpiece, kept, ih]
      cases inside (pairs tokens) n <;> simp

end Spans

end PackageScaffold.Template
