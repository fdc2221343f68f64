/-!
# Splitting and joining

`splitOn` cuts a text at every occurrence of a character; `joinWith` puts the pieces together
again.

## Main statements

* `joinWith_splitOn`: joining the pieces at the separator gives the text back;
* `not_mem_of_mem_splitOn`: no piece holds the separator.
-/

namespace PackageScaffold.Text

/-- The pieces between the occurrences of a character; one more than there are occurrences. -/
def splitOn (separator : Char) : List Char → List (List Char)
  | [] => [[]]
  | c :: cs =>
    if c == separator then [] :: splitOn separator cs
    else
      match splitOn separator cs with
      | [] => [[c]]
      | piece :: pieces => (c :: piece) :: pieces

/-- The pieces with the separator between them. -/
def joinWith (separator : Char) : List (List Char) → List Char
  | [] => []
  | [piece] => piece
  | piece :: pieces => piece ++ separator :: joinWith separator pieces

theorem splitOn_ne_nil (separator : Char) (cs : List Char) : splitOn separator cs ≠ [] := by
  cases cs with
  | nil => simp [splitOn]
  | cons c cs =>
    simp only [splitOn]
    split
    · simp
    · split <;> simp

/-- Joining the pieces at the separator gives the text back. -/
theorem joinWith_splitOn (separator : Char) (cs : List Char) :
    joinWith separator (splitOn separator cs) = cs := by
  induction cs with
  | nil => rfl
  | cons c cs ih =>
    simp only [splitOn]
    have hne := splitOn_ne_nil separator cs
    cases hsplit : splitOn separator cs with
    | nil => exact absurd hsplit hne
    | cons piece pieces =>
      rw [hsplit] at ih
      by_cases hc : c == separator
      · simp only [hc, ↓reduceIte]
        simp only [joinWith, List.nil_append, ih]
        simp_all
      · simp only [hc]
        cases pieces <;> simp_all [joinWith]

/-- No piece holds the separator. -/
theorem not_mem_of_mem_splitOn {separator : Char} {cs piece : List Char}
    (h : piece ∈ splitOn separator cs) : separator ∉ piece := by
  induction cs generalizing piece with
  | nil => simp_all [splitOn]
  | cons c cs ih =>
    simp only [splitOn] at h
    split at h
    · rcases List.mem_cons.1 h with rfl | h
      · simp
      · exact ih h
    · rename_i hc
      split at h
      · obtain rfl := List.mem_singleton.1 h
        intro hmem
        exact hc (by simp [List.mem_singleton.1 hmem])
      · rename_i first pieces hsplit
        rcases List.mem_cons.1 h with rfl | h
        · intro hmem
          rcases List.mem_cons.1 hmem with rfl | hmem
          · exact hc (by simp)
          · exact ih (hsplit ▸ List.mem_cons_self) hmem
        · exact ih (hsplit ▸ List.mem_cons_of_mem _ h)

/-- The pieces of a text between the occurrences of a character. -/
def split (separator : Char) (s : String) : List String :=
  (splitOn separator s.toList).map String.ofList

/-- The texts with a separator between them. -/
def join (separator : String) (texts : List String) : String :=
  separator.intercalate texts

/-- The maximal runs of characters that do not satisfy the test. -/
def wordsBy (isBreak : Char → Bool) : List Char → List (List Char)
  | [] => []
  | c :: cs =>
    if isBreak c then wordsBy isBreak cs
    else
      match cs with
      | [] => [[c]]
      | next :: _ =>
        if isBreak next then [c] :: wordsBy isBreak cs
        else
          match wordsBy isBreak cs with
          | [] => [[c]]
          | word :: words => (c :: word) :: words

end PackageScaffold.Text
