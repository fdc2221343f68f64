import Mathlib.Data.List.TakeWhile
import PackageScaffold.Text.Blank

/-!
# Cutting off blanks

A text without the blanks at its ends is a piece of it, with nothing but blanks on either side; and
a piece that neither begins nor ends with a blank is what is left of any text made in this way.

* `exists_trimBy`, `trimBy_around`;
* `trim_trim`: what has been cut is not cut again.
-/

namespace PackageScaffold.Text

variable {p : Char → Bool} {cs : List Char}

/-! ## One end at a time -/

theorem trimEnd_concat {c : Char} (hc : p c = false) (cs : List Char) :
    trimEnd p (cs ++ [c]) = cs ++ [c] := by
  induction cs with
  | nil => simp [trimEnd, hc]
  | cons d cs ih =>
      rw [List.cons_append, trimEnd, ih]
      cases cs <;> rfl

theorem trimEnd_concat_of_pos {c : Char} (hc : p c = true) (cs : List Char) :
    trimEnd p (cs ++ [c]) = trimEnd p cs := by
  induction cs with
  | nil => simp [trimEnd, hc]
  | cons d cs ih => rw [List.cons_append, trimEnd, ih, trimEnd]

theorem trimEnd_append_of_pos {back : List Char} (hback : ∀ c ∈ back, p c = true) :
    trimEnd p (cs ++ back) = trimEnd p cs := by
  induction back generalizing cs with
  | nil => rw [List.append_nil]
  | cons c back ih =>
      obtain ⟨hc, hrest⟩ := List.forall_mem_cons.mp hback
      rw [List.append_cons, ih hrest, trimEnd_concat_of_pos hc]

theorem exists_trimEnd (p : Char → Bool) (cs : List Char) :
    ∃ back, (∀ c ∈ back, p c = true) ∧ cs = trimEnd p cs ++ back := by
  induction cs with
  | nil => exact ⟨[], by simp, rfl⟩
  | cons c cs ih =>
      obtain ⟨back, hback, hcs⟩ := ih
      rw [trimEnd]
      cases hkept : trimEnd p cs with
      | cons d kept => exact ⟨back, hback, by rw [hkept] at hcs; simpa using hcs⟩
      | nil =>
          obtain rfl : cs = back := by simpa [hkept] using hcs
          cases hc : p c with
          | false => exact ⟨cs, hback, by simp⟩
          | true => exact ⟨c :: cs, List.forall_mem_cons.mpr ⟨hc, hback⟩, by simp⟩

theorem exists_trimStart (p : Char → Bool) (cs : List Char) :
    ∃ front, (∀ c ∈ front, p c = true) ∧ cs = front ++ trimStart p cs :=
  ⟨cs.takeWhile p, List.all_eq_true.mp List.all_takeWhile, List.takeWhile_append_dropWhile.symm⟩

theorem trimStart_append_of_pos {front : List Char} (hfront : ∀ c ∈ front, p c = true)
    (cs : List Char) : trimStart p (front ++ cs) = trimStart p cs :=
  List.dropWhile_append_of_pos hfront

theorem trimStart_eq_self (h : ∀ c, cs.head? = some c → p c = false) : trimStart p cs = cs := by
  cases cs with
  | nil => rfl
  | cons c cs => simp [trimStart, h c rfl]

theorem trimEnd_eq_self (h : ∀ c, cs.getLast? = some c → p c = false) : trimEnd p cs = cs := by
  rcases List.eq_nil_or_concat cs with rfl | ⟨front, c, rfl⟩
  · rfl
  · rw [List.concat_eq_append] at h ⊢
    exact trimEnd_concat (h c (by simp)) front

/-! ## Both ends -/

/-- What is cut off on either side is blank. -/
theorem exists_trimBy (p : Char → Bool) (cs : List Char) :
    ∃ front back, (∀ c ∈ front, p c = true) ∧ (∀ c ∈ back, p c = true) ∧
      cs = front ++ trimBy p cs ++ back := by
  obtain ⟨front, hfront, hcs⟩ := exists_trimStart p cs
  obtain ⟨back, hback, htrim⟩ := exists_trimEnd p (trimStart p cs)
  refine ⟨front, back, hfront, hback, ?_⟩
  rw [trimBy, List.append_assoc, ← htrim, ← hcs]

/-- Blanks around a text that neither begins nor ends with one are cut off, and nothing else. -/
theorem trimBy_around {front back : List Char} (hfront : ∀ c ∈ front, p c = true)
    (hback : ∀ c ∈ back, p c = true) (hhead : ∀ c, cs.head? = some c → p c = false)
    (hlast : ∀ c, cs.getLast? = some c → p c = false) : trimBy p (front ++ cs ++ back) = cs := by
  rw [trimBy, List.append_assoc, trimStart_append_of_pos hfront]
  cases cs with
  | nil =>
      have hnone : trimStart p back = [] := List.dropWhile_eq_nil_iff.mpr hback
      rw [List.nil_append, hnone, trimEnd]
  | cons c cs =>
      rw [trimStart_eq_self (by simpa using hhead), trimEnd_append_of_pos hback,
        trimEnd_eq_self hlast]

/-! ## Twice -/

theorem trimEnd_trimEnd (p : Char → Bool) (cs : List Char) :
    trimEnd p (trimEnd p cs) = trimEnd p cs := by
  obtain ⟨back, hback, hcs⟩ := exists_trimEnd p cs
  have hsame : trimEnd p (trimEnd p cs ++ back) = trimEnd p (trimEnd p cs) :=
    trimEnd_append_of_pos hback
  rw [← hcs] at hsame
  exact hsame.symm

theorem trimEnd_cons_of_neg {c : Char} (hc : p c = false) (cs : List Char) :
    trimEnd p (c :: cs) = c :: trimEnd p cs := by
  rw [trimEnd]
  cases trimEnd p cs <;> simp [hc]

/-- A text that begins with no blank begins with none either without the blanks at its end. -/
theorem trimStart_trimBy (p : Char → Bool) (cs : List Char) :
    trimStart p (trimBy p cs) = trimBy p cs := by
  rw [trimBy]
  cases hstart : trimStart p cs with
  | nil => rfl
  | cons c rest =>
      have hc : p c = false := by
        have hhead := List.head?_dropWhile_not p cs
        rw [trimStart] at hstart
        simpa [hstart] using hhead
      rw [trimEnd_cons_of_neg hc, trimStart_eq_self (by simpa using hc)]

theorem trim_trim (s : String) : trim (trim s) = trim s := by
  rw [trim, trim, String.toList_ofList]
  congr 1
  rw [trimBy, trimStart_trimBy, trimBy, trimEnd_trimEnd]

end PackageScaffold.Text
