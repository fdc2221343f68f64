import PackageScaffold.Files.Content
import PackageScaffold.Proofs.Catalogue.Rendering
import PackageScaffold.Proofs.Files.Writing
import PackageScaffold.Review.Rule

/-!
# A readme that was brought back

A readme that a repair has written says enough to pass every check of the documentation.  What it
says of every project stands in it, and is still there when the file is read with its line ends
unified.

* `infix_unifyLines`: a piece that is read as it is written;
* `passed_of_render_readme`: the checks of a rendered readme are passed.
-/

namespace PackageScaffold

open Catalogue

/-! ## Line ends -/

theorem unifyLines_append {cs rest : List Char} (h : rest.head? ≠ some '\n') :
    Content.unifyLines (cs ++ rest) = Content.unifyLines cs ++ Content.unifyLines rest := by
  fun_induction Content.unifyLines cs with
  | case1 cs ih => simp [Content.unifyLines, ih]
  | case2 cs hfeed ih =>
      -- what follows a carriage return is not made a line feed by the rest
      rw [List.cons_append, Content.unifyLines, ih, List.cons_append]
      intro more heq
      cases cs with
      | nil => simp [show rest = '\n' :: more from heq] at h
      | cons c cs =>
          simp only [List.cons_append, List.cons.injEq] at heq
          exact hfeed cs (by rw [heq.1])
  | case3 c cs hreturn hother ih =>
      rw [List.cons_append, Content.unifyLines, ih, List.cons_append]
      · exact fun more heq => absurd heq hother
      · exact hother
  | case4 => rfl

/-- A piece without carriage returns stays, unless it could lose a line feed at its start. -/
theorem infix_unifyLines {piece cs : List Char} (hhead : piece.head? ≠ some '\n')
    (hreturn : '\r' ∉ piece) (h : piece <:+: cs) : piece <:+: Content.unifyLines cs := by
  obtain ⟨before, after, rfl⟩ := h
  by_cases hnil : piece = []
  · subst hnil
    exact List.nil_infix
  · refine ⟨Content.unifyLines before, Content.unifyLines after, ?_⟩
    rw [List.append_assoc before, unifyLines_append, Content.unifyLines_eq_append hreturn,
      List.append_assoc]
    rwa [List.head?_append_of_ne_nil _ hnil]

/-! ## The checks of a readme -/

theorem occursIn_of_infix {piece cs : List Char} (h : piece <:+: cs) :
    occursIn piece cs = true := by
  induction cs with
  | nil => simpa [occursIn] using h
  | cons c cs ih =>
      rw [occursIn, Bool.or_eq_true, List.isPrefixOf_iff_prefix]
      exact (List.infix_cons_iff.mp h).imp_right ih

theorem chars_readmeExample : ∃ cs, readmeExample.toList = cs ∧ ['`', '`', '`'] <:+: cs := by
  unfold readmeExample
  exact ⟨_, String.toList_ofList, by decide⟩

theorem chars_readmeEnd : ∃ cs, readmeEnd.toList = cs ∧ cs.head? ≠ some '\n' ∧ '\r' ∉ cs ∧
    leastReadmeLength ≤ cs.length ∧ '#' ∈ cs := by
  unfold readmeEnd
  exact ⟨_, toList_append_of String.toList_ofList
    (toList_append_of String.toList_ofList String.toList_ofList), by decide +kernel⟩

/-- A readme that was rendered passes every check. -/
theorem passed_of_render_readme {strict : Bool} {bindings : Entries} {text : String}
    (h : standard.render strict "docs/readme" bindings = .ok text) (strictly : Bool) :
    ∀ check ∈ checkReadme strictly (Content.unifyLines text.toList),
      ∃ message, check = .passed message := by
  have hpieces := infix_render_readme h
  obtain ⟨example', hexample', hticks⟩ := chars_readmeExample
  obtain ⟨ending, hending, hhead, hreturn, hlength, hheading⟩ := chars_readmeEnd
  simp only [readmePieces, List.forall_mem_cons, hexample', hending] at hpieces
  obtain ⟨hexample, hend, -⟩ := hpieces
  have hcode := infix_unifyLines (by decide) (by decide) (hticks.trans hexample)
  have hend := infix_unifyLines hhead hreturn hend
  have hlong : leastReadmeLength ≤ (Content.unifyLines text.toList).length :=
    Nat.le_trans hlength hend.length_le
  have hmarked : (Content.unifyLines text.toList).contains '#' = true :=
    List.contains_iff_mem.mpr (hend.mem hheading)
  intro check hcheck
  simp only [checkReadme, hlong, hmarked, occursIn_of_infix hcode, decide_true, Check.of, if_true,
    List.mem_append, List.mem_cons, List.not_mem_nil, or_false] at hcheck
  rcases hcheck with (rfl | rfl) | hcheck
  · exact ⟨_, rfl⟩
  · exact ⟨_, rfl⟩
  · split at hcheck
    · obtain rfl := List.mem_singleton.mp hcheck
      exact ⟨_, rfl⟩
    · simp at hcheck

end PackageScaffold
