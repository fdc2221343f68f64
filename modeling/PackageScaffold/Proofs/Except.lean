import Mathlib.Data.List.Forall2

/-!
# Computations that may fail

What is known of a computation in steps once it has come to a result, and how two computations are
compared that go through the same steps.

* `bind_eq_ok`, `map_eq_ok`, `mapM_eq_ok_cons`: a computation that has come to a result came to one
  at each step;
* `bind_eq_error`, `exists_error_of_mapM`: one that has failed did so at one step;
* `filter_of_mapM`: the result for one item, picked from those for a list;
* `Tracks`: two computations fail alike, or come to results that are related.
-/

namespace PackageScaffold

variable {ε α β γ δ : Type}

/-! ## Results -/

/-- Whatever comes to a result has come to one at each step. -/
theorem bind_eq_ok {x : Except ε α} {f : α → Except ε β} {b : β} (h : (x >>= f) = .ok b) :
    ∃ a, x = .ok a ∧ f a = .ok b := by
  cases x with
  | error failure => simp [bind, Except.bind] at h
  | ok a => exact ⟨a, rfl, h⟩

/-- Whatever fails has failed at one step. -/
theorem bind_eq_error {x : Except ε α} {f : α → Except ε β} {failure : ε}
    (h : (x >>= f) = .error failure) :
    x = .error failure ∨ ∃ a, x = .ok a ∧ f a = .error failure := by
  cases x with
  | error other =>
      obtain rfl : other = failure := Except.error.inj h
      exact .inl rfl
  | ok a => exact .inr ⟨a, rfl, h⟩

theorem exists_eq_ok_of_isOk {x : Except ε α} (h : x.isOk = true) : ∃ a, x = .ok a := by
  cases x with
  | error failure => cases h
  | ok a => exact ⟨a, rfl⟩

/-- What is thrown is no result. -/
@[simp] theorem throw_ne_ok {failure : ε} {a : α} : (throw failure : Except ε α) ≠ .ok a := by
  simp [throw, throwThe, MonadExceptOf.throw]

theorem map_eq_ok {x : Except ε α} {f : α → β} {b : β} (h : x.map f = .ok b) :
    ∃ a, x = .ok a ∧ f a = b := by
  cases x with
  | error failure => simp [Except.map] at h
  | ok a => exact ⟨a, rfl, Except.ok.inj h⟩

theorem isOk_map (x : Except ε α) (f : α → β) : (x.map f).isOk = x.isOk := by
  cases x <;> rfl

/-- A result does not depend on how failures are told. -/
theorem mapError_eq_ok_iff {ε' : Type} {x : Except ε α} {f : ε → ε'} {a : α} :
    x.mapError f = .ok a ↔ x = .ok a := by
  cases x <;> simp [Except.mapError]

theorem mapError_eq_error {ε' : Type} {x : Except ε α} {f : ε → ε'} {failure : ε'}
    (h : x.mapError f = .error failure) : ∃ cause, f cause = failure := by
  cases x with
  | error cause => exact ⟨cause, Except.error.inj h⟩
  | ok a => cases h

/-- The first step of a computation with a state that comes to a result. -/
theorem run_bind_ok {σ : Type} {x : StateT σ (Except ε) α} {f : α → StateT σ (Except ε) β}
    {s t : σ} {a : α} (h : x.run s = .ok (a, t)) : (x >>= f).run s = (f a).run t := by
  rw [StateT.run_bind, h]
  rfl

theorem run_discard_ok {σ : Type} {x : StateT σ (Except ε) α} {s t : σ} {a : α}
    (h : x.run s = .ok (a, t)) : (discard x).run s = .ok ((), t) := by
  change (x.run s).map _ = _
  rw [h]
  rfl

/-- A list is gone through item by item. -/
theorem mapM_eq_ok_cons {f : α → Except ε β} {x : α} {xs : List α} {ys : List β}
    (h : (x :: xs).mapM f = .ok ys) :
    ∃ y rest, f x = .ok y ∧ xs.mapM f = .ok rest ∧ ys = y :: rest := by
  rw [List.mapM_cons] at h
  obtain ⟨y, hy, h⟩ := bind_eq_ok h
  obtain ⟨rest, hrest, h⟩ := bind_eq_ok h
  exact ⟨y, rest, hy, hrest, (Except.ok.inj h).symm⟩

theorem exists_of_mem_mapM {f : α → Except ε β} {xs : List α} {ys : List β}
    (h : xs.mapM f = .ok ys) {y : β} (hy : y ∈ ys) : ∃ x ∈ xs, f x = .ok y := by
  induction xs generalizing ys with
  | nil =>
      obtain rfl : [] = ys := by simpa [pure, Except.pure] using h
      simp at hy
  | cons x xs ih =>
      obtain ⟨first, rest, hx, hxs, rfl⟩ := mapM_eq_ok_cons h
      rcases List.mem_cons.mp hy with rfl | hy
      · exact ⟨x, List.mem_cons_self, hx⟩
      · obtain ⟨x', hx', hfx'⟩ := ih hxs hy
        exact ⟨x', List.mem_cons_of_mem _ hx', hfx'⟩

theorem exists_mem_of_mapM {f : α → Except ε β} {xs : List α} {ys : List β}
    (h : xs.mapM f = .ok ys) {x : α} (hx : x ∈ xs) : ∃ y ∈ ys, f x = .ok y := by
  induction xs generalizing ys with
  | nil => simp at hx
  | cons first xs ih =>
      obtain ⟨y, rest, hy, hrest, rfl⟩ := mapM_eq_ok_cons h
      rcases List.mem_cons.mp hx with rfl | hx
      · exact ⟨y, List.mem_cons_self, hy⟩
      · obtain ⟨y', hy', hfx⟩ := ih hrest hx
        exact ⟨y', List.mem_cons_of_mem _ hy', hfx⟩

/-- What comes to a result at every item of a list comes to one for the list. -/
theorem exists_mapM_eq_ok {f : α → Except ε β} {xs : List α} (h : ∀ x ∈ xs, ∃ y, f x = .ok y) :
    ∃ ys, xs.mapM f = .ok ys := by
  induction xs with
  | nil => exact ⟨[], rfl⟩
  | cons x xs ih =>
      obtain ⟨⟨y, hy⟩, hxs⟩ := List.forall_mem_cons.mp h
      obtain ⟨ys, hys⟩ := ih hxs
      exact ⟨y :: ys, by rw [List.mapM_cons, hy, hys]; rfl⟩

theorem exists_mapM_eq_ok_of_forall {f : α → Except ε β} {xs : List α} {p : β → Prop}
    (h : ∀ x ∈ xs, ∃ y, f x = .ok y ∧ p y) : ∃ ys, xs.mapM f = .ok ys ∧ ∀ y ∈ ys, p y := by
  obtain ⟨ys, hys⟩ := exists_mapM_eq_ok fun x hx => (h x hx).imp fun _ => And.left
  refine ⟨ys, hys, fun y hy => ?_⟩
  obtain ⟨x, hx, hfx⟩ := exists_of_mem_mapM hys hy
  obtain ⟨y', hfx', hp⟩ := h x hx
  rwa [Except.ok.inj (hfx.symm.trans hfx')]

/-- What fails for a list has failed at one of its items. -/
theorem exists_error_of_mapM {f : α → Except ε β} {xs : List α} {failure : ε}
    (h : xs.mapM f = .error failure) : ∃ x ∈ xs, f x = .error failure := by
  induction xs with
  | nil => cases h
  | cons x xs ih =>
      rw [List.mapM_cons] at h
      rcases bind_eq_error h with hx | ⟨y, -, h⟩
      · exact ⟨x, List.mem_cons_self, hx⟩
      · rcases bind_eq_error h with hxs | ⟨rest, -, hrest⟩
        · exact (ih hxs).imp fun _ hfailed => hfailed.imp_left (List.mem_cons_of_mem _)
        · cases hrest

/-- Of the results for a list without repetitions, a test that only holds at one item picks one. -/
theorem filter_of_mapM {f : α → Except ε β} {p : β → Bool} {x : α} {y : β} (hy : f x = .ok y)
    (hp : p y = true) {xs : List α} {ys : List β} (h : xs.mapM f = .ok ys) (hnodup : xs.Nodup)
    (hx : x ∈ xs) (hother : ∀ x' ∈ xs, x' ≠ x → ∀ y', f x' = .ok y' → p y' = false) :
    ys.filter p = [y] := by
  induction xs generalizing ys with
  | nil => simp at hx
  | cons first xs ih =>
      obtain ⟨result, rest, hfirst, hrest, rfl⟩ := mapM_eq_ok_cons h
      obtain ⟨hnew, hrestNodup⟩ := List.nodup_cons.mp hnodup
      obtain ⟨hfirstOther, hrestOther⟩ := List.forall_mem_cons.mp hother
      rcases List.mem_cons.mp hx with rfl | hx
      · obtain rfl : result = y := Except.ok.inj (hfirst.symm.trans hy)
        have hnone : rest.filter p = [] := by
          refine List.filter_eq_nil_iff.mpr fun y' hmem => ?_
          obtain ⟨x', hx', hfx'⟩ := exists_of_mem_mapM hrest hmem
          have hne : x' ≠ x := fun heq => hnew (heq ▸ hx')
          simp [hrestOther x' hx' hne y' hfx']
        rw [List.filter_cons_of_pos hp, hnone]
      · have hne : first ≠ x := fun heq => hnew (heq ▸ hx)
        rw [List.filter_cons_of_neg (by simp [hfirstOther hne result hfirst]),
          ih hrest hrestNodup hx hrestOther]

/-- The results at the items of a list are the result for the list. -/
theorem mapM_eq_ok_of_forall₂ {f : α → Except ε β} {xs : List α} {ys : List β}
    (h : List.Forall₂ (fun x y => f x = .ok y) xs ys) : xs.mapM f = .ok ys := by
  induction h with
  | nil => rfl
  | cons hx _ ih =>
      rw [List.mapM_cons, hx, ih]
      rfl

/-! ## Two computations side by side -/

/-- Two computations fail alike, or come to results that are related. -/
inductive Tracks (R : α → β → Prop) : Except ε α → Except ε β → Prop
  | ok {a : α} {b : β} (h : R a b) : Tracks R (.ok a) (.ok b)
  | error (failure : ε) : Tracks R (.error failure) (.error failure)

namespace Tracks

variable {R : α → β → Prop} {S : γ → δ → Prop}

theorem self {R : α → α → Prop} (h : ∀ a, R a a) (x : Except ε α) : Tracks R x x := by
  cases x with
  | ok a => exact .ok (h a)
  | error failure => exact .error failure

theorem bind {x : Except ε α} {y : Except ε β} {f : α → Except ε γ} {g : β → Except ε δ}
    (h : Tracks R x y) (hfg : ∀ a b, R a b → Tracks S (f a) (g b)) :
    Tracks S (x >>= f) (y >>= g) := by
  cases h with
  | ok hab => exact hfg _ _ hab
  | error failure => exact .error failure

theorem mapM {f : γ → Except ε α} {g : γ → Except ε β} {xs : List γ}
    (h : ∀ x ∈ xs, Tracks R (f x) (g x)) :
    Tracks (List.Forall₂ R) (xs.mapM f) (xs.mapM g) := by
  induction xs with
  | nil => exact .ok .nil
  | cons x xs ih =>
      obtain ⟨hx, hxs⟩ := List.forall_mem_cons.mp h
      rw [List.mapM_cons, List.mapM_cons]
      exact hx.bind fun a b hab => (ih hxs).bind fun as bs habs => .ok (.cons hab habs)

end Tracks

end PackageScaffold
