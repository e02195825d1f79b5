import Mathlib.Data.Nat.Notation
import Mathlib.Logic.Relation

/-!
# Functions that call themselves once

A function that calls itself at most once, and need not return, is given by what it returns when it
may make so many calls.

* `Fuelled`: what one call does.
* `Fuelled.unique`: what it returns does not depend on the number of calls it was given.
* `Fuelled.returns_iff`: where every call but one to the same argument makes something smaller, it
  returns exactly if it never comes to an argument that calls itself.
-/

/-- The function `eval`, of which the call `s` makes the call `t` if `calls s t`. -/
structure Fuelled {σ ρ : Type*} (eval : ℕ → σ → Option ρ) (calls : σ → σ → Prop) : Prop where
  zero : ∀ s, eval 0 s = none
  stop : ∀ s, (∀ t, ¬ calls s t) → ∃ r, ∀ n, eval (n + 1) s = some r
  call : ∀ s t, calls s t → ∃ f : ρ → ρ, ∀ n, eval (n + 1) s = (eval n t).map f

namespace Fuelled

variable {σ ρ : Type*} {eval : ℕ → σ → Option ρ} {calls : σ → σ → Prop} {s t : σ}

/-- More calls do no harm. -/
theorem succ (h : Fuelled eval calls) {n : ℕ} {r : ρ} (hr : eval n s = some r) :
    eval (n + 1) s = some r := by
  induction n generalizing s r with
  | zero =>
    rw [h.zero] at hr
    cases hr
  | succ n ih =>
    by_cases hnext : ∃ t, calls s t
    · obtain ⟨t, hcall⟩ := hnext
      obtain ⟨f, hf⟩ := h.call s t hcall
      rw [hf, Option.map_eq_some_iff] at hr
      obtain ⟨r', hr', rfl⟩ := hr
      rw [hf, ih hr', Option.map_some]
    · obtain ⟨r', hstop⟩ := h.stop s (not_exists.1 hnext)
      rw [hstop] at hr ⊢
      exact hr

theorem mono (h : Fuelled eval calls) {n m : ℕ} (hle : n ≤ m) {r : ρ} (hr : eval n s = some r) :
    eval m s = some r := by
  induction hle with
  | refl => exact hr
  | step _ ih => exact h.succ ih

/-- **It returns one thing**, however many calls it may make. -/
theorem unique (h : Fuelled eval calls) {n m : ℕ} {r r' : ρ} (hr : eval n s = some r)
    (hr' : eval m s = some r') : r = r' := by
  have hn := h.mono (Nat.le_max_left n m) hr
  rw [h.mono (Nat.le_max_right n m) hr'] at hn
  exact (Option.some.inj hn).symm

/-- A call returns if the one that it makes does. -/
theorem returns_of_call (h : Fuelled eval calls) (hcall : calls s t)
    (ht : ∃ n r, eval n t = some r) : ∃ n r, eval n s = some r := by
  obtain ⟨n, r, hr⟩ := ht
  obtain ⟨f, hf⟩ := h.call s t hcall
  exact ⟨n + 1, f r, by rw [hf, hr, Option.map_some]⟩

/-- What calls itself does not return. -/
theorem eq_none_of_self (h : Fuelled eval calls) (hself : calls s s) (n : ℕ) :
    eval n s = none := by
  obtain ⟨f, hf⟩ := h.call s s hself
  induction n with
  | zero => exact h.zero s
  | succ n ih => rw [hf, ih, Option.map_none]

/-- Nor does what comes to it. -/
theorem eq_none_of_reaches (h : Fuelled eval calls) (hreach : Relation.ReflTransGen calls s t)
    (hself : calls t t) (n : ℕ) : eval n s = none := by
  induction hreach using Relation.ReflTransGen.head_induction_on generalizing n with
  | refl => exact h.eq_none_of_self hself n
  | head hcall _ ih =>
    cases n with
    | zero => exact h.zero _
    | succ n =>
      obtain ⟨f, hf⟩ := h.call _ _ hcall
      rw [hf, ih, Option.map_none]

/-- **When it returns**, where a call that is not to the same argument makes `rank` smaller. -/
theorem returns_iff (h : Fuelled eval calls) (rank : σ → ℕ)
    (hrank : ∀ s t, calls s t → t = s ∨ rank t < rank s) (s : σ) :
    (∃ n r, eval n s = some r) ↔ ¬ ∃ t, Relation.ReflTransGen calls s t ∧ calls t t := by
  constructor
  · rintro ⟨n, r, hr⟩ ⟨t, hreach, hself⟩
    rw [h.eq_none_of_reaches hreach hself n] at hr
    cases hr
  · intro hnever
    -- on the rank: what is called has a smaller one, or calls itself
    induction hn : rank s using Nat.strongRecOn generalizing s with
    | ind n ih =>
      subst hn
      by_cases hnext : ∃ t, calls s t
      · obtain ⟨t, hcall⟩ := hnext
        have hlt : rank t < rank s := by
          rcases hrank s t hcall with rfl | hlt
          · exact absurd ⟨t, .refl, hcall⟩ hnever
          · exact hlt
        refine h.returns_of_call hcall (ih _ hlt t ?_ rfl)
        rintro ⟨u, hreach, hself⟩
        exact hnever ⟨u, .head hcall hreach, hself⟩
      · obtain ⟨r, hstop⟩ := h.stop s (not_exists.1 hnext)
        exact ⟨1, r, hstop 0⟩

end Fuelled
