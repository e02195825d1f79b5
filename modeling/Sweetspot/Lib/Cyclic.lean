import Mathlib.Data.List.Iterate
import Mathlib.Data.List.Nodup
import Mathlib.Data.Nat.ModEq
import Mathlib.Data.Set.Basic
import Mathlib.Tactic.Common

/-!
# Cyclic cursors

A cursor that steps through finitely many values one after the other and starts over behind the
last.  `Cyclic f S n` says that `f` does this on `S`, `n` values in all: it numbers them by their
position and says that a step adds one to it, modulo `n`.

* `position_iterate`: where the cursor is after `k` steps.
* `nodup_iterate`, `mem_iterate`: `n` values in a row are all different, and all there are.
* `window_nodup`, `mem_window`: the same of any `n` consecutive values of a longer walk.
-/

variable {α : Type*}

/-- `f` walks round the `n` values of `S`. -/
structure Cyclic (f : α → α) (S : Set α) (n : ℕ) where
  position : α → ℕ
  position_lt : ∀ {x}, x ∈ S → position x < n
  position_inj : ∀ {x y}, x ∈ S → y ∈ S → position x = position y → x = y
  step_mem : ∀ {x}, x ∈ S → f x ∈ S
  position_step : ∀ {x}, x ∈ S → position (f x) = (position x + 1) % n

namespace Cyclic

variable {f : α → α} {S : Set α} {n : ℕ} (C : Cyclic f S n) {x y : α}
include C

theorem iterate_mem (hx : x ∈ S) (k : ℕ) : f^[k] x ∈ S := by
  induction k generalizing x with
  | zero => exact hx
  | succ k ih => exact ih (C.step_mem hx)

/-- **Where the cursor is** after `k` steps. -/
theorem position_iterate (hx : x ∈ S) (k : ℕ) :
    C.position (f^[k] x) = (C.position x + k) % n := by
  induction k generalizing x with
  | zero => exact (Nat.mod_eq_of_lt (C.position_lt hx)).symm
  | succ k ih =>
    rw [Function.iterate_succ_apply, ih (C.step_mem hx), C.position_step hx, Nat.mod_add_mod]
    congr 1
    omega

/-- Fewer than `n` steps apart, the values differ. -/
theorem iterate_inj (hx : x ∈ S) {i j : ℕ} (hi : i < n) (hj : j < n)
    (h : f^[i] x = f^[j] x) : i = j := by
  have hmod : (C.position x + i) % n = (C.position x + j) % n := by
    rw [← C.position_iterate hx, ← C.position_iterate hx, h]
  have hij : i % n = j % n := Nat.ModEq.add_left_cancel' (C.position x) hmod
  rwa [Nat.mod_eq_of_lt hi, Nat.mod_eq_of_lt hj] at hij

theorem nodup_iterate (hx : x ∈ S) {k : ℕ} (hk : k ≤ n) : (List.iterate f x k).Nodup := by
  rw [← List.range_map_iterate]
  refine List.Nodup.map_on ?_ List.nodup_range
  intro i hi j hj h
  rw [List.mem_range] at hi hj
  exact C.iterate_inj hx (by omega) (by omega) h

/-- Every value is fewer than `n` steps off. -/
theorem exists_iterate (hx : x ∈ S) (hy : y ∈ S) : ∃ k < n, f^[k] x = y := by
  have hpx := C.position_lt hx
  have hpy := C.position_lt hy
  refine ⟨(C.position y + (n - C.position x)) % n, Nat.mod_lt _ (by omega), ?_⟩
  refine C.position_inj (C.iterate_mem hx _) hy ?_
  rw [C.position_iterate hx, Nat.add_mod_mod,
    show C.position x + (C.position y + (n - C.position x)) = C.position y + n by omega,
    Nat.add_mod_right, Nat.mod_eq_of_lt hpy]

theorem mem_iterate (hx : x ∈ S) (hy : y ∈ S) : y ∈ List.iterate f x n := by
  obtain ⟨k, hk, rfl⟩ := C.exists_iterate hx hy
  exact List.mem_iterate.2 ⟨k, hk, rfl⟩

/-! ## Consecutive values of a walk -/

omit C in
/-- A stretch of a walk is a walk from where the stretch begins. -/
theorem window_eq (f : α → α) (x : α) {m i k : ℕ} (h : i + k ≤ m) :
    ((List.iterate f x m).drop i).take k = List.iterate f (f^[i] x) k := by
  obtain ⟨r, rfl⟩ := Nat.exists_eq_add_of_le h
  rw [List.iterate_add, List.iterate_add, List.append_assoc,
    List.drop_append_of_le_length (by simp), List.drop_of_length_le (by simp), List.nil_append,
    List.take_append_of_le_length (by simp), List.take_of_length_le (by simp)]

/-- **No `n` consecutive values repeat one.** -/
theorem window_nodup (hx : x ∈ S) {m i : ℕ} (h : i + n ≤ m) :
    (((List.iterate f x m).drop i).take n).Nodup := by
  rw [window_eq f x h]
  exact C.nodup_iterate (C.iterate_mem hx i) le_rfl

/-- **Any `n` consecutive values are all there are.** -/
theorem mem_window (hx : x ∈ S) (hy : y ∈ S) {m i : ℕ} (h : i + n ≤ m) :
    y ∈ ((List.iterate f x m).drop i).take n := by
  rw [window_eq f x h]
  exact C.mem_iterate (C.iterate_mem hx i) hy

end Cyclic
