import Mathlib.Algebra.Order.Ring.Int
import Mathlib.RingTheory.Coprime.Basic
import Mathlib.Tactic.NormNum
import Mathlib.Tactic.Ring

/-!
# Values kept in an `int`

A value that is stored in an `int` of 32 bits keeps its residue modulo `2 ^ 32`: it comes out within
half that of zero.
-/

namespace Sweetspot

/-- A value stored in an `int`. -/
def int32 (z : ℤ) : ℤ := z.bmod (2 ^ 32)

/-- Nothing is left of the multiples of `2 ^ 32`. -/
theorem int32_eq_zero_iff (z : ℤ) : int32 z = 0 ↔ 0x100000000 ∣ z := by
  have hword : ((2 ^ 32 : ℕ) : ℤ) = 0x100000000 := by norm_num
  rw [int32, ← Int.dvd_iff_bmod_eq_zero, hword]

/-- Nothing is left of ten times a number for the multiples of `2 ^ 31`. -/
theorem int32_mul_ten_eq_zero_iff (z : ℤ) : int32 (z * 10) = 0 ↔ 0x80000000 ∣ z := by
  have hword : (0x100000000 : ℤ) = 0x80000000 * 2 := by norm_num
  have hten : z * 10 = z * 5 * 2 := by ring
  rw [int32_eq_zero_iff, hword, hten, mul_dvd_mul_iff_right two_ne_zero]
  exact ⟨IsCoprime.dvd_of_dvd_mul_right ⟨2, -858993459, by norm_num⟩, fun h => h.mul_right 5⟩

end Sweetspot
