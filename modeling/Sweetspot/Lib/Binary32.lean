import Mathlib.Data.Int.Log
import Mathlib.Data.Rat.Floor
import Mathlib.Tactic.FieldSimp
import Mathlib.Tactic.Linarith
import Mathlib.Tactic.Positivity

/-!
# Single-precision rounding

The value a single-precision operation returns is the exact result rounded to 24 significant bits,
half to even (`Binary32.round`).  Overflow and subnormal numbers are left out: the library is about
quotients of small natural numbers.

* `abs_round_sub_le`: the error is at most half a unit in the last place.
* `le_round`, `round_le`: rounding does not cross an integer.
* `round_natCast`: naturals below `2 ^ 24` are exact.
* `floor_round_div`, `ceil_round_div`: the floor and the ceiling of a rounded quotient of naturals
  below `2 ^ 24` are those of the exact quotient.
-/

namespace Binary32

/-- The nearest integer, an even one in case of a tie. -/
def rne (q : ℚ) : ℤ :=
  if q - ⌊q⌋ < 1 / 2 then ⌊q⌋
  else if 1 / 2 < q - ⌊q⌋ then ⌊q⌋ + 1
  else if ⌊q⌋ % 2 = 0 then ⌊q⌋ else ⌊q⌋ + 1

/-- The unit in the last place of `x`: the last of 24 bits. -/
def ulp (x : ℚ) : ℚ := 2 ^ (Int.log 2 |x| - 23)

/-- `x` rounded to single precision. -/
def round (x : ℚ) : ℚ := rne (x / ulp x) * ulp x

/-! ## Rounding to an integer -/

theorem floor_le_rne (q : ℚ) : ⌊q⌋ ≤ rne q := by
  unfold rne
  split_ifs <;> omega

theorem rne_le_floor_add_one (q : ℚ) : rne q ≤ ⌊q⌋ + 1 := by
  unfold rne
  split_ifs <;> omega

theorem le_rne {n : ℤ} {q : ℚ} (h : n ≤ q) : n ≤ rne q :=
  (Int.le_floor.2 h).trans (floor_le_rne q)

theorem rne_le {n : ℤ} {q : ℚ} (h : q ≤ n) : rne q ≤ n := by
  by_cases hq : q = n
  · subst hq
    simp [rne]
  · have : ⌊q⌋ < n := Int.floor_lt.2 (lt_of_le_of_ne h hq)
    have := rne_le_floor_add_one q
    omega

theorem abs_rne_sub_le (q : ℚ) : |(rne q : ℚ) - q| ≤ 1 / 2 := by
  have h₁ := Int.floor_le q
  have h₂ := Int.lt_floor_add_one q
  unfold rne
  rw [abs_le]
  split_ifs <;> push_cast <;> constructor <;> linarith

/-! ## The unit in the last place -/

theorem ulp_pos (x : ℚ) : 0 < ulp x := zpow_pos two_pos _

/-- Half a unit in the last place is less than `2 ^ (-24)` times the argument, or as much. -/
theorem ulp_le {x : ℚ} (hx : 0 < x) : ulp x * 2 ^ 23 ≤ x := by
  have hlog := Int.zpow_log_le_self (b := 2) (by norm_num) hx
  rw [ulp, abs_of_pos hx, zpow_sub₀ two_ne_zero]
  simpa using hlog

/-- Below `2 ^ 24` the unit in the last place divides one. -/
theorem exists_mul_ulp {x : ℚ} (hx : 0 < x) (hlt : x < 2 ^ 24) : ∃ d : ℤ, (d : ℚ) * ulp x = 1 := by
  have hlog : Int.log 2 x < 24 :=
    (Int.lt_zpow_iff_log_lt (by norm_num) hx).1 (by exact_mod_cast hlt)
  obtain ⟨d, hd⟩ : ∃ d : ℕ, Int.log 2 x = 23 - d := ⟨(23 - Int.log 2 x).toNat, by omega⟩
  refine ⟨2 ^ d, ?_⟩
  rw [ulp, abs_of_pos hx, hd, sub_sub_cancel_left, zpow_neg, zpow_natCast]
  push_cast
  exact mul_inv_cancel₀ (by positivity)

theorem abs_round_sub_le (x : ℚ) : |round x - x| ≤ ulp x / 2 := by
  have hu := ulp_pos x
  have heq : round x - x = (rne (x / ulp x) - x / ulp x) * ulp x := by
    rw [round, sub_mul, div_mul_cancel₀ _ hu.ne']
  rw [heq, abs_mul, abs_of_pos hu]
  nlinarith [abs_rne_sub_le (x / ulp x)]

/-! ## Integers -/

theorem le_round {n : ℤ} {x : ℚ} (hx : 0 < x) (hlt : x < 2 ^ 24) (h : n ≤ x) : n ≤ round x := by
  obtain ⟨d, hd⟩ := exists_mul_ulp hx hlt
  have hu := ulp_pos x
  have hnd : ((n * d : ℤ) : ℚ) ≤ rne (x / ulp x) := by
    refine Int.cast_le.2 (le_rne ?_)
    rw [le_div_iff₀ hu]
    push_cast
    rwa [mul_assoc, hd, mul_one]
  calc (n : ℚ) = ((n * d : ℤ) : ℚ) * ulp x := by
        push_cast
        rw [mul_assoc, hd, mul_one]
    _ ≤ round x := mul_le_mul_of_nonneg_right hnd hu.le

theorem round_le {n : ℤ} {x : ℚ} (hx : 0 < x) (hlt : x < 2 ^ 24) (h : x ≤ n) : round x ≤ n := by
  obtain ⟨d, hd⟩ := exists_mul_ulp hx hlt
  have hu := ulp_pos x
  have hnd : (rne (x / ulp x) : ℚ) ≤ ((n * d : ℤ) : ℚ) := by
    refine Int.cast_le.2 (rne_le ?_)
    rw [div_le_iff₀ hu]
    push_cast
    rwa [mul_assoc, hd, mul_one]
  calc round x ≤ ((n * d : ℤ) : ℚ) * ulp x := mul_le_mul_of_nonneg_right hnd hu.le
    _ = n := by
        push_cast
        rw [mul_assoc, hd, mul_one]

@[simp] theorem round_zero : round 0 = 0 := by
  simp [round, rne]

theorem round_nonneg {x : ℚ} (hx : 0 ≤ x) : 0 ≤ round x := by
  have hu := ulp_pos x
  have hrne : (0 : ℤ) ≤ rne (x / ulp x) := le_rne (by simpa using div_nonneg hx hu.le)
  exact mul_nonneg (Int.cast_nonneg hrne) hu.le

/-- **Naturals below `2 ^ 24` are exact.** -/
theorem round_natCast {n : ℕ} (hn : n < 2 ^ 24) : round n = n := by
  rcases Nat.eq_zero_or_pos n with rfl | hpos
  · simp
  · have hx : (0 : ℚ) < n := by exact_mod_cast hpos
    have hlt : (n : ℚ) < 2 ^ 24 := by exact_mod_cast hn
    apply le_antisymm
    · exact_mod_cast round_le (n := n) hx hlt (by simp)
    · exact_mod_cast le_round (n := n) hx hlt (by simp)

/-! ## Quotients -/

section Div

variable {a b : ℕ} (ha : 0 < a) (halt : a < 2 ^ 24) (hb : 0 < b)
include ha halt hb

/-- Rounding a quotient moves it by less than its distance to the next integer can be. -/
theorem abs_round_div_sub_lt : |round ((a : ℚ) / b) - a / b| < 1 / b := by
  have hb' : (0 : ℚ) < b := by exact_mod_cast hb
  have ha' : (a : ℚ) < 2 ^ 24 := by exact_mod_cast halt
  have hx : (0 : ℚ) < a / b := div_pos (by exact_mod_cast ha) hb'
  have hulp : ulp ((a : ℚ) / b) * 2 ^ 23 < 2 ^ 24 / b :=
    (ulp_le hx).trans_lt (div_lt_div_of_pos_right ha' hb')
  have hsplit : (2 : ℚ) ^ 24 / b = 2 ^ 24 * (1 / b) := by ring
  rw [hsplit] at hulp
  calc |round ((a : ℚ) / b) - a / b| ≤ ulp ((a : ℚ) / b) / 2 := abs_round_sub_le _
    _ < 1 / b := by linarith

theorem quotient_bounds : (0 : ℚ) < a / b ∧ (a : ℚ) / b < 2 ^ 24 := by
  have hb' : (1 : ℚ) ≤ b := by exact_mod_cast hb
  have ha' : (a : ℚ) < 2 ^ 24 := by exact_mod_cast halt
  refine ⟨div_pos (by exact_mod_cast ha) (by linarith), ?_⟩
  exact (div_le_self (by positivity) hb').trans_lt ha'

end Div

/-- **The floor of a rounded quotient is the exact one.** -/
theorem floor_round_div {a b : ℕ} (halt : a < 2 ^ 24) (hb : 0 < b) :
    ⌊round ((a : ℚ) / b)⌋ = (a / b : ℕ) := by
  rcases Nat.eq_zero_or_pos a with rfl | ha
  · simp
  · obtain ⟨hx, hlt⟩ := quotient_bounds ha halt hb
    have hb' : (0 : ℚ) < b := by exact_mod_cast hb
    have herr := (abs_lt.1 (abs_round_div_sub_lt ha halt hb)).2
    have hle : a / b * b ≤ a := Nat.div_mul_le_self a b
    have hgt : a + 1 ≤ (a / b + 1) * b := by
      rw [mul_comm]
      exact Nat.lt_mul_div_succ a hb
    generalize a / b = q at hle hgt ⊢
    refine Int.floor_eq_iff.2 ⟨le_round hx hlt ?_, ?_⟩
    · rw [Int.cast_natCast, le_div_iff₀ hb']
      exact_mod_cast hle
    · -- the quotient is at least `1 / b` short of the next integer
      have hgap : (a : ℚ) / b + 1 / b ≤ q + 1 := by
        rw [← add_div, div_le_iff₀ hb']
        exact_mod_cast hgt
      rw [Int.cast_natCast]
      linarith

/-- **The ceiling of a rounded quotient is the exact one.** -/
theorem ceil_round_div {a b : ℕ} (halt : a < 2 ^ 24) (hb : 0 < b) :
    ⌈round ((a : ℚ) / b)⌉ = ((a + b - 1) / b : ℕ) := by
  rcases Nat.eq_zero_or_pos a with rfl | ha
  · have : (b - 1) / b = 0 := Nat.div_eq_of_lt (by omega)
    simp [this]
  · obtain ⟨hx, hlt⟩ := quotient_bounds ha halt hb
    have hb' : (0 : ℚ) < b := by exact_mod_cast hb
    have herr := (abs_lt.1 (abs_round_div_sub_lt ha halt hb)).1
    have hdiv := Nat.div_add_mod' (a + b - 1) b
    have hmod := Nat.mod_lt (a + b - 1) hb
    generalize (a + b - 1) / b = q at hdiv ⊢
    have hlow : q * b + 1 ≤ a + b := by omega
    have hhigh : a ≤ q * b := by omega
    refine Int.ceil_eq_iff.2 ⟨?_, round_le hx hlt ?_⟩
    · -- the quotient is at least `1 / b` past the integer below
      have hgap : (q : ℚ) + 1 / b ≤ a / b + 1 := by
        have : ((q * b + 1 : ℕ) : ℚ) ≤ (a + b : ℕ) := by exact_mod_cast hlow
        have h := div_le_div_of_nonneg_right this hb'.le
        push_cast at h
        rwa [add_div, add_div, mul_div_cancel_right₀ _ hb'.ne', div_self hb'.ne'] at h
      rw [Int.cast_natCast]
      linarith
    · rw [Int.cast_natCast, div_le_iff₀ hb']
      exact_mod_cast hhigh

end Binary32
