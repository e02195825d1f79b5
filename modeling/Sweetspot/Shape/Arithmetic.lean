import Sweetspot.Filter.Parser
import Sweetspot.Shape.Clock

/-!
# The arithmetic of a transmission time

What a packet takes is computed in `int`: the length past the first 40 octets times 80000, over ten
times the rate.

* `delayInts`: every value the expression goes through.
* `DelayExact`: none overflows, nothing is divided by 0, and the result is rounded down.
* `DelayFits`: the lengths and rates with which that is so, and `delayExact_iff`.
-/

namespace Sweetspot

/-- The values of an `int`. -/
def InInt (z : ℤ) : Prop := -2 ^ 31 ≤ z ∧ z < 2 ^ 31

/-- The values that `((length-40) * 8 * 10000)/(rate*10)` goes through before it divides; a short
packet is not computed. -/
def delayInts (length rate : ℤ) : List ℤ :=
  if length < 40 then []
  else [length - 40, (length - 40) * 8, (length - 40) * 8 * 10000, rate * 10]

/-- The microseconds come out right. -/
structure DelayExact (length rate : ℤ) : Prop where
  no_overflow : ∀ z ∈ delayInts length rate, InInt z
  no_zero_division : 40 ≤ length → rate * 10 ≠ 0
  value : delaytime length rate =
    some (if length < 40 then 0 else ((length - 40) * 8000).fdiv rate)

/-- A short packet, or one that is short enough at a rate that is; a rate below 0, which a number
beyond the largest `int` comes to, has to divide. -/
def DelayFits (length rate : ℤ) : Prop :=
  length < 40 ∨ length ≤ 26883 ∧
    (0 < rate ∧ rate ≤ 214748364 ∨
      -214748364 ≤ rate ∧ rate < 0 ∧ rate ∣ (length - 40) * 8000)

/-- A quotient is rounded up instead of down if the divisor is below 0 and leaves a rest. -/
theorem tdiv_eq_fdiv_iff {a b : ℤ} (ha : 0 ≤ a) (hb : b ≠ 0) :
    a.tdiv b = a.fdiv b ↔ 0 < b ∨ b ∣ a := by
  rw [Int.tdiv_eq_fdiv, if_pos ha]
  by_cases hdvd : b ∣ a
  · simp [hdvd]
  · by_cases hpos : 0 ≤ b
    · have hlt : 0 < b := by omega
      simp [hpos, hlt]
    · have hnot : ¬ 0 < b := by omega
      simp [hdvd, hpos, hnot]

/-- What the code computes if it divides at all. -/
theorem delaytime_of_ints {length rate : ℤ} (hlong : 40 ≤ length) (hrate : rate ≠ 0)
    (hints : ∀ z ∈ delayInts length rate, InInt z) :
    delaytime length rate = some (((length - 40) * 8000).tdiv rate) := by
  have hshort : ¬ length < 40 := by omega
  simp only [delayInts, if_neg hshort, List.forall_mem_cons, List.not_mem_nil, false_imp_iff,
    implies_true, and_true] at hints
  obtain ⟨-, -, hproduct, hten⟩ := hints
  have hnum : (length - 40) * 8 * 10000 = (length - 40) * 8000 * 10 := by ring
  have hten_ne : rate * 10 ≠ 0 := by omega
  rw [delaytime, if_neg hshort, int32_eq_self hten.1 hten.2, if_neg hten_ne,
    int32_eq_self hproduct.1 hproduct.2, hnum, Int.mul_tdiv_mul_of_pos_left _ _ (by decide)]

/-- **When the arithmetic is exact.**  For every length and every rate: nothing overflows or is
divided by 0 and the result is rounded down, just if they fit. -/
theorem delayExact_iff (length rate : ℤ) : DelayExact length rate ↔ DelayFits length rate := by
  by_cases hshort : length < 40
  · refine iff_of_true ⟨?_, fun h => absurd h (by omega), ?_⟩ (.inl hshort)
    · rw [delayInts, if_pos hshort]
      exact fun z hz => absurd hz List.not_mem_nil
    · rw [delaytime, if_pos hshort, if_pos hshort]
  · have hlong : 40 ≤ length := by omega
    have hvalue : ∀ hrate : rate ≠ 0, (∀ z ∈ delayInts length rate, InInt z) →
        (delaytime length rate =
          some (if length < 40 then 0 else ((length - 40) * 8000).fdiv rate) ↔
          0 < rate ∨ rate ∣ (length - 40) * 8000) := by
      intro hrate hints
      rw [delaytime_of_ints hlong hrate hints, if_neg hshort, Option.some_inj,
        tdiv_eq_fdiv_iff (by omega) hrate]
    -- the four values fit together if the last two do
    have hints : (∀ z ∈ delayInts length rate, InInt z) ↔
        length ≤ 26883 ∧ -214748364 ≤ rate ∧ rate ≤ 214748364 := by
      simp only [delayInts, if_neg hshort, List.forall_mem_cons, List.not_mem_nil, false_imp_iff,
        implies_true, and_true, InInt]
      omega
    constructor
    · rintro ⟨hno, hzero, hexact⟩
      have hrate : rate ≠ 0 := by
        have := hzero hlong
        omega
      obtain ⟨hlength, hlow, hhigh⟩ := hints.1 hno
      rcases (hvalue hrate hno).1 hexact with hpos | hdvd
      · exact .inr ⟨hlength, .inl ⟨hpos, hhigh⟩⟩
      · rcases lt_or_gt_of_ne hrate with hneg | hpos
        · exact .inr ⟨hlength, .inr ⟨hlow, hneg, hdvd⟩⟩
        · exact .inr ⟨hlength, .inl ⟨hpos, hhigh⟩⟩
    · rintro (hfits | ⟨hlength, ⟨hpos, hhigh⟩ | ⟨hlow, hneg, hdvd⟩⟩)
      · exact absurd hfits hshort
      · have hno := hints.2 ⟨hlength, by omega, hhigh⟩
        exact ⟨hno, fun _ => by omega, (hvalue (by omega) hno).2 (.inl hpos)⟩
      · have hno := hints.2 ⟨hlength, hlow, by omega⟩
        exact ⟨hno, fun _ => by omega, (hvalue (by omega) hno).2 (.inr hdvd)⟩

/-- A text with a rate of 0 is accepted, and a packet of 40 octets is divided by it. -/
theorem delayExact_rateZero :
    ∃ rsIn rsOut rule, filterParseRuleset ⟨fun _ => none, fun _ => 0⟩ "pass in rate 0".toList =
        .ok (rsIn, rsOut) ∧
      rule ∈ rsIn ∧ rule.verdict.action = SW_FILTER_ACTION_PASS ||| SW_FILTER_ACTION_SHAPE ∧
      ¬ DelayExact 40 rule.verdict.shapeRate := by
  have hparse : filterParseRuleset ⟨fun _ => none, fun _ => 0⟩ "pass in rate 0".toList =
      .ok ([FilterParser.newRule 9 0], []) := by
    decide +kernel
  refine ⟨_, _, FilterParser.newRule 9 0, hparse, List.mem_singleton_self _, rfl, ?_⟩
  intro h
  exact h.no_zero_division le_rfl rfl

end Sweetspot
