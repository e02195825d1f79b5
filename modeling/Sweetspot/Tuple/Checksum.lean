import Sweetspot.Lib.Octets
import Mathlib.Data.List.Induction

/-!
# The incremental checksum

`sw_tuple_checksum_decrement` takes octets out of a checksum, `sw_tuple_checksum_increment` puts
octets in.  Both work on one accumulator with a borrow and a carry rule of their own, so which of
the two zeros of one's-complement arithmetic comes out depends on the octets.

* `checksumDecrement_spec`, `checksumIncrement_spec`: modulo 65535 the one subtracts and the other
  adds, and the flag at either end complements.  Nothing else about them is needed.
-/

namespace Sweetspot

open Octets

/-- The loop of `sw_tuple_checksum_decrement`, the accumulator an `int32_t`. -/
def decrementLoop : ℤ → List UInt8 → ℤ
  | x, b :: b' :: packet =>
    let y := x - (b.toNat * 256 + b'.toNat : ℕ)
    decrementLoop (if y ≤ 0 then (y - 1) % 65536 else y) packet
  | x, _ => x

/-- `sw_tuple_checksum_decrement`; `none` is the `-1` of an odd length. -/
def checksumDecrement (csum : UInt16) (initialFlag : Bool) (packet : List UInt8) :
    Option UInt16 :=
  if packet.length % 2 ≠ 0 then none
  else
    let x : ℤ := if initialFlag then 65535 - csum.toNat else csum.toNat
    some (UInt16.ofNat (decrementLoop x packet).toNat)

/-- The loop of `sw_tuple_checksum_increment`. -/
def incrementLoop : ℤ → List UInt8 → ℤ
  | x, b :: b' :: packet =>
    let y := x + (b.toNat * 256 + b'.toNat : ℕ)
    -- the bit 0x10000
    incrementLoop (if y / 65536 % 2 ≠ 0 then (y + 1) % 65536 else y) packet
  | x, _ => x

/-- `sw_tuple_checksum_increment`; `none` is the `-1` of an odd length. -/
def checksumIncrement (partialCsum : UInt16) (finalFlag : Bool) (packet : List UInt8) :
    Option UInt16 :=
  if packet.length % 2 ≠ 0 then none
  else
    let x := incrementLoop partialCsum.toNat packet
    some (UInt16.ofNat (if finalFlag then 65535 - x else x).toNat)

/-! ## What they compute modulo 65535 -/

/-- The borrow and the carry keep the accumulator in 16 bits and its residue. -/
theorem borrow_spec {x : ℤ} {w : ℕ} (hx : 0 ≤ x ∧ x ≤ 65535) (hw : w ≤ 65535) :
    let y := x - w
    let x' := if y ≤ 0 then (y - 1) % 65536 else y
    (0 ≤ x' ∧ x' ≤ 65535) ∧ (x' : ZMod 65535) = x - w := by
  intro y x'
  by_cases hy : y ≤ 0
  · have hx' : x' = y - 1 + 65536 := by
      show (if y ≤ 0 then (y - 1) % 65536 else y) = _
      rw [if_pos hy]
      omega
    refine ⟨by omega, ?_⟩
    rw [hx', show y - 1 + 65536 = x - w + 65535 by omega]
    push_cast
    rw [show (65535 : ZMod 65535) = 0 by decide, add_zero]
  · have hx' : x' = y := if_neg hy
    refine ⟨by omega, ?_⟩
    rw [hx', Int.cast_sub, Int.cast_natCast]

theorem carry_spec {x : ℤ} {w : ℕ} (hx : 0 ≤ x ∧ x ≤ 65535) (hw : w ≤ 65535) :
    let y := x + w
    let x' := if y / 65536 % 2 ≠ 0 then (y + 1) % 65536 else y
    (0 ≤ x' ∧ x' ≤ 65535) ∧ (x' : ZMod 65535) = x + w := by
  intro y x'
  by_cases hy : y / 65536 % 2 ≠ 0
  · have hx' : x' = y + 1 - 65536 := by
      show (if y / 65536 % 2 ≠ 0 then (y + 1) % 65536 else y) = _
      rw [if_pos hy]
      omega
    refine ⟨by omega, ?_⟩
    rw [hx', show y + 1 - 65536 = x + w - 65535 by omega]
    push_cast
    rw [show (65535 : ZMod 65535) = 0 by decide, sub_zero]
  · have hx' : x' = y := if_neg hy
    refine ⟨by omega, ?_⟩
    rw [hx', Int.cast_add, Int.cast_natCast]

theorem word_le (b b' : UInt8) : b.toNat * 256 + b'.toNat ≤ 65535 := by
  have h₁ := b.toNat_lt
  have h₂ := b'.toNat_lt
  omega

/-- A word at the front of an octet string. -/
theorem onesSum_cons_cons (b b' : UInt8) (bs : List UInt8) :
    onesSum (b :: b' :: bs) = (b.toNat * 256 + b'.toNat : ℕ) + onesSum bs := by
  rw [← wordSum_cast, ← wordSum_cast]
  simp only [wordSum, Nat.cast_add]

theorem decrementLoop_spec (x : ℤ) (packet : List UInt8) (hx : 0 ≤ x ∧ x ≤ 65535)
    (heven : packet.length % 2 = 0) :
    (0 ≤ decrementLoop x packet ∧ decrementLoop x packet ≤ 65535) ∧
      (decrementLoop x packet : ZMod 65535) = x - onesSum packet := by
  induction packet using List.twoStepInduction generalizing x with
  | nil => exact ⟨hx, by simp [decrementLoop, onesSum]⟩
  | singleton b => simp at heven
  | cons_cons b b' bs ih _ =>
    obtain ⟨hrange, hcast⟩ := borrow_spec hx (word_le b b')
    obtain ⟨hrange', hcast'⟩ := ih _ hrange (by simp only [List.length_cons] at heven; omega)
    refine ⟨hrange', ?_⟩
    rw [decrementLoop, hcast', hcast, onesSum_cons_cons]
    ring

theorem incrementLoop_spec (x : ℤ) (packet : List UInt8) (hx : 0 ≤ x ∧ x ≤ 65535)
    (heven : packet.length % 2 = 0) :
    (0 ≤ incrementLoop x packet ∧ incrementLoop x packet ≤ 65535) ∧
      (incrementLoop x packet : ZMod 65535) = x + onesSum packet := by
  induction packet using List.twoStepInduction generalizing x with
  | nil => exact ⟨hx, by simp [incrementLoop, onesSum]⟩
  | singleton b => simp at heven
  | cons_cons b b' bs ih _ =>
    obtain ⟨hrange, hcast⟩ := carry_spec hx (word_le b b')
    obtain ⟨hrange', hcast'⟩ := ih _ hrange (by simp only [List.length_cons] at heven; omega)
    refine ⟨hrange', ?_⟩
    rw [incrementLoop, hcast', hcast, onesSum_cons_cons]
    ring

/-- A 16-bit accumulator stored and read back. -/
theorem ofNat_toNat_cast {x : ℤ} (hx : 0 ≤ x ∧ x ≤ 65535) :
    (((UInt16.ofNat x.toNat).toNat : ℕ) : ZMod 65535) = x := by
  rw [UInt16.toNat_ofNat', Nat.mod_eq_of_lt (by omega)]
  obtain ⟨n, rfl⟩ := Int.eq_ofNat_of_zero_le hx.1
  simp

theorem complement_cast (x : ℤ) : ((65535 - x : ℤ) : ZMod 65535) = -x := by
  push_cast
  rw [show (65535 : ZMod 65535) = 0 by decide, zero_sub]

/-- **Taking octets out subtracts their sum**, from the complement if the flag says so. -/
theorem checksumDecrement_spec (csum : UInt16) (initialFlag : Bool) {packet : List UInt8}
    (heven : packet.length % 2 = 0) :
    ∃ v, checksumDecrement csum initialFlag packet = some v ∧
      (v.toNat : ZMod 65535) =
        (if initialFlag then -(csum.toNat : ZMod 65535) else csum.toNat) - onesSum packet := by
  have hcsum := csum.toNat_lt
  refine ⟨_, by rw [checksumDecrement, if_neg (by omega)], ?_⟩
  cases initialFlag with
  | true =>
    obtain ⟨hrange, hcast⟩ := decrementLoop_spec (65535 - csum.toNat) packet (by omega) heven
    simp only [if_true]
    rw [ofNat_toNat_cast hrange, hcast, complement_cast, Int.cast_natCast]
  | false =>
    obtain ⟨hrange, hcast⟩ := decrementLoop_spec csum.toNat packet (by omega) heven
    simp only [Bool.false_eq_true, if_false]
    rw [ofNat_toNat_cast hrange, hcast, Int.cast_natCast]

/-- **Putting octets in adds their sum**, and complements if the flag says so. -/
theorem checksumIncrement_spec (partialCsum : UInt16) (finalFlag : Bool) {packet : List UInt8}
    (heven : packet.length % 2 = 0) :
    ∃ v, checksumIncrement partialCsum finalFlag packet = some v ∧
      (v.toNat : ZMod 65535) =
        if finalFlag then -((partialCsum.toNat : ZMod 65535) + onesSum packet)
        else partialCsum.toNat + onesSum packet := by
  have hcsum := partialCsum.toNat_lt
  obtain ⟨hrange, hcast⟩ := incrementLoop_spec partialCsum.toNat packet (by omega) heven
  refine ⟨_, by rw [checksumIncrement, if_neg (by omega)], ?_⟩
  cases finalFlag with
  | true =>
    simp only [if_true]
    rw [ofNat_toNat_cast (by omega), complement_cast, hcast, Int.cast_natCast]
  | false =>
    simp only [Bool.false_eq_true, if_false]
    rw [ofNat_toNat_cast hrange, hcast, Int.cast_natCast]

end Sweetspot
