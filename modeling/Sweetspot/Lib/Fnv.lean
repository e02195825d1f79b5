import Mathlib.Data.List.Basic
import Mathlib.Logic.Function.Basic
import Mathlib.Tactic.Common

/-!
# FNV-1a of 32 bits

The hash takes the octets one by one: each is xored into the running value, which is then
multiplied by the FNV prime.  The prime is odd, so a round loses nothing of the value it started
from and nothing of the octet it takes.

* `fnvOctet_eq_mul`: the shifts and additions of a round are the multiplication by the prime.
* `fnv32aBuf_injective`: over the same octets two different seeds give two different hashes.
* `fnv32aBuf_octet_ne`: changing one octet always changes the hash.
-/

namespace Fnv

def FNV_32_PRIME : UInt32 := 0x01000193

/-- `FNV1_32A_INIT`, the seed of the first call. -/
def FNV1_32A_INIT : UInt32 := 0x811c9dc5

/-- One round of `fnv_32a_buf`: the octet is xored in, and the product is formed by shifts. -/
def fnvOctet (hval : UInt32) (octet : UInt8) : UInt32 :=
  let h := hval ^^^ octet.toUInt32
  h + ((h <<< 1) + (h <<< 4) + (h <<< 7) + (h <<< 8) + (h <<< 24))

/-- `fnv_32a_buf`. -/
def fnv32aBuf (buf : List UInt8) (hval : UInt32) : UInt32 := buf.foldl fnvOctet hval

@[simp] theorem fnv32aBuf_nil (hval : UInt32) : fnv32aBuf [] hval = hval := List.foldl_nil

@[simp] theorem fnv32aBuf_cons (octet : UInt8) (buf : List UInt8) (hval : UInt32) :
    fnv32aBuf (octet :: buf) hval = fnv32aBuf buf (fnvOctet hval octet) := List.foldl_cons ..

/-! ## A round -/

theorem fnvOctet_eq_mul (hval : UInt32) (octet : UInt8) :
    fnvOctet hval octet = (hval ^^^ octet.toUInt32) * FNV_32_PRIME := by
  rw [fnvOctet, FNV_32_PRIME]
  generalize hval ^^^ octet.toUInt32 = h
  rw [← UInt32.toNat_inj]
  simp only [UInt32.toNat_add, UInt32.toNat_mul, UInt32.toNat_shiftLeft, UInt32.reduceToNat,
    Nat.reduceMod, Nat.shiftLeft_eq]
  omega

/-- What undoes the multiplication by the prime. -/
theorem FNV_32_PRIME_mul_inverse : FNV_32_PRIME * 0x359c449b = 1 := by decide

theorem mul_FNV_32_PRIME_injective : Function.Injective fun h : UInt32 => h * FNV_32_PRIME := by
  intro a b hab
  have hmul : a * FNV_32_PRIME * 0x359c449b = b * FNV_32_PRIME * 0x359c449b := by
    simp only at hab
    rw [hab]
  rwa [UInt32.mul_assoc, UInt32.mul_assoc, FNV_32_PRIME_mul_inverse, UInt32.mul_one,
    UInt32.mul_one] at hmul

theorem eq_of_fnvOctet_eq {a b : UInt32} {octet : UInt8}
    (h : fnvOctet a octet = fnvOctet b octet) : a = b := by
  rw [fnvOctet_eq_mul, fnvOctet_eq_mul] at h
  have hxor : a ^^^ octet.toUInt32 = b ^^^ octet.toUInt32 := mul_FNV_32_PRIME_injective h
  have hcancel := congrArg (fun z => z ^^^ octet.toUInt32) hxor
  simpa only [UInt32.xor_assoc, UInt32.xor_self, UInt32.xor_zero] using hcancel

theorem octet_eq_of_fnvOctet_eq {hval : UInt32} {x y : UInt8}
    (h : fnvOctet hval x = fnvOctet hval y) : x = y := by
  rw [fnvOctet_eq_mul, fnvOctet_eq_mul] at h
  have hxor : hval ^^^ x.toUInt32 = hval ^^^ y.toUInt32 := mul_FNV_32_PRIME_injective h
  have hcancel := congrArg (fun z => hval ^^^ z) hxor
  simp only [← UInt32.xor_assoc, UInt32.xor_self, UInt32.zero_xor] at hcancel
  exact UInt8.toUInt32_inj.mp hcancel

/-! ## A buffer -/

/-- **Over the same octets different seeds give different hashes.** -/
theorem fnv32aBuf_injective (buf : List UInt8) : Function.Injective (fnv32aBuf buf) := by
  induction buf with
  | nil => exact Function.injective_id
  | cons octet buf ih =>
    intro a b hab
    rw [fnv32aBuf_cons, fnv32aBuf_cons] at hab
    exact eq_of_fnvOctet_eq (ih hab)

theorem fnv32aBuf_append (pre post : List UInt8) (hval : UInt32) :
    fnv32aBuf (pre ++ post) hval = fnv32aBuf post (fnv32aBuf pre hval) := List.foldl_append

/-- **Changing one octet always changes the hash.** -/
theorem fnv32aBuf_octet_ne {x y : UInt8} (hxy : x ≠ y) (pre post : List UInt8) (hval : UInt32) :
    fnv32aBuf (pre ++ x :: post) hval ≠ fnv32aBuf (pre ++ y :: post) hval := by
  rw [fnv32aBuf_append, fnv32aBuf_append, fnv32aBuf_cons, fnv32aBuf_cons]
  intro h
  exact hxy (octet_eq_of_fnvOctet_eq (fnv32aBuf_injective post h))

end Fnv
