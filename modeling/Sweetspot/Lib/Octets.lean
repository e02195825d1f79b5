import Mathlib.Data.ZMod.Basic
import Mathlib.Tactic.LinearCombination
import Mathlib.Tactic.Ring

/-!
# Octet strings and their one's-complement sum

Fields of 8, 16 and 32 bits read from and written to a list of octets in network order, and the
sum the Internet checksum is made of: the 16-bit words of a stretch of octets, added modulo 65535.

* `get8_put16`, `get16_put16_self`, `get32_put32_self`: what is written is read back, and nothing
  else moves.
* `onesSum`: the sum.  Since `256 * 256` is `1` modulo 65535 it is a polynomial in `256`, whatever
  the parity of the length (`wordSum_cast` relates it to the words).
* `stretchSum_put16`, `stretchSum_put32`: writing a field adds what is new and takes away what was
  there; `stretchSum_put16_of_disjoint`: a field outside a stretch does not matter to it.
-/

namespace Octets

/-! ## Fields -/

def get8 (p : List UInt8) (i : ℕ) : UInt8 := p.getD i 0

def get16 (p : List UInt8) (i : ℕ) : UInt16 :=
  UInt16.ofNat ((get8 p i).toNat * 256 + (get8 p (i + 1)).toNat)

def get32 (p : List UInt8) (i : ℕ) : UInt32 :=
  UInt32.ofNat ((get16 p i).toNat * 65536 + (get16 p (i + 2)).toNat)

def put16 (p : List UInt8) (i : ℕ) (v : UInt16) : List UInt8 :=
  (p.set i (UInt8.ofNat (v.toNat / 256))).set (i + 1) (UInt8.ofNat (v.toNat % 256))

def put32 (p : List UInt8) (i : ℕ) (v : UInt32) : List UInt8 :=
  put16 (put16 p i (UInt16.ofNat (v.toNat / 65536))) (i + 2) (UInt16.ofNat (v.toNat % 65536))

/-- The octets of a 32-bit field. -/
def octets32 (v : UInt32) : List UInt8 := put32 [0, 0, 0, 0] 0 v

@[simp] theorem length_put16 (p : List UInt8) (i : ℕ) (v : UInt16) :
    (put16 p i v).length = p.length := by
  simp [put16]

@[simp] theorem length_put32 (p : List UInt8) (i : ℕ) (v : UInt32) :
    (put32 p i v).length = p.length := by
  simp [put32]

theorem get16_toNat (p : List UInt8) (i : ℕ) :
    (get16 p i).toNat = (get8 p i).toNat * 256 + (get8 p (i + 1)).toNat := by
  have h₁ := (get8 p i).toNat_lt
  have h₂ := (get8 p (i + 1)).toNat_lt
  rw [get16, UInt16.toNat_ofNat']
  omega

theorem get32_toNat (p : List UInt8) (i : ℕ) :
    (get32 p i).toNat = (get16 p i).toNat * 65536 + (get16 p (i + 2)).toNat := by
  have h₁ := (get16 p i).toNat_lt
  have h₂ := (get16 p (i + 2)).toNat_lt
  rw [get32, UInt32.toNat_ofNat']
  omega

/-! ## Writing and reading back -/

theorem get8_set {p : List UInt8} {i : ℕ} (h : i < p.length) (v : UInt8) (j : ℕ) :
    get8 (p.set i v) j = if j = i then v else get8 p j := by
  unfold get8
  rw [List.getD_eq_getElem?_getD, List.getElem?_set]
  by_cases hij : i = j
  · subst hij
    simp [h]
  · simp [hij, Ne.symm hij]

theorem get8_put16 {p : List UInt8} {i : ℕ} (h : i + 2 ≤ p.length) (v : UInt16) (j : ℕ) :
    get8 (put16 p i v) j =
      if j = i + 1 then UInt8.ofNat (v.toNat % 256)
      else if j = i then UInt8.ofNat (v.toNat / 256) else get8 p j := by
  rw [put16, get8_set (by rw [List.length_set]; omega), get8_set (by omega)]

/-- Nothing but the field moves. -/
theorem get8_put16_of_ne {p : List UInt8} {i j : ℕ} (h : i + 2 ≤ p.length) (v : UInt16)
    (hj : j < i ∨ i + 2 ≤ j) : get8 (put16 p i v) j = get8 p j := by
  rw [get8_put16 h, if_neg (by omega), if_neg (by omega)]

theorem get16_put16_self {p : List UInt8} {i : ℕ} (h : i + 2 ≤ p.length) (v : UInt16) :
    get16 (put16 p i v) i = v := by
  have hv := v.toNat_lt
  rw [← UInt16.toNat_inj, get16_toNat, get8_put16 h, get8_put16 h, if_neg (by omega), if_pos rfl,
    if_pos rfl, UInt8.toNat_ofNat', UInt8.toNat_ofNat']
  omega

theorem get16_put16_of_ne {p : List UInt8} {i j : ℕ} (h : i + 2 ≤ p.length) (v : UInt16)
    (hj : j + 2 ≤ i ∨ i + 2 ≤ j) : get16 (put16 p i v) j = get16 p j := by
  rw [get16, get16, get8_put16_of_ne h v (by omega), get8_put16_of_ne h v (by omega)]

theorem get8_put32_of_ne {p : List UInt8} {i j : ℕ} (h : i + 4 ≤ p.length) (v : UInt32)
    (hj : j < i ∨ i + 4 ≤ j) : get8 (put32 p i v) j = get8 p j := by
  rw [put32, get8_put16_of_ne (by rw [length_put16]; omega) _ (by omega),
    get8_put16_of_ne (by omega) _ (by omega)]

theorem get16_put32_of_ne {p : List UInt8} {i j : ℕ} (h : i + 4 ≤ p.length) (v : UInt32)
    (hj : j + 2 ≤ i ∨ i + 4 ≤ j) : get16 (put32 p i v) j = get16 p j := by
  rw [get16, get16, get8_put32_of_ne h v (by omega), get8_put32_of_ne h v (by omega)]

theorem get32_put32_self {p : List UInt8} {i : ℕ} (h : i + 4 ≤ p.length) (v : UInt32) :
    get32 (put32 p i v) i = v := by
  have hv := v.toNat_lt
  rw [← UInt32.toNat_inj, get32_toNat, put32, get16_put16_self (by rw [length_put16]; omega),
    get16_put16_of_ne (by rw [length_put16]; omega) _ (by omega), get16_put16_self (by omega),
    UInt16.toNat_ofNat', UInt16.toNat_ofNat']
  omega

theorem get32_put16_of_ne {p : List UInt8} {i j : ℕ} (h : i + 2 ≤ p.length) (v : UInt16)
    (hj : j + 4 ≤ i ∨ i + 2 ≤ j) : get32 (put16 p i v) j = get32 p j := by
  rw [get32, get32, get16_put16_of_ne h v (by omega), get16_put16_of_ne h v (by omega)]

theorem get32_put32_of_ne {p : List UInt8} {i j : ℕ} (h : i + 4 ≤ p.length) (v : UInt32)
    (hj : j + 4 ≤ i ∨ i + 4 ≤ j) : get32 (put32 p i v) j = get32 p j := by
  rw [get32, get32, get16_put32_of_ne h v (by omega), get16_put32_of_ne h v (by omega)]

/-- Strings of one length with the same octets are the same. -/
theorem eq_of_get8_eq {p q : List UInt8} (hlength : p.length = q.length)
    (h : ∀ i, get8 p i = get8 q i) : p = q := by
  refine List.ext_getElem hlength fun i hp hq => ?_
  simpa [get8, hp, hq] using h i

/-- A field that is written back as it was. -/
theorem put16_get16 {p : List UInt8} {i : ℕ} (h : i + 2 ≤ p.length) :
    put16 p i (get16 p i) = p := by
  refine eq_of_get8_eq (length_put16 _ _ _) fun j => ?_
  have hlow := (get8 p (i + 1)).toNat_lt
  rw [get8_put16 h]
  split_ifs with hsecond hfirst
  · rw [hsecond, ← UInt8.toNat_inj, UInt8.toNat_ofNat', get16_toNat]
    omega
  · have hhigh := (get8 p i).toNat_lt
    rw [hfirst, ← UInt8.toNat_inj, UInt8.toNat_ofNat', get16_toNat]
    omega
  · rfl

/-! ## Strings that agree -/

/-- The `n` octets from `off` on are the same in both. -/
def SameOctets (p q : List UInt8) (off n : ℕ) : Prop := ∀ k < n, get8 p (off + k) = get8 q (off + k)

namespace SameOctets

variable {p q : List UInt8} {off n k : ℕ}

theorem refl (p : List UInt8) (off n : ℕ) : SameOctets p p off n := fun _ _ => rfl

theorem get16 (h : SameOctets p q off n) (hk : k + 2 ≤ n) :
    get16 p (off + k) = get16 q (off + k) := by
  rw [Octets.get16, Octets.get16, h k (by omega), Nat.add_assoc, h (k + 1) (by omega)]

theorem get32 (h : SameOctets p q off n) (hk : k + 4 ≤ n) :
    get32 p (off + k) = get32 q (off + k) := by
  rw [Octets.get32, Octets.get32, h.get16 (by omega), Nat.add_assoc, h.get16 (by omega)]

end SameOctets

/-! ## Octets behind a string -/

theorem get8_append {p : List UInt8} {i : ℕ} (h : i < p.length) (r : List UInt8) :
    get8 (p ++ r) i = get8 p i := by
  rw [get8, get8, List.getD_eq_getElem?_getD, List.getD_eq_getElem?_getD,
    List.getElem?_append_left h]

/-- An octet that two strings have in common is there in both, whatever is behind them. -/
theorem get8_append_eq_of_getElem? {p q : List UInt8} {i : ℕ} (h : i < p.length)
    (heq : p[i]? = q[i]?) (r r' : List UInt8) : get8 (p ++ r) i = get8 (q ++ r') i := by
  have hq : i < q.length := by
    rw [List.getElem?_eq_getElem h] at heq
    exact (List.getElem?_eq_some_iff.1 heq.symm).1
  rw [get8_append h, get8_append hq, get8, get8, List.getD_eq_getElem?_getD, heq,
    List.getD_eq_getElem?_getD]

theorem get8_append_replicate {p : List UInt8} {i n : ℕ} (hle : p.length ≤ i)
    (hlt : i < p.length + n) (v : UInt8) : get8 (p ++ List.replicate n v) i = v := by
  rw [get8, List.getD_eq_getElem?_getD, List.getElem?_append_right hle,
    List.getElem?_replicate_of_lt (by omega), Option.getD_some]

/-- What a string has is not changed by what is behind it. -/
theorem sameOctets_append {p : List UInt8} {off n : ℕ} (h : off + n ≤ p.length)
    (r r' : List UInt8) : SameOctets (p ++ r) (p ++ r') off n := fun k hk => by
  rw [get8_append (by omega), get8_append (by omega)]

/-- The beginning of a string. -/
theorem sameOctets_take (p : List UInt8) (n : ℕ) : SameOctets (p.take n) p 0 n := fun k hk => by
  rw [get8, get8, List.getD_eq_getElem?_getD, List.getD_eq_getElem?_getD, List.getElem?_take,
    if_pos (by omega)]

/-- Fields with different octets are different. -/
theorem get16_ne_of_get8_ne {p q : List UInt8} {i : ℕ} (h : get8 p (i + 1) ≠ get8 q (i + 1)) :
    get16 p i ≠ get16 q i := by
  intro heq
  have hp := (get8 p (i + 1)).toNat_lt
  have hq := (get8 q (i + 1)).toNat_lt
  refine h (UInt8.toNat_inj.mp ?_)
  rw [← UInt16.toNat_inj, get16_toNat, get16_toNat] at heq
  omega

/-! ## The one's-complement sum -/

/-- The 16-bit words of an octet string added up, an odd octet at the end standing for the high half
of a word. -/
def wordSum : List UInt8 → ℕ
  | [] => 0
  | [b] => b.toNat * 256
  | b :: b' :: bs => b.toNat * 256 + b'.toNat + wordSum bs

/-- The same sum modulo 65535, octet by octet. -/
def onesSum : List UInt8 → ZMod 65535
  | [] => 0
  | b :: bs => 256 * b.toNat + 256 * onesSum bs

theorem two_hundred_fifty_six_sq : (256 : ZMod 65535) * 256 = 1 := by decide

theorem wordSum_cast (bs : List UInt8) : (wordSum bs : ZMod 65535) = onesSum bs := by
  induction bs using wordSum.induct with
  | case1 => simp [wordSum, onesSum]
  | case2 b =>
    simp only [wordSum, onesSum, Nat.cast_mul]
    push_cast
    ring
  | case3 b b' bs ih =>
    simp only [wordSum, onesSum, Nat.cast_add, Nat.cast_mul, ih]
    push_cast
    linear_combination (-(b'.toNat : ZMod 65535) - onesSum bs) * two_hundred_fifty_six_sq

/-- Equal sums modulo 65535, said of the words. -/
theorem wordSum_modEq_iff (bs cs : List UInt8) :
    wordSum bs ≡ wordSum cs [MOD 65535] ↔ onesSum bs = onesSum cs := by
  rw [← wordSum_cast, ← wordSum_cast, ZMod.natCast_eq_natCast_iff]

theorem onesSum_set {bs : List UInt8} {i : ℕ} (h : i < bs.length) (v : UInt8) :
    onesSum (bs.set i v) =
      onesSum bs + 256 ^ (i + 1) * ((v.toNat : ZMod 65535) - (get8 bs i).toNat) := by
  induction bs generalizing i with
  | nil => simp at h
  | cons b bs ih =>
    cases i with
    | zero =>
      simp only [List.set_cons_zero, onesSum, get8, List.getD_cons_zero]
      ring
    | succ i =>
      simp only [List.set_cons_succ, onesSum, get8, List.getD_cons_succ]
      rw [ih (by simpa using h)]
      simp only [get8]
      ring

/-- `n` octets from position `off`. -/
def stretch (p : List UInt8) (off n : ℕ) : List UInt8 := (p.drop off).take n

theorem length_stretch {p : List UInt8} {off n : ℕ} (h : off + n ≤ p.length) :
    (stretch p off n).length = n := by
  rw [stretch, List.length_take, List.length_drop]
  omega

theorem get8_stretch {p : List UInt8} {off n i : ℕ} (h : i < n) :
    get8 (stretch p off n) i = get8 p (off + i) := by
  simp only [get8, stretch, List.getD_eq_getElem?_getD, List.getElem?_take, List.getElem?_drop,
    if_pos h]

theorem stretch_set_of_disjoint {p : List UInt8} {i off n : ℕ} (h : i < off ∨ off + n ≤ i)
    (v : UInt8) : stretch (p.set i v) off n = stretch p off n := by
  unfold stretch
  rcases h with h | h
  · rw [List.drop_set_of_lt h]
  · rw [List.drop_set, if_neg (by omega), List.take_set_of_le (by omega)]

/-- The sum of a stretch of octets. -/
def stretchSum (p : List UInt8) (off n : ℕ) : ZMod 65535 := onesSum (stretch p off n)

theorem stretchSum_set {p : List UInt8} {i off n : ℕ} (hoff : off ≤ i) (hn : i < off + n)
    (hp : i < p.length) (v : UInt8) :
    stretchSum (p.set i v) off n =
      stretchSum p off n + 256 ^ (i - off + 1) * ((v.toNat : ZMod 65535) - (get8 p i).toNat) := by
  have hset : stretch (p.set i v) off n = (stretch p off n).set (i - off) v := by
    rw [stretch, List.drop_set, if_neg (by omega), List.take_set, stretch]
  have hlen : i - off < (stretch p off n).length := by
    rw [stretch, List.length_take, List.length_drop]
    omega
  rw [stretchSum, hset, onesSum_set hlen, get8_stretch (by omega), stretchSum]
  simp only [Nat.add_sub_cancel' hoff]

/-- `256` to an even power is `1`. -/
theorem pow_even {n : ℕ} (h : n % 2 = 0) : (256 : ZMod 65535) ^ n = 1 := by
  obtain ⟨m, rfl⟩ : ∃ m, n = 2 * m := ⟨n / 2, by omega⟩
  rw [pow_mul, pow_two, two_hundred_fifty_six_sq, one_pow]

/-- A field outside the stretch does not matter to its sum. -/
theorem stretchSum_put16_of_disjoint {p : List UInt8} {i off n : ℕ}
    (h : i + 2 ≤ off ∨ off + n ≤ i) (v : UInt16) :
    stretchSum (put16 p i v) off n = stretchSum p off n := by
  unfold stretchSum put16
  rw [stretch_set_of_disjoint (by omega), stretch_set_of_disjoint (by omega)]

theorem stretchSum_put32_of_disjoint {p : List UInt8} {i off n : ℕ}
    (h : i + 4 ≤ off ∨ off + n ≤ i) (v : UInt32) :
    stretchSum (put32 p i v) off n = stretchSum p off n := by
  unfold put32
  rw [stretchSum_put16_of_disjoint (by omega), stretchSum_put16_of_disjoint (by omega)]

/-- **Writing a field on a word boundary of the stretch** adds what is new and takes away what was
there. -/
theorem stretchSum_put16 {p : List UInt8} {i off n : ℕ} (hoff : off ≤ i) (heven : (i - off) % 2 = 0)
    (hn : i + 2 ≤ off + n) (hp : i + 2 ≤ p.length) (v : UInt16) :
    stretchSum (put16 p i v) off n = stretchSum p off n + (v.toNat - (get16 p i).toNat) := by
  have hv := v.toNat_lt
  have hsplit : v.toNat = v.toNat / 256 * 256 + v.toNat % 256 := by omega
  have hpow : (256 : ZMod 65535) ^ (i - off) = 1 := pow_even heven
  have hpow' : (256 : ZMod 65535) ^ (i + 1 - off) = 256 := by
    rw [Nat.sub_add_comm hoff, pow_succ, hpow, one_mul]
  rw [put16, stretchSum_set (by omega) (by omega) (by rw [List.length_set]; omega),
    stretchSum_set hoff (by omega) (by omega), get8_set (by omega), if_neg (by omega),
    get16_toNat, pow_succ, pow_succ, hpow, hpow', UInt8.toNat_ofNat', UInt8.toNat_ofNat',
    Nat.mod_eq_of_lt (by omega), Nat.mod_eq_of_lt (by omega)]
  conv_rhs => rw [hsplit]
  push_cast
  linear_combination ((v.toNat % 256 : ℕ) - ((get8 p (i + 1)).toNat : ZMod 65535)) *
    two_hundred_fifty_six_sq

theorem stretchSum_put32 {p : List UInt8} {i off n : ℕ} (hoff : off ≤ i) (heven : (i - off) % 2 = 0)
    (hn : i + 4 ≤ off + n) (hp : i + 4 ≤ p.length) (v : UInt32) :
    stretchSum (put32 p i v) off n = stretchSum p off n + (v.toNat - (get32 p i).toNat) := by
  have hv := v.toNat_lt
  have hsplit : v.toNat = v.toNat / 65536 * 65536 + v.toNat % 65536 := by omega
  have hwrap : (65536 : ZMod 65535) = 1 := by decide
  rw [put32, stretchSum_put16 (by omega) (by omega) (by omega) (by rw [length_put16]; omega),
    stretchSum_put16 hoff heven (by omega) (by omega), get16_put16_of_ne (by omega) _ (by omega),
    get32_toNat, UInt16.toNat_ofNat', UInt16.toNat_ofNat', Nat.mod_eq_of_lt (by omega),
    Nat.mod_eq_of_lt (by omega)]
  conv_rhs => rw [hsplit]
  push_cast
  linear_combination (((get16 p i).toNat : ZMod 65535) - (v.toNat / 65536 : ℕ)) * hwrap

theorem onesSum_octets32 (v : UInt32) : onesSum (octets32 v) = v.toNat := by
  have h := @stretchSum_put32 [0, 0, 0, 0] 0 0 4 le_rfl rfl le_rfl le_rfl v
  have hzero : stretchSum [0, 0, 0, 0] 0 4 = 0 := by decide
  have hget : ((get32 [0, 0, 0, 0] 0).toNat : ZMod 65535) = 0 := by decide
  rw [hzero, hget, zero_add, sub_zero, stretchSum, stretch, List.drop_zero,
    List.take_of_length_le (by simp)] at h
  exact h

theorem onesSum_append {bs cs : List UInt8} (h : bs.length % 2 = 0) :
    onesSum (bs ++ cs) = onesSum bs + onesSum cs := by
  have hgen : ∀ bs : List UInt8,
      onesSum (bs ++ cs) = onesSum bs + 256 ^ bs.length * onesSum cs := by
    intro bs
    induction bs with
    | nil => simp [onesSum]
    | cons b bs ih =>
      simp only [List.cons_append, onesSum, ih, List.length_cons]
      ring
  rw [hgen, pow_even h, one_mul]

theorem stretch_succ {p : List UInt8} {off : ℕ} (h : off < p.length) (n : ℕ) :
    stretch p off (n + 1) = get8 p off :: stretch p (off + 1) n := by
  have hget : get8 p off = p[off] := by
    simp [get8, h]
  rw [stretch, List.drop_eq_getElem_cons h, List.take_succ_cons, stretch, hget]

theorem stretch_add (p : List UInt8) (off m n : ℕ) :
    stretch p off (m + n) = stretch p off m ++ stretch p (off + m) n := by
  rw [stretch, List.take_add, List.drop_drop, stretch, stretch]

/-- The sum of a field is the field. -/
theorem stretchSum_get16 {p : List UInt8} {off : ℕ} (h : off + 2 ≤ p.length) :
    stretchSum p off 2 = (get16 p off).toNat := by
  have hs : stretch p off 2 = [get8 p off, get8 p (off + 1)] := by
    rw [stretch_succ (by omega), stretch_succ (by omega), stretch, List.take_zero]
  rw [stretchSum, hs, ← wordSum_cast, get16_toNat, wordSum, wordSum, Nat.add_zero]

theorem stretchSum_add {p : List UInt8} {off m : ℕ} (h : off + m ≤ p.length) (hm : m % 2 = 0)
    (n : ℕ) : stretchSum p off (m + n) = stretchSum p off m + stretchSum p (off + m) n := by
  rw [stretchSum, stretch_add, onesSum_append (by rw [length_stretch h]; exact hm), stretchSum,
    stretchSum]

theorem stretchSum_get32 {p : List UInt8} {off : ℕ} (h : off + 4 ≤ p.length) :
    stretchSum p off 4 = (get32 p off).toNat := by
  have hwrap : (65536 : ZMod 65535) = 1 := by decide
  rw [@stretchSum_add p off 2 (by omega) rfl 2, stretchSum_get16 (by omega),
    stretchSum_get16 (by omega), get32_toNat]
  push_cast
  rw [hwrap, mul_one]

end Octets
