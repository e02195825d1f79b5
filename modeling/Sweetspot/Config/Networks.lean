import Sweetspot.Filter.Conditions
import Sweetspot.Lib.CText
import Sweetspot.Snat.Netset

/-!
# Networks in the configuration

A setting names networks by an address and a number of bits, with blanks, commas or colons between
them.  The addresses of a network are those from its own on that agree with it on these bits: the
address is not cut down to them first.

* `netsetCreate`: what is made of a setting, on any octets.
* `Cidr`, `Names`: networks, and a setting that names them.
* `netsetCreate_names`: the set that is made of such a setting has the addresses of the networks.
-/

namespace Sweetspot

open CText

/-! ## Making a set -/

/-- The delimiters `" \t:,"`. -/
def isCidrEnd (c : UInt8) : Bool := c = 32 || c = 9 || c = 58 || c = 44

/-- `0xffffffff << (32-n)`.  What a shift by less than 0 or by 32 or more gives is not defined: it
is `wide`. -/
def shiftedOnes (wide : ℤ → UInt32) (n : ℤ) : UInt32 :=
  if 1 ≤ n ∧ n ≤ 32 then 0xffffffff <<< UInt32.ofInt (32 - n) else wide (32 - n)

theorem le_or_right (a b : UInt32) : b ≤ a ||| b := by
  rw [UInt32.le_iff_toNat_le, UInt32.toNat_or]
  exact Nat.right_le_or

/-- The number behind the slash, if there is one. -/
def cidrBits : List UInt8 → ℤ
  | [] => 32
  | _ :: bits => int32 (strtol bits)

/-- The pass of `sw_netset_create` over one network. -/
def cidrRange (wide : ℤ → UInt32) (cidr : List UInt8) : Option IpRange :=
  match inetAton (cidr.takeWhile (· ≠ 47)) with
  | none => none
  | some ip =>
    let ipMin := UInt32.ofNat ip
    let netmask := shiftedOnes wide (cidrBits (cidr.dropWhile (· ≠ 47)))
    if netmask = 0 then none else some ⟨ipMin, ~~~netmask ||| ipMin, le_or_right _ _⟩

/-- The loop of `sw_netset_create`, with the set so far; `false` is `-1`. -/
def netsetLoop (wide : ℤ → UInt32) : Netset → List (List UInt8) → Netset × Bool
  | ns, [] => (ns, true)
  | ns, cidr :: cidrs =>
    match cidrRange wide cidr with
    | none => (ns, false)
    | some r => netsetLoop wide (r :: ns) cidrs

/-- `sw_netset_create`. -/
def netsetCreate (wide : ℤ → UInt32) (cidrs : List UInt8) : Netset × Bool :=
  if cidrs.length ≥ 8192 then ([], false) else netsetLoop wide [] (tokens isCidrEnd cidrs)

/-! ## Networks -/

/-- An address, and on how many bits others are to agree with it; all if nothing is said. -/
structure Cidr where
  ip : UInt32
  bits : Option ℕ
  bounds : ∀ n ∈ bits, 1 ≤ n ∧ n ≤ 32

namespace Cidr

def text (net : Cidr) : List UInt8 :=
  inetNtoa net.ip ++ net.bits.elim [] fun n => 47 :: numeral n

def prefixLength (net : Cidr) : ℕ := net.bits.getD 32

theorem prefixLength_bounds (net : Cidr) : 1 ≤ net.prefixLength ∧ net.prefixLength ≤ 32 := by
  unfold prefixLength
  cases hbits : net.bits with
  | none => decide
  | some n => exact net.bounds n hbits

/-- The addresses of a network. -/
def Contains (net : Cidr) (a : UInt32) : Prop :=
  net.ip ≤ a ∧ a.toNat / 2 ^ (32 - net.prefixLength) = net.ip.toNat / 2 ^ (32 - net.prefixLength)

instance (net : Cidr) (a : UInt32) : Decidable (net.Contains a) := instDecidableAnd

end Cidr

/-- The setting names these networks. -/
def Names (setting : List UInt8) (nets : List Cidr) : Prop :=
  tokens isCidrEnd setting = nets.map Cidr.text

instance (setting : List UInt8) (nets : List Cidr) : Decidable (Names setting nets) :=
  inferInstanceAs (Decidable (_ = _))

/-! ## A network is read back -/

theorem slash_notMem_inetNtoa (ip : UInt32) : 47 ∉ inetNtoa ip := by
  have hnumeral : ∀ n, 47 ∉ numeral n := fun n h => ne_of_mem_numeral h (by rfl) rfl
  simp [inetNtoa, hnumeral]

/-- The last address of a network. -/
theorem toNat_hostBits_or {s : ℕ} (hs : s < 32) (ip : UInt32) :
    (~~~(0xffffffff <<< UInt32.ofNat s) ||| ip).toNat = ip.toNat / 2 ^ s * 2 ^ s + (2 ^ s - 1) := by
  have hshift : (UInt32.ofNat s).toNat % 32 = s := by
    rw [UInt32.toNat_ofNat']
    omega
  have hones : (0xffffffff : UInt32).toNat = 2 ^ 32 - 1 := rfl
  have hlow : 2 ^ s - 1 < 2 ^ s := Nat.sub_lt (Nat.two_pow_pos s) Nat.one_pos
  have hmask : (0xffffffff : UInt32).toNat <<< s % 2 ^ 32 < 2 ^ 32 := Nat.mod_lt _ (by decide)
  rw [UInt32.toNat_or, UInt32.toNat_not, UInt32.toNat_shiftLeft, hshift, Nat.sub_sub,
    Nat.add_comm 1, ← Nat.shiftRight_eq_div_pow, ← Nat.shiftLeft_eq,
    Nat.shiftLeft_add_eq_or_of_lt hlow]
  apply Nat.eq_of_testBit_eq
  intro i
  have hlt : 32 ≤ i → ip.toNat.testBit i = false := fun hi =>
    Nat.testBit_lt_two_pow (lt_of_lt_of_le ip.toNat_lt (Nat.pow_le_pow_right (by decide) hi))
  have hsize : UInt32.size = 2 ^ 32 := rfl
  rw [hsize, Nat.testBit_or, Nat.testBit_or, Nat.testBit_two_pow_sub_succ hmask,
    Nat.testBit_mod_two_pow, hones, Nat.testBit_shiftLeft, Nat.testBit_two_pow_sub_one,
    Nat.testBit_shiftLeft, Nat.testBit_shiftRight, Nat.testBit_two_pow_sub_one]
  by_cases hi : s ≤ i
  · have hback : s + (i - s) = i := by omega
    rw [hback]
    by_cases hbig : i < 32
    · have hsub : i - s < 32 := by omega
      simp [hi, hbig, hsub]
    · rw [hlt (by omega)]
      simp [hi, hbig]
  · have hbig : i < 32 := by omega
    have hbelow : i < s := by omega
    simp [hi, hbig, hbelow]

theorem cidrBits_text (net : Cidr) :
    cidrBits (net.bits.elim [] fun n => 47 :: numeral n) = net.prefixLength := by
  unfold Cidr.prefixLength
  cases h : net.bits with
  | none => rfl
  | some n =>
    have hn := (net.bounds n h).2
    show int32 (strtol (numeral n)) = n
    rw [strtol_numeral (by omega), int32]
    exact Int.bmod_eq_of_le_mul_two (by omega) (by omega)

/-- A mask of at least one bit. -/
theorem shiftedOnes_prefixLength (wide : ℤ → UInt32) (net : Cidr) :
    shiftedOnes wide net.prefixLength = 0xffffffff <<< UInt32.ofNat (32 - net.prefixLength) := by
  obtain ⟨hlow, hhigh⟩ := net.prefixLength_bounds
  rw [shiftedOnes, if_pos ⟨by omega, by omega⟩, UInt32.ofInt]
  congr 2
  omega

/-- Such a mask is not 0. -/
theorem ones_shiftLeft_ne_zero {s : ℕ} (hs : s < 32) :
    (0xffffffff : UInt32) <<< UInt32.ofNat s ≠ 0 := by
  intro hzero
  have hlast := toNat_hostBits_or hs 0
  have hle : 2 ^ s ≤ 2 ^ 31 := Nat.pow_le_pow_right (by decide) (by omega)
  rw [hzero, UInt32.toNat_zero, Nat.zero_div, Nat.zero_mul, Nat.zero_add] at hlast
  have hones : (~~~(0 : UInt32) ||| 0).toNat = 2 ^ 32 - 1 := rfl
  omega

/-- The addresses up to the last one of a network. -/
theorem le_hostBits_or_iff {s : ℕ} (hs : s < 32) {ip a : UInt32} (hle : ip ≤ a) :
    a ≤ ~~~(0xffffffff <<< UInt32.ofNat s) ||| ip ↔ a.toNat / 2 ^ s = ip.toNat / 2 ^ s := by
  have hpos : 0 < 2 ^ s := Nat.two_pow_pos s
  have hdiv : ip.toNat / 2 ^ s ≤ a.toNat / 2 ^ s := Nat.div_le_div_right hle
  rw [UInt32.le_iff_toNat_le, toNat_hostBits_or hs]
  generalize ip.toNat / 2 ^ s = q at hdiv ⊢
  have hlast : a.toNat ≤ q * 2 ^ s + (2 ^ s - 1) ↔ a.toNat / 2 ^ s < q + 1 := by
    rw [Nat.div_lt_iff_lt_mul hpos, Nat.add_mul, Nat.one_mul]
    omega
  rw [hlast]
  omega

/-- **What is written is the network.** -/
theorem cidrRange_text (wide : ℤ → UInt32) (net : Cidr) :
    ∃ r, cidrRange wide net.text = some r ∧
      ∀ a : UInt32, (a ≥ r.ipMin ∧ a ≤ r.ipMax) ↔ net.Contains a := by
  obtain ⟨hlow, hhigh⟩ := net.prefixLength_bounds
  have hs : 32 - net.prefixLength < 32 := by omega
  have haddress : ∀ c ∈ inetNtoa net.ip, (decide (c ≠ 47)) = true := by
    intro c hc
    have hne : c ≠ 47 := fun h => slash_notMem_inetNtoa net.ip (h ▸ hc)
    exact decide_eq_true hne
  have hstop : ((net.bits.elim [] fun n => 47 :: numeral n).head?.all fun c => !decide (c ≠ 47)) :=
    by cases net.bits <;> rfl
  have hrange : cidrRange wide net.text = some
      ⟨net.ip, ~~~(0xffffffff <<< UInt32.ofNat (32 - net.prefixLength)) ||| net.ip,
        le_or_right _ _⟩ := by
    have hmask := shiftedOnes_prefixLength wide net
    have hip : net.text.takeWhile (· ≠ 47) = inetNtoa net.ip := takeWhile_stop haddress hstop
    have hbits : cidrBits (net.text.dropWhile (· ≠ 47)) = net.prefixLength :=
      (congrArg cidrBits (dropWhile_stop haddress hstop)).trans (cidrBits_text net)
    simp only [cidrRange, hip, inetAton_inetNtoa, hbits, hmask, ones_shiftLeft_ne_zero hs, if_false,
      UInt32.ofNat_toNat]
  refine ⟨_, hrange, ?_⟩
  intro a
  dsimp only
  exact and_congr_right fun hle => le_hostBits_or_iff hs hle

/-! ## A setting is read back -/

theorem netsetLoop_names (wide : ℤ → UInt32) (nets : List Cidr) (ns : Netset) :
    ∃ ns', netsetLoop wide ns (nets.map Cidr.text) = (ns', true) ∧
      ∀ a, checkIp ns' a = 1 ↔ (∃ net ∈ nets, net.Contains a) ∨ checkIp ns a = 1 := by
  induction nets generalizing ns with
  | nil => exact ⟨ns, rfl, by simp⟩
  | cons net nets ih =>
    obtain ⟨r, hr, hrange⟩ := cidrRange_text wide net
    obtain ⟨ns', hloop, hmem⟩ := ih (r :: ns)
    refine ⟨ns', ?_, ?_⟩
    · rw [List.map_cons, netsetLoop, hr]
      exact hloop
    · intro a
      have hcons : checkIp (r :: ns) a = 1 ↔ net.Contains a ∨ checkIp ns a = 1 := by
        rw [checkIp, ← hrange]
        split
        · rename_i h
          exact iff_of_true rfl (Or.inl h)
        · rename_i h
          exact (or_iff_right h).symm
      rw [hmem, hcons, List.exists_mem_cons_iff, or_left_comm, or_assoc]

/-- **A setting that names networks gives their addresses**, if it fits. -/
theorem netsetCreate_names (wide : ℤ → UInt32) {setting : List UInt8} {nets : List Cidr}
    (hnames : Names setting nets) (hfits : setting.length < 8192) :
    ∃ ns, netsetCreate wide setting = (ns, true) ∧
      ∀ a, checkIp ns a = 1 ↔ ∃ net ∈ nets, net.Contains a := by
  obtain ⟨ns, hloop, hmem⟩ := netsetLoop_names wide nets []
  refine ⟨ns, ?_, ?_⟩
  · rw [netsetCreate, if_neg (by omega), hnames, hloop]
  · intro a
    rw [hmem]
    simp [checkIp]

end Sweetspot
