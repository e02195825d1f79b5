import Mathlib.Data.List.Nodup
import Mathlib.Data.List.Range
import Mathlib.Tactic.Linarith
import Mathlib.Tactic.Ring

/-!
# Address sets

A network set is a list of address ranges.  Its functions walk the list in 32-bit arithmetic; what
they compute is read off the list of all its addresses (`Netset.addresses`): the size is its
length, `netsetIp` looks an address up by position, `netsetIdx` finds the position of an address,
and `checkIp` tests membership.

* `netsetSize_toNat`, `netsetIp_toNat`, `netsetIdx_toNat`, `checkIp_eq_one_iff`: the four readings.
* `netsetIp_netsetIdx`, `netsetIdx_netsetIp`: on disjoint ranges position and address determine
  each other.
* `netset_bijection`: the same with every sum and difference on the way exact, of the ranges alone.
-/

namespace Sweetspot

/-- `sw_netset_t` without its link.  `sw_netset_create` sets `ip_max` to `~netmask | ip_min`, so a
range is never empty. -/
structure IpRange where
  ipMin : UInt32
  ipMax : UInt32
  le : ipMin ≤ ipMax
  deriving DecidableEq, Repr

/-- A network set, in list order. -/
abbrev Netset := List IpRange

/-- `sw_netset_size`. -/
def netsetSize (ns : Netset) : UInt32 :=
  ns.foldl (fun size r => size + (r.ipMax - r.ipMin + 1)) 0

/-- The loop of `sw_netset_idx`, from the index counted so far. -/
def netsetIdxFrom (ipIdx : UInt32) : Netset → UInt32 → UInt32
  | [], _ => ipIdx
  | r :: ns, ip =>
    if ip > r.ipMax ∨ ip < r.ipMin then netsetIdxFrom (ipIdx + (r.ipMax - r.ipMin + 1)) ns ip
    else ipIdx + (ip - r.ipMin)

/-- `sw_netset_idx`. -/
def netsetIdx (ns : Netset) (ip : UInt32) : UInt32 := netsetIdxFrom 0 ns ip

/-- `sw_check_ip`. -/
def checkIp : Netset → UInt32 → UInt32
  | [], _ => 0
  | r :: ns, ip => if ip ≥ r.ipMin ∧ ip ≤ r.ipMax then 1 else checkIp ns ip

/-- `sw_netset_ip`. -/
def netsetIp : Netset → UInt32 → UInt32
  | [], _ => 0
  | r :: ns, ipIdx =>
    if r.ipMax - r.ipMin < ipIdx then netsetIp ns (ipIdx - (r.ipMax - r.ipMin + 1))
    else r.ipMin + ipIdx

/-! ## The addresses of a network set -/

namespace IpRange

/-- How many addresses a range has. -/
def width (r : IpRange) : ℕ := r.ipMax.toNat - r.ipMin.toNat + 1

theorem ipMin_toNat_le (r : IpRange) : r.ipMin.toNat ≤ r.ipMax.toNat :=
  UInt32.le_iff_toNat_le.1 r.le

/-- The addresses of a range, in order. -/
def addresses (r : IpRange) : List ℕ := List.range' r.ipMin.toNat r.width

theorem mem_addresses {r : IpRange} {n : ℕ} :
    n ∈ r.addresses ↔ r.ipMin.toNat ≤ n ∧ n ≤ r.ipMax.toNat := by
  have := r.ipMin_toNat_le
  rw [addresses, List.mem_range'_1, width]
  omega

theorem span_toNat (r : IpRange) : (r.ipMax - r.ipMin).toNat + 1 = r.width := by
  rw [UInt32.toNat_sub_of_le _ _ r.le, width]

theorem succ_span_toNat {r : IpRange} (h : r.width < 2 ^ 32) :
    (r.ipMax - r.ipMin + 1).toNat = r.width := by
  rw [UInt32.toNat_add, UInt32.toNat_one, r.span_toNat]
  exact Nat.mod_eq_of_lt h

end IpRange

namespace Netset

/-- The addresses of a network set, in order. -/
def addresses (ns : Netset) : List ℕ := ns.flatMap IpRange.addresses

@[simp] theorem addresses_nil : addresses [] = [] := rfl

@[simp] theorem addresses_cons (r : IpRange) (ns : Netset) :
    addresses (r :: ns) = r.addresses ++ addresses ns := rfl

theorem length_addresses_cons (r : IpRange) (ns : Netset) :
    (addresses (r :: ns)).length = r.width + (addresses ns).length := by
  rw [addresses_cons, List.length_append, IpRange.addresses, List.length_range']

/-- No address belongs to two ranges. -/
def Disjoint (ns : Netset) : Prop :=
  ns.Pairwise fun r r' => r.ipMax < r'.ipMin ∨ r'.ipMax < r.ipMin

theorem addresses_nodup {ns : Netset} (h : ns.Disjoint) : ns.addresses.Nodup := by
  refine List.nodup_flatMap.2 ⟨fun r _ => List.nodup_range', h.imp ?_⟩
  intro r r' hrr' n hr hr'
  rw [IpRange.mem_addresses] at hr hr'
  rw [UInt32.lt_iff_toNat_lt, UInt32.lt_iff_toNat_lt] at hrr'
  omega

end Netset

open Netset

/-! ## What the functions compute -/

theorem checkIp_eq_one_iff (ns : Netset) (ip : UInt32) :
    checkIp ns ip = 1 ↔ ip.toNat ∈ ns.addresses := by
  induction ns with
  | nil => simp [checkIp]
  | cons r ns ih =>
    rw [addresses_cons, List.mem_append, ← ih, IpRange.mem_addresses, ← UInt32.le_iff_toNat_le,
      ← UInt32.le_iff_toNat_le, checkIp]
    split
    · rename_i h
      exact iff_of_true rfl (Or.inl h)
    · rename_i h
      exact (or_iff_right h).symm

theorem foldl_size_toNat (ns : Netset) (size : UInt32)
    (h : size.toNat + ns.addresses.length < 2 ^ 32) :
    (ns.foldl (fun size r => size + (r.ipMax - r.ipMin + 1)) size).toNat =
      size.toNat + ns.addresses.length := by
  induction ns generalizing size with
  | nil => simp
  | cons r ns ih =>
    rw [length_addresses_cons] at h ⊢
    have hstep : (size + (r.ipMax - r.ipMin + 1)).toNat = size.toNat + r.width := by
      rw [UInt32.toNat_add, IpRange.succ_span_toNat (by omega)]
      exact Nat.mod_eq_of_lt (by omega)
    rw [List.foldl_cons, ih _ (by omega), hstep]
    omega

/-- **The size is the number of addresses**, as long as it fits. -/
theorem netsetSize_toNat {ns : Netset} (h : ns.addresses.length < 2 ^ 32) :
    (netsetSize ns).toNat = ns.addresses.length := by
  have := foldl_size_toNat ns 0 (by simpa using h)
  simpa [netsetSize] using this

/-- **An index leads to the address at that position.** -/
theorem netsetIp_toNat {ns : Netset} {ipIdx : UInt32} (hlen : ns.addresses.length < 2 ^ 32)
    (h : ipIdx.toNat < ns.addresses.length) :
    (netsetIp ns ipIdx).toNat = ns.addresses[ipIdx.toNat] := by
  induction ns generalizing ipIdx with
  | nil => simp at h
  | cons r ns ih =>
    have hspan := r.span_toNat
    simp only [length_addresses_cons] at hlen h
    simp only [addresses_cons, netsetIp]
    split
    · rename_i hlt
      rw [UInt32.lt_iff_toNat_lt] at hlt
      have hsucc : (r.ipMax - r.ipMin + 1).toNat = r.width :=
        IpRange.succ_span_toNat (by omega)
      have hidx : (ipIdx - (r.ipMax - r.ipMin + 1)).toNat = ipIdx.toNat - r.width := by
        rw [UInt32.toNat_sub_of_le, hsucc]
        rw [UInt32.le_iff_toNat_le, hsucc]
        omega
      rw [ih (by omega) (by omega), List.getElem_append_right]
      · simp [hidx, IpRange.addresses]
      · simp only [IpRange.addresses, List.length_range']
        omega
    · rename_i hlt
      rw [UInt32.lt_iff_toNat_lt] at hlt
      have hmax := r.ipMax.toNat_lt
      have hw : r.width = r.ipMax.toNat - r.ipMin.toNat + 1 := rfl
      have hmin := r.ipMin_toNat_le
      rw [List.getElem_append_left, UInt32.toNat_add, Nat.mod_eq_of_lt (by omega)]
      · simp [IpRange.addresses]
      · simp only [IpRange.addresses, List.length_range']
        omega

theorem netsetIdxFrom_toNat {ns : Netset} {ipIdx ip : UInt32}
    (hlen : ipIdx.toNat + ns.addresses.length < 2 ^ 32) (h : ip.toNat ∈ ns.addresses) :
    (netsetIdxFrom ipIdx ns ip).toNat = ipIdx.toNat + ns.addresses.idxOf ip.toNat := by
  induction ns generalizing ipIdx with
  | nil => simp at h
  | cons r ns ih =>
    have hlen' := hlen
    rw [length_addresses_cons] at hlen
    rw [addresses_cons, List.mem_append] at h
    rw [netsetIdxFrom, addresses_cons]
    by_cases hr : ip.toNat ∈ r.addresses
    · have hmem := IpRange.mem_addresses.1 hr
      have hin : ¬ (ip > r.ipMax ∨ ip < r.ipMin) := by
        rw [gt_iff_lt, UInt32.lt_iff_toNat_lt, UInt32.lt_iff_toNat_lt]
        omega
      have hw : r.width = r.ipMax.toNat - r.ipMin.toNat + 1 := rfl
      have hpos : ip.toNat - r.ipMin.toNat < r.width := by omega
      have hidx : r.addresses.idxOf ip.toNat = ip.toNat - r.ipMin.toNat := by
        have hbound : ip.toNat - r.ipMin.toNat < r.addresses.length := by
          rwa [IpRange.addresses, List.length_range']
        have hget : r.addresses[ip.toNat - r.ipMin.toNat] = ip.toNat := by
          simp only [IpRange.addresses, List.getElem_range']
          omega
        conv_lhs => rw [← hget]
        exact List.Nodup.idxOf_getElem List.nodup_range' _ _
      rw [if_neg hin, List.idxOf_append_of_mem hr, hidx, UInt32.toNat_add,
        UInt32.toNat_sub_of_le _ _ (UInt32.le_iff_toNat_le.2 hmem.1)]
      exact Nat.mod_eq_of_lt (by omega)
    · have hout : ip > r.ipMax ∨ ip < r.ipMin := by
        rw [IpRange.mem_addresses] at hr
        rw [gt_iff_lt, UInt32.lt_iff_toNat_lt, UInt32.lt_iff_toNat_lt]
        omega
      have hstep : (ipIdx + (r.ipMax - r.ipMin + 1)).toNat = ipIdx.toNat + r.width := by
        rw [UInt32.toNat_add, IpRange.succ_span_toNat (by omega)]
        exact Nat.mod_eq_of_lt (by omega)
      rw [if_pos hout, ih (by omega) (h.resolve_left hr), hstep,
        List.idxOf_append_of_notMem hr, IpRange.addresses, List.length_range']
      omega

/-- **The index of a member is its position.** -/
theorem netsetIdx_toNat {ns : Netset} {ip : UInt32} (hlen : ns.addresses.length < 2 ^ 32)
    (h : ip.toNat ∈ ns.addresses) : (netsetIdx ns ip).toNat = ns.addresses.idxOf ip.toNat := by
  have := @netsetIdxFrom_toNat ns 0 ip (by simpa using hlen) h
  simpa [netsetIdx] using this

/-! ## Positions and addresses -/

theorem netsetIdx_lt {ns : Netset} {ip : UInt32} (hlen : ns.addresses.length < 2 ^ 32)
    (h : ip.toNat ∈ ns.addresses) : (netsetIdx ns ip).toNat < ns.addresses.length := by
  rw [netsetIdx_toNat hlen h]
  exact List.idxOf_lt_length_of_mem h

/-- The address at the index of a member is that member. -/
theorem netsetIp_netsetIdx {ns : Netset} {ip : UInt32} (hlen : ns.addresses.length < 2 ^ 32)
    (h : ip.toNat ∈ ns.addresses) : netsetIp ns (netsetIdx ns ip) = ip := by
  rw [← UInt32.toNat_inj, netsetIp_toNat hlen (netsetIdx_lt hlen h)]
  simp only [netsetIdx_toNat hlen h, List.getElem_idxOf]

theorem netsetIp_mem {ns : Netset} {ipIdx : UInt32} (hlen : ns.addresses.length < 2 ^ 32)
    (h : ipIdx.toNat < ns.addresses.length) : (netsetIp ns ipIdx).toNat ∈ ns.addresses := by
  rw [netsetIp_toNat hlen h]
  exact List.getElem_mem h

/-- On disjoint ranges the index of the address at an index is that index. -/
theorem netsetIdx_netsetIp {ns : Netset} {ipIdx : UInt32} (hdisj : ns.Disjoint)
    (hlen : ns.addresses.length < 2 ^ 32) (h : ipIdx.toNat < ns.addresses.length) :
    netsetIdx ns (netsetIp ns ipIdx) = ipIdx := by
  rw [← UInt32.toNat_inj, netsetIdx_toNat hlen (netsetIp_mem hlen h)]
  simp only [netsetIp_toNat hlen h]
  exact List.Nodup.idxOf_getElem (addresses_nodup hdisj) _ h

/-! ## The sums on the way -/

/-- A sum or a difference that the code takes of two words. -/
inductive WordOp where
  | add (a b : UInt32)
  | sub (a b : UInt32)
  deriving DecidableEq, Repr

/-- The operation does not wrap. -/
def WordOp.Exact : WordOp → Prop
  | .add a b => a.toNat + b.toNat < 2 ^ 32
  | .sub a b => b ≤ a

/-- The word that an operation gives. -/
def WordOp.value : WordOp → UInt32
  | .add a b => a + b
  | .sub a b => a - b

/-- The two operations of `ip_max - ip_min + 1`. -/
def IpRange.widthOps (r : IpRange) : List WordOp :=
  [.sub r.ipMax r.ipMin, .add (r.ipMax - r.ipMin) 1]

/-- What `sw_netset_size` adds up, from the size counted so far. -/
def netsetSizeOps (size : UInt32) : Netset → List WordOp
  | [] => []
  | r :: ns => r.widthOps ++ .add size (r.ipMax - r.ipMin + 1) ::
      netsetSizeOps (size + (r.ipMax - r.ipMin + 1)) ns

/-- What `sw_netset_idx` adds up, from the index counted so far. -/
def netsetIdxOps (ipIdx : UInt32) : Netset → UInt32 → List WordOp
  | [], _ => []
  | r :: ns, ip =>
    if ip > r.ipMax ∨ ip < r.ipMin then
      r.widthOps ++ .add ipIdx (r.ipMax - r.ipMin + 1) ::
        netsetIdxOps (ipIdx + (r.ipMax - r.ipMin + 1)) ns ip
    else [.sub ip r.ipMin, .add ipIdx (ip - r.ipMin)]

/-- What `sw_netset_ip` adds and takes off; the test of a range takes the first difference. -/
def netsetIpOps : Netset → UInt32 → List WordOp
  | [], _ => []
  | r :: ns, ipIdx =>
    .sub r.ipMax r.ipMin ::
      if r.ipMax - r.ipMin < ipIdx then
        r.widthOps ++ .sub ipIdx (r.ipMax - r.ipMin + 1) ::
          netsetIpOps ns (ipIdx - (r.ipMax - r.ipMin + 1))
      else [.add r.ipMin ipIdx]

/-- The operations end in the size. -/
theorem netsetSizeOps_value (ns : Netset) (size : UInt32) :
    (netsetSizeOps size ns).getLast?.elim size WordOp.value =
      ns.foldl (fun size r => size + (r.ipMax - r.ipMin + 1)) size := by
  induction ns generalizing size with
  | nil => rfl
  | cons r ns ih =>
    rw [List.foldl_cons, ← ih, netsetSizeOps, List.getLast?_append_cons, List.getLast?_cons]
    cases (netsetSizeOps (size + (r.ipMax - r.ipMin + 1)) ns).getLast? <;> rfl

/-- The operations end in the index. -/
theorem netsetIdxOps_value (ns : Netset) (ipIdx ip : UInt32) :
    (netsetIdxOps ipIdx ns ip).getLast?.elim ipIdx WordOp.value = netsetIdxFrom ipIdx ns ip := by
  induction ns generalizing ipIdx with
  | nil => rfl
  | cons r ns ih =>
    rw [netsetIdxOps, netsetIdxFrom]
    split
    · rw [← ih, List.getLast?_append_cons, List.getLast?_cons]
      cases (netsetIdxOps (ipIdx + (r.ipMax - r.ipMin + 1)) ns ip).getLast? <;> rfl
    · rfl

/-- The operations end in the address, where there is one. -/
theorem netsetIpOps_value {ns : Netset} {ipIdx : UInt32} (hlen : ns.addresses.length < 2 ^ 32)
    (h : ipIdx.toNat < ns.addresses.length) (o : UInt32) :
    (netsetIpOps ns ipIdx).getLast?.elim o WordOp.value = netsetIp ns ipIdx := by
  induction ns generalizing ipIdx o with
  | nil => simp at h
  | cons r ns ih =>
    have hspan := r.span_toNat
    rw [length_addresses_cons] at hlen h
    rw [netsetIpOps, netsetIp, List.getLast?_cons]
    split
    · rename_i hlt
      rw [UInt32.lt_iff_toNat_lt] at hlt
      have hsucc : (r.ipMax - r.ipMin + 1).toNat = r.width :=
        IpRange.succ_span_toNat (by omega)
      have hidx : (ipIdx - (r.ipMax - r.ipMin + 1)).toNat = ipIdx.toNat - r.width := by
        rw [UInt32.toNat_sub_of_le, hsucc]
        rw [UInt32.le_iff_toNat_le, hsucc]
        omega
      rw [← ih (by omega) (by omega) (ipIdx - (r.ipMax - r.ipMin + 1)),
        List.getLast?_append_cons, List.getLast?_cons]
      cases (netsetIpOps ns (ipIdx - (r.ipMax - r.ipMin + 1))).getLast? <;> rfl
    · rfl

theorem Netset.length_addresses (ns : Netset) :
    ns.addresses.length = (ns.map IpRange.width).sum := by
  induction ns with
  | nil => rfl
  | cons r ns ih => rw [length_addresses_cons, ih, List.map_cons, List.sum_cons]

theorem IpRange.widthOps_exact {r : IpRange} (h : r.width < 2 ^ 32) :
    ∀ op ∈ r.widthOps, op.Exact := by
  have hspan := r.span_toNat
  intro op hop
  rw [widthOps, List.mem_pair] at hop
  rcases hop with rfl | rfl
  · exact r.le
  · show (r.ipMax - r.ipMin).toNat + (1 : UInt32).toNat < 2 ^ 32
    rw [UInt32.toNat_one]
    omega

theorem IpRange.add_width_exact {r : IpRange} {n : UInt32} (h : n.toNat + r.width < 2 ^ 32) :
    (WordOp.add n (r.ipMax - r.ipMin + 1)).Exact ∧
      (n + (r.ipMax - r.ipMin + 1)).toNat = n.toNat + r.width := by
  have hsucc : (r.ipMax - r.ipMin + 1).toNat = r.width := succ_span_toNat (by omega)
  constructor
  · rwa [WordOp.Exact, hsucc]
  · rw [UInt32.toNat_add, hsucc]
    exact Nat.mod_eq_of_lt h

theorem netsetSizeOps_exact {ns : Netset} {size : UInt32}
    (h : size.toNat + ns.addresses.length < 2 ^ 32) :
    ∀ op ∈ netsetSizeOps size ns, op.Exact := by
  induction ns generalizing size with
  | nil => simp [netsetSizeOps]
  | cons r ns ih =>
    rw [length_addresses_cons] at h
    obtain ⟨hadd, hnext⟩ := @IpRange.add_width_exact r size (by omega)
    rw [netsetSizeOps, List.forall_mem_append, List.forall_mem_cons]
    exact ⟨IpRange.widthOps_exact (by omega), hadd, ih (by omega)⟩

theorem netsetIdxOps_exact {ns : Netset} {ipIdx : UInt32} (ip : UInt32)
    (h : ipIdx.toNat + ns.addresses.length < 2 ^ 32) :
    ∀ op ∈ netsetIdxOps ipIdx ns ip, op.Exact := by
  induction ns generalizing ipIdx with
  | nil => simp [netsetIdxOps]
  | cons r ns ih =>
    rw [length_addresses_cons] at h
    rw [netsetIdxOps]
    split
    · obtain ⟨hadd, hnext⟩ := @IpRange.add_width_exact r ipIdx (by omega)
      rw [List.forall_mem_append, List.forall_mem_cons]
      exact ⟨IpRange.widthOps_exact (by omega), hadd, ih (by omega)⟩
    · rename_i hin
      rw [not_or, UInt32.not_lt, UInt32.not_lt] at hin
      have hmax := UInt32.le_iff_toNat_le.1 hin.1
      have hmin := UInt32.le_iff_toNat_le.1 hin.2
      have hw : r.width = r.ipMax.toNat - r.ipMin.toNat + 1 := rfl
      rw [List.forall_mem_cons, List.forall_mem_singleton, WordOp.Exact, WordOp.Exact,
        UInt32.toNat_sub_of_le _ _ hin.2]
      exact ⟨hin.2, by omega⟩

theorem netsetIpOps_exact {ns : Netset} (ipIdx : UInt32) (h : ns.addresses.length < 2 ^ 32) :
    ∀ op ∈ netsetIpOps ns ipIdx, op.Exact := by
  induction ns generalizing ipIdx with
  | nil => simp [netsetIpOps]
  | cons r ns ih =>
    rw [length_addresses_cons] at h
    have hspan := r.span_toNat
    rw [netsetIpOps, List.forall_mem_cons]
    refine ⟨r.le, ?_⟩
    split
    · rename_i hlt
      rw [UInt32.lt_iff_toNat_lt] at hlt
      have hsucc : (r.ipMax - r.ipMin + 1).toNat = r.width :=
        IpRange.succ_span_toNat (by omega)
      rw [List.forall_mem_append, List.forall_mem_cons]
      refine ⟨IpRange.widthOps_exact (by omega), ?_, ih _ (by omega)⟩
      rw [WordOp.Exact, UInt32.le_iff_toNat_le, hsucc]
      omega
    · rename_i hle
      rw [UInt32.lt_iff_toNat_lt] at hle
      have hmax := r.ipMax.toNat_lt
      have hmin := r.ipMin_toNat_le
      have hw : r.width = r.ipMax.toNat - r.ipMin.toNat + 1 := rfl
      rw [List.forall_mem_singleton, WordOp.Exact]
      omega

/-- **Indices and addresses.**  On disjoint ranges of fewer than `2 ^ 32` addresses, `netsetIp`
and `netsetIdx` are inverse to each other between the indices below the size and the members, the
index tells members apart, and no sum or difference on the way wraps, of whatever address or
index. -/
theorem netset_bijection {ns : Netset} (hdisj : ns.Disjoint)
    (hsize : (ns.map IpRange.width).sum < 2 ^ 32) :
    (∀ ipIdx < netsetSize ns, checkIp ns (netsetIp ns ipIdx) = 1 ∧
      netsetIdx ns (netsetIp ns ipIdx) = ipIdx) ∧
    (∀ ip, checkIp ns ip = 1 → netsetIdx ns ip < netsetSize ns ∧
      netsetIp ns (netsetIdx ns ip) = ip) ∧
    (∀ ip ip', checkIp ns ip = 1 → checkIp ns ip' = 1 →
      netsetIdx ns ip = netsetIdx ns ip' → ip = ip') ∧
    (∀ op ∈ netsetSizeOps 0 ns, op.Exact) ∧
    (∀ ip, ∀ op ∈ netsetIdxOps 0 ns ip, op.Exact) ∧
    (∀ ipIdx, ∀ op ∈ netsetIpOps ns ipIdx, op.Exact) := by
  rw [← length_addresses] at hsize
  have hzero : (0 : UInt32).toNat + ns.addresses.length < 2 ^ 32 := by rwa [UInt32.toNat_zero,
    Nat.zero_add]
  simp only [checkIp_eq_one_iff, UInt32.lt_iff_toNat_lt, netsetSize_toNat hsize]
  refine ⟨fun ipIdx h => ⟨netsetIp_mem hsize h, netsetIdx_netsetIp hdisj hsize h⟩,
    fun ip h => ⟨netsetIdx_lt hsize h, netsetIp_netsetIdx hsize h⟩, ?_,
    netsetSizeOps_exact hzero, fun ip => netsetIdxOps_exact ip hzero,
    fun ipIdx => netsetIpOps_exact ipIdx hsize⟩
  intro ip ip' hip hip' hidx
  rw [← netsetIp_netsetIdx hsize hip, hidx, netsetIp_netsetIdx hsize hip']

/-- Two ranges that are not in the order of their addresses. -/
def twoRanges : Netset :=
  [⟨0x0A000010, 0x0A00001F, by decide⟩, ⟨0x0A000000, 0x0A000007, by decide⟩]

theorem netset_bijection_twoRanges :
    netsetIdx twoRanges (netsetIp twoRanges 20) = 20 ∧ netsetIp twoRanges 20 = 0x0A000004 := by
  have hdisj : Netset.Disjoint twoRanges := by
    unfold Netset.Disjoint
    decide
  exact ⟨((netset_bijection hdisj (by decide)).1 20 (by decide)).2, by decide⟩

end Sweetspot
