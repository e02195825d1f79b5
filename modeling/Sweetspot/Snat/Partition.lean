import Sweetspot.Snat.Create

/-!
# Source-NAT endpoints: nobody shares a port

`endpoint_partition`: in every accepted configuration the entries of a private address lie within
the public networks and within the ports and sequence numbers that are shared out, and two private
addresses behind one public address have disjoint ranges.

The index of a private address determines everything it is given.  Two addresses behind one public
address have indices with the same quotient by `k`; being different they differ in the remainder,
and so in the chunk (`Accepted.eq_of_same_chunk`).
-/

namespace Sweetspot

/-- The entries of one private address. -/
structure Share where
  ip : EndpointIp
  udp : EndpointUdp
  tcp : EndpointTcp
  icmp : EndpointIcmp

namespace Endpoints

/-- The entries stored for a private address. -/
def share (e : Endpoints) (prvIp : UInt32) : Option Share := do
  let ip ← e.ip.retrieve prvIp
  let udp ← e.udp.retrieve prvIp
  let tcp ← e.tcp.retrieve prvIp
  let icmp ← e.icmp.retrieve prvIp
  some ⟨ip, udp, tcp, icmp⟩

/-! ## Creating the entries of one address -/

section New

variable {cfg : EndpointConfig} {a : UInt32} {ip : EndpointIp}

theorem ipNew_prvIp (h : ipNew cfg a = some ip) : ip.prvIp = a := by
  simp only [ipNew] at h
  split at h
  · exact absurd h (by simp)
  · obtain rfl := Option.some.inj h
    rfl

/-- The public address found in the table is the one just stored. -/
theorem ipGetpub_insert {e : Endpoints} {t : KeyedTable ipComparator EndpointIp.prvIp}
    (hip : ip.prvIp = a) (ht : e.ip = t.insert ip) : e.ipGetpub a = some ip.pubIp := by
  rw [ipGetpub, ht, KeyedTable.retrieve_insert_of_comp ((ipComparator_comp _ _).2 hip),
    Option.map_some]

/-- A successful `sw_nat_src_endpoint_new` stores one entry in each table. -/
theorem endpointNew_eq (e : Endpoints) (h : ipNew cfg a = some ip) :
    e.endpointNew cfg a =
      ({ ip := e.ip.insert ip
         udp := e.udp.insert (udpNew cfg a ip.pubIp)
         udpId := e.udpId.insert ⟨ip.pubIp, (udpNew cfg a ip.pubIp).id, a⟩
         tcp := e.tcp.insert (tcpNew cfg a ip.pubIp)
         tcpId := e.tcpId.insert ⟨ip.pubIp, (tcpNew cfg a ip.pubIp).id, a⟩
         icmp := e.icmp.insert (icmpNew cfg a) }, true) := by
  have hip := ipNew_prvIp h
  simp only [endpointNew, h]
  rw [ipGetpub_insert hip rfl]
  simp only
  rw [ipGetpub_insert hip rfl]
  rfl

theorem share_endpointNew_self (e : Endpoints) (h : ipNew cfg a = some ip) :
    (e.endpointNew cfg a).1.share a =
      some ⟨ip, udpNew cfg a ip.pubIp, tcpNew cfg a ip.pubIp, icmpNew cfg a⟩ := by
  have hip := ipNew_prvIp h
  rw [endpointNew_eq e h, share]
  simp [KeyedTable.retrieve_insert_of_comp, hip, udpNew, tcpNew, icmpNew]

theorem share_endpointNew_of_ne (e : Endpoints) (h : ipNew cfg a = some ip) {b : UInt32}
    (hab : a ≠ b) : (e.endpointNew cfg a).1.share b = e.share b := by
  have hip : ip.prvIp ≠ b := (ipNew_prvIp h).symm ▸ hab
  rw [endpointNew_eq e h, share, share]
  simp [KeyedTable.retrieve_insert_of_ne, hip, hab, udpNew, tcpNew, icmpNew]

end New

end Endpoints

/-! ## What the entries hold -/

namespace Share

/-- The entries hold the exact numbers of the chunk of index `n`, `k` chunks in all: no assignment
to a 16-bit field cut anything off. -/
structure Exact (sh : Share) (k n : ℕ) : Prop where
  udpLport : sh.udp.lport.toNat = n % k * (64512 / k) + 1024
  udpHport : sh.udp.hport.toNat = n % k * (64512 / k) + 1024 + (64512 / k - 1)
  udpPort : sh.udp.port = sh.udp.lport
  udpId : sh.udp.id.toNat = n % k
  tcpLport : sh.tcp.lport.toNat = n % k * (64512 / k) + 1024
  tcpHport : sh.tcp.hport.toNat = n % k * (64512 / k) + 1024 + (64512 / k - 1)
  tcpPort : sh.tcp.port = sh.tcp.lport
  tcpId : sh.tcp.id.toNat = n % k
  icmpLseq : sh.icmp.lseq.toNat = n % k * (65535 / k)
  icmpHseq : sh.icmp.hseq.toNat = n % k * (65535 / k) + (65535 / k - 1)
  icmpSeq : sh.icmp.seq = sh.icmp.lseq

/-- The ranges lie inside what is shared out. -/
def InRange (sh : Share) : Prop :=
  (1024 ≤ sh.udp.lport.toNat ∧ sh.udp.lport ≤ sh.udp.hport ∧ sh.udp.hport.toNat ≤ 65535) ∧
  (1024 ≤ sh.tcp.lport.toNat ∧ sh.tcp.lport ≤ sh.tcp.hport ∧ sh.tcp.hport.toNat ≤ 65535) ∧
  (0 ≤ sh.icmp.lseq.toNat ∧ sh.icmp.lseq ≤ sh.icmp.hseq ∧ sh.icmp.hseq.toNat ≤ 65534)

/-- The ranges of two private addresses have no number in common. -/
def Apart (sh sh' : Share) : Prop :=
  (sh.udp.hport < sh'.udp.lport ∨ sh'.udp.hport < sh.udp.lport) ∧
  (sh.tcp.hport < sh'.tcp.lport ∨ sh'.tcp.hport < sh.tcp.lport) ∧
  (sh.icmp.hseq < sh'.icmp.lseq ∨ sh'.icmp.hseq < sh.icmp.lseq)

theorem Exact.inRange {sh : Share} {k n : ℕ} (h : sh.Exact k n) (hk : 0 < k)
    (hport : 0 < 64512 / k) (hseq : 0 < 65535 / k) : sh.InRange := by
  have := chunk_le hk n 64512
  have := chunk_le hk n 65535
  have := h.udpLport
  have := h.udpHport
  have := h.tcpLport
  have := h.tcpHport
  have := h.icmpLseq
  have := h.icmpHseq
  simp only [InRange, UInt16.le_iff_toNat_le]
  omega

/-- Chunks of different indices are apart. -/
theorem chunk_apart {i j c : ℕ} (hc : 0 < c) (hij : i < j) : i * c + (c - 1) < j * c := by
  have : (i + 1) * c ≤ j * c := Nat.mul_le_mul_right c hij
  rw [add_mul, one_mul] at this
  omega

theorem Exact.apart {sh sh' : Share} {k n n' : ℕ} (h : sh.Exact k n) (h' : sh'.Exact k n')
    (hport : 0 < 64512 / k) (hseq : 0 < 65535 / k) (hne : n % k ≠ n' % k) : sh.Apart sh' := by
  simp only [Apart, UInt16.lt_iff_toNat_lt, h.udpLport, h.udpHport, h.tcpLport, h.tcpHport,
    h.icmpLseq, h.icmpHseq, h'.udpLport, h'.udpHport, h'.tcpLport, h'.tcpHport, h'.icmpLseq,
    h'.icmpHseq]
  rcases Nat.lt_or_gt_of_ne hne with hlt | hlt
  · have h₁ := chunk_apart hport hlt
    have h₂ := chunk_apart hseq hlt
    omega
  · have h₁ := chunk_apart hport hlt
    have h₂ := chunk_apart hseq hlt
    omega

end Share

/-! ## One address -/

namespace Divided

variable {cfg : EndpointConfig} {k : ℕ} (h : Divided cfg k)
include h

theorem udp_pos : 0 < 64512 / k := by
  have := h.udpChunk.2
  omega

theorem icmp_pos : 0 < 65535 / k := by
  have := h.icmpChunk.2
  omega

/-- A chunk of at least five ports leaves no room for many. -/
theorem kLt : k < 2 ^ 14 := by
  have := Nat.div_mul_le_self 64512 k
  have := Nat.mul_le_mul_right k h.udpChunk.2
  omega

/-- The entries of an address hold the exact numbers of the chunk of its index. -/
theorem exact (a : UInt32) (ip : EndpointIp) :
    Share.Exact ⟨ip, udpNew cfg a ip.pubIp, tcpNew cfg a ip.pubIp, icmpNew cfg a⟩ k
      (netsetIdx cfg.prvNs a).toNat := by
  have hlt : k < 2 ^ 24 := h.kLt.trans (by norm_num)
  exact
    { udpLport := chunkLow_toNat h.udpK h.kPos hlt h.udpChunk.1 (by decide) h.udp_pos _
      udpHport := chunkHigh_toNat h.udpK h.kPos hlt h.udpChunk.1 (by decide) h.udp_pos _
      udpPort := rfl
      udpId := portBlock_toNat h.udpK h.kPos hlt h.udpChunk.1 (by decide) h.udp_pos _
      tcpLport := chunkLow_toNat h.tcpK h.kPos hlt h.tcpChunk.1 (by decide) h.udp_pos _
      tcpHport := chunkHigh_toNat h.tcpK h.kPos hlt h.tcpChunk.1 (by decide) h.udp_pos _
      tcpPort := rfl
      tcpId := portBlock_toNat h.tcpK h.kPos hlt h.tcpChunk.1 (by decide) h.udp_pos _
      icmpLseq := chunkLow_toNat h.icmpK h.kPos hlt h.icmpChunk.1 (by decide) h.icmp_pos _
      icmpHseq := chunkHigh_toNat h.icmpK h.kPos hlt h.icmpChunk.1 (by decide) h.icmp_pos _
      icmpSeq := rfl }

end Divided

namespace Accepted

variable {cfg : EndpointConfig} {k : ℕ} (h : Accepted cfg k)
include h

/-- **The public address of a member** is the one at the quotient of its index by `k`. -/
theorem exists_ipNew_eq {a : UInt32} (ha : checkIp cfg.prvNs a = 1) :
    ∃ num, num.toNat = (netsetIdx cfg.prvNs a).toNat / k ∧
      num.toNat < cfg.pubNs.addresses.length ∧
      ipNew cfg a =
        if netsetIp cfg.pubNs num = 0 then none else some ⟨a, netsetIp cfg.pubNs num⟩ := by
  have hprv := h.prvLen
  have hpub := h.pubLen
  have hidx := netsetIdx_lt (by omega) ((checkIp_eq_one_iff _ _).1 ha)
  have hfloor : ⌊Binary32.round (Binary32.round ((netsetIdx cfg.prvNs a).toNat : ℚ) /
      sizeRatio cfg.prvNs cfg.pubNs)⌋ = ((netsetIdx cfg.prvNs a).toNat / k : ℕ) := by
    rw [h.ratio, Binary32.round_natCast (by omega), Binary32.floor_round_div (by omega) h.kPos]
  have hlt : (netsetIdx cfg.prvNs a).toNat / k < cfg.pubNs.addresses.length :=
    Nat.div_lt_of_lt_mul (by
      rw [mul_comm]
      exact hidx.trans_le h.cover)
  have hnum : (UInt32.ofInt ((netsetIdx cfg.prvNs a).toNat / k : ℕ)).toNat =
      (netsetIdx cfg.prvNs a).toNat / k := uint32_ofInt_toNat (by omega)
  refine ⟨_, hnum, hnum.symm ▸ hlt, ?_⟩
  simp only [ipNew, hfloor]

theorem exists_ipNew (hzero : checkIp cfg.pubNs 0 ≠ 1) {a : UInt32}
    (ha : checkIp cfg.prvNs a = 1) :
    ∃ ip num, ipNew cfg a = some ip ∧ ip.pubIp = netsetIp cfg.pubNs num ∧
      num.toNat < cfg.pubNs.addresses.length := by
  obtain ⟨num, -, hlt, hnew⟩ := h.exists_ipNew_eq ha
  have hpub := h.pubLen
  have hne : netsetIp cfg.pubNs num ≠ 0 := fun heq =>
    hzero ((checkIp_eq_one_iff _ _).2 (heq ▸ netsetIp_mem (by omega) hlt))
  rw [if_neg hne] at hnew
  exact ⟨_, num, hnew, rfl, hlt⟩

/-- **Nobody shares a chunk**: a public address and the place among those behind it belong to one
member. -/
theorem eq_of_same_chunk (hpubDisj : cfg.pubNs.Disjoint) {a b : UInt32}
    (ha : checkIp cfg.prvNs a = 1) (hb : checkIp cfg.prvNs b = 1) {ipA ipB : EndpointIp}
    (hnewA : ipNew cfg a = some ipA) (hnewB : ipNew cfg b = some ipB)
    (hsame : ipA.pubIp = ipB.pubIp)
    (hmod : (netsetIdx cfg.prvNs a).toNat % k = (netsetIdx cfg.prvNs b).toNat % k) : a = b := by
  obtain ⟨numA, hquotA, hltA, hA⟩ := h.exists_ipNew_eq ha
  obtain ⟨numB, hquotB, hltB, hB⟩ := h.exists_ipNew_eq hb
  have hprv := h.prvLen
  have hpub := h.pubLen
  have hpubA : ipA.pubIp = netsetIp cfg.pubNs numA := by
    rw [hnewA] at hA
    split at hA
    · cases hA
    · exact congrArg EndpointIp.pubIp (Option.some.inj hA)
  have hpubB : ipB.pubIp = netsetIp cfg.pubNs numB := by
    rw [hnewB] at hB
    split at hB
    · cases hB
    · exact congrArg EndpointIp.pubIp (Option.some.inj hB)
  have hnum : numA = numB := by
    rw [← netsetIdx_netsetIp hpubDisj (by omega) hltA, ← hpubA, hsame, hpubB,
      netsetIdx_netsetIp hpubDisj (by omega) hltB]
  -- quotients and remainders agree, and so do the indices
  have hidx : netsetIdx cfg.prvNs a = netsetIdx cfg.prvNs b := by
    rw [hnum, hquotB] at hquotA
    apply UInt32.toNat_inj.1
    rw [← Nat.div_add_mod (netsetIdx cfg.prvNs a).toNat k, ← hquotA, hmod, Nat.div_add_mod]
  rw [← netsetIp_netsetIdx (by omega) ((checkIp_eq_one_iff _ _).1 ha), hidx,
    netsetIp_netsetIdx (by omega) ((checkIp_eq_one_iff _ _).1 hb)]

end Accepted

/-! ## Two addresses -/

/-- **Public endpoint partition.**  In a configuration that `sw_nat_src_endpoint_create` accepts,
the entries of two private addresses `a` and `b` created one after the other

* give each a public address of the public networks, ports within 1024 to 65535 and sequence
  numbers within 0 to 65534, all of them the exact numbers of the chunk of its index, and
* have no port and no sequence number in common when the public address is the same. -/
theorem endpoint_partition (prvNs pubNs : Netset) (hpubDisj : pubNs.Disjoint)
    (hprvLen : prvNs.addresses.length < 2 ^ 24) (hpubLen : pubNs.addresses.length < 2 ^ 24)
    (hzero : checkIp pubNs 0 ≠ 1) (cfg : EndpointConfig)
    (hcreate : endpointCreate pubNs prvNs = some cfg) (e : Endpoints) (a b : UInt32)
    (ha : checkIp prvNs a = 1) (hb : checkIp prvNs b = 1) (hab : a ≠ b) :
    ∃ shA shB,
      ((e.endpointNew cfg a).1.endpointNew cfg b).1.share a = some shA ∧
      ((e.endpointNew cfg a).1.endpointNew cfg b).1.share b = some shB ∧
      (checkIp pubNs shA.ip.pubIp = 1 ∧ checkIp pubNs shB.ip.pubIp = 1) ∧
      (shA.InRange ∧ shB.InRange) ∧
      (cfg.udp.chunk.toNat = 64512 / shareCount prvNs pubNs ∧
        cfg.tcp.chunk.toNat = 64512 / shareCount prvNs pubNs ∧
        cfg.icmp.chunk.toNat = 65535 / shareCount prvNs pubNs) ∧
      (shA.Exact (shareCount prvNs pubNs) (netsetIdx prvNs a).toNat ∧
        shB.Exact (shareCount prvNs pubNs) (netsetIdx prvNs b).toNat) ∧
      (shA.ip.pubIp = shB.ip.pubIp → shA.Apart shB) := by
  obtain ⟨rfl, rfl, h⟩ := accepted_of_endpointCreate hprvLen hpubLen hcreate
  obtain ⟨ipA, numA, hnewA, hpubA, hltA⟩ := h.exists_ipNew hzero ha
  obtain ⟨ipB, numB, hnewB, hpubB, hltB⟩ := h.exists_ipNew hzero hb
  refine ⟨_, _, ?_, Endpoints.share_endpointNew_self _ hnewB, ⟨?_, ?_⟩, ⟨?_, ?_⟩,
    ⟨h.udpChunk.1, h.tcpChunk.1, h.icmpChunk.1⟩, ⟨h.divided.exact a ipA, h.divided.exact b ipB⟩, ?_⟩
  · rw [Endpoints.share_endpointNew_of_ne _ hnewB hab.symm]
    exact Endpoints.share_endpointNew_self _ hnewA
  · rw [checkIp_eq_one_iff, hpubA]
    exact netsetIp_mem (by omega) hltA
  · rw [checkIp_eq_one_iff, hpubB]
    exact netsetIp_mem (by omega) hltB
  · exact (h.divided.exact a ipA).inRange h.kPos h.divided.udp_pos h.divided.icmp_pos
  · exact (h.divided.exact b ipB).inRange h.kPos h.divided.udp_pos h.divided.icmp_pos
  · intro hsame
    exact (h.divided.exact a ipA).apart (h.divided.exact b ipB) h.divided.udp_pos
      h.divided.icmp_pos fun hmod => hab (h.eq_of_same_chunk hpubDisj ha hb hnewA hnewB hsame hmod)

/-! ### Four hosts behind two addresses -/

def fourHosts : Netset := [⟨0x0a000001, 0x0a000004, by decide⟩]

def twoPublic : Netset := [⟨0xc0000201, 0xc0000202, by decide⟩]

/-- The first two hosts, behind one address if any two are. -/
theorem endpoint_partition_fourHosts :
    ∃ cfg shA shB, endpointCreate twoPublic fourHosts = some cfg ∧
      ((Endpoints.empty.endpointNew cfg 0x0a000001).1.endpointNew cfg 0x0a000002).1.share
        0x0a000001 = some shA ∧
      ((Endpoints.empty.endpointNew cfg 0x0a000001).1.endpointNew cfg 0x0a000002).1.share
        0x0a000002 = some shB ∧
      (shA.ip.pubIp = shB.ip.pubIp → shA.Apart shB) := by
  obtain ⟨cfg, hcreate⟩ := Option.isSome_iff_exists.1
    (show (endpointCreate twoPublic fourHosts).isSome by decide +kernel)
  obtain ⟨shA, shB, hA, hB, -, -, -, -, hapart⟩ :=
    endpoint_partition fourHosts twoPublic (by simp [Netset.Disjoint, twoPublic]) (by decide)
      (by decide) (by decide) cfg hcreate Endpoints.empty 0x0a000001 0x0a000002 (by decide)
      (by decide) (by decide)
  exact ⟨cfg, shA, shB, hcreate, hA, hB, hapart⟩

end Sweetspot
