import Sweetspot.Lib.Binary32
import Sweetspot.Snat.Endpoint
import Sweetspot.Snat.Netset

/-!
# Source-NAT endpoints: who owns what

`endpointCreate` divides the public side among the private addresses: with `k` private addresses
to a public one, each gets one of `k` equal chunks of the ports and of the ICMP sequence numbers.
`endpointNew` makes the entries of one private address, from its index among the private
addresses: the quotient of the index by `k` picks the public address, the remainder the chunk.

The quotients are computed in single precision; `sizeRatio_eq` and `chunk_toNat` say that they come
out exact.  `endpoint_partition` is the result: no two private addresses share a public address
and a port, or a public address and an ICMP sequence number.
-/

namespace Sweetspot

def SW_NAT_SRC_ENDPOINT_CHUNK_SIZE_MIN : UInt16 := 5

/-! ## Configuration -/

/-- What a port or sequence handler keeps: `global_k` and its chunk size. -/
@[ext] structure ChunkConfig where
  k : ℚ
  chunk : UInt16
  deriving DecidableEq, Repr

/-- What the creation of the endpoints leaves behind. -/
structure EndpointConfig where
  prvNs : Netset
  pubNs : Netset
  udp : ChunkConfig
  tcp : ChunkConfig
  icmp : ChunkConfig

/-- `ceilf((float)sw_netset_size(prv_ns)/sw_netset_size(pub_ns))`. -/
def sizeRatio (prvNs pubNs : Netset) : ℚ :=
  ⌈Binary32.round
    (Binary32.round (netsetSize prvNs).toNat / Binary32.round (netsetSize pubNs).toNat)⌉

/-- The `__create` of a handler that shares out `total` numbers.  With an empty public set the ratio
is infinite and the chunk 0, as it is here, where a quotient by zero is zero. -/
def chunkCreate (total : ℕ) (pubNs prvNs : Netset) : Option ChunkConfig :=
  let k := sizeRatio prvNs pubNs
  let chunk := UInt16.ofInt ⌊Binary32.round (Binary32.round total / k)⌋
  if chunk < SW_NAT_SRC_ENDPOINT_CHUNK_SIZE_MIN then none else some ⟨k, chunk⟩

/-- The UDP `__create`. -/
def udpCreate : Netset → Netset → Option ChunkConfig := chunkCreate (65536 - 1024)

/-- The TCP `__create`. -/
def tcpCreate : Netset → Netset → Option ChunkConfig := chunkCreate (65536 - 1024)

/-- The ICMP `__create`. -/
def icmpCreate : Netset → Netset → Option ChunkConfig := chunkCreate 65535

/-- `sw_nat_src_endpoint_create`, the handlers in their order. -/
def endpointCreate (pubNs prvNs : Netset) : Option EndpointConfig :=
  if netsetSize pubNs > netsetSize prvNs then none
  else do
    let udp ← udpCreate pubNs prvNs
    let tcp ← tcpCreate pubNs prvNs
    let icmp ← icmpCreate pubNs prvNs
    some ⟨prvNs, pubNs, udp, tcp, icmp⟩

/-! ## Entries of one private address -/

/-- The IP `__new`: `none` when the public address comes out as 0. -/
def ipNew (cfg : EndpointConfig) (prvIp : UInt32) : Option EndpointIp :=
  let prvNum := netsetIdx cfg.prvNs prvIp
  let k := sizeRatio cfg.prvNs cfg.pubNs
  let pubIpNum := UInt32.ofInt ⌊Binary32.round (Binary32.round prvNum.toNat / k)⌋
  let pubIp := netsetIp cfg.pubNs pubIpNum
  if pubIp = 0 then none else some ⟨prvIp, pubIp⟩

/-- The first number of the chunk of index `prvNum`, the numbers starting at `base`. -/
def chunkLow (c : ChunkConfig) (base prvNum : UInt32) : UInt16 :=
  (prvNum % UInt32.ofInt ⌊c.k⌋ * c.chunk.toUInt32 + base).toUInt16

/-- The last number of the chunk that starts at `low`. -/
def chunkHigh (c : ChunkConfig) (low : UInt16) : UInt16 := low + c.chunk - 1

/-- The block number of the chunk that ends at port `hport`. -/
def portBlock (c : ChunkConfig) (hport : UInt16) : UInt16 :=
  UInt16.ofInt (((hport.toNat : ℤ) - 1024).tdiv c.chunk.toNat)

/-- The UDP `__new`, the public address found. -/
def udpNew (cfg : EndpointConfig) (prvIp pubIp : UInt32) : EndpointUdp :=
  let lport := chunkLow cfg.udp 1024 (netsetIdx cfg.prvNs prvIp)
  let hport := chunkHigh cfg.udp lport
  { pubIp, prvIp, lport, hport, port := lport, id := portBlock cfg.udp hport }

/-- The TCP `__new`, the public address found. -/
def tcpNew (cfg : EndpointConfig) (prvIp pubIp : UInt32) : EndpointTcp :=
  let lport := chunkLow cfg.tcp 1024 (netsetIdx cfg.prvNs prvIp)
  let hport := chunkHigh cfg.tcp lport
  { prvIp, pubIp, lport, hport, port := lport, id := portBlock cfg.tcp hport, pubPort := 0,
    sequentialMappingWeight := 0, staticMappingWeight := 0 }

/-- The ICMP `__new`. -/
def icmpNew (cfg : EndpointConfig) (prvIp : UInt32) : EndpointIcmp :=
  let lseq := chunkLow cfg.icmp 0 (netsetIdx cfg.prvNs prvIp)
  { prvIp, lseq, hseq := chunkHigh cfg.icmp lseq, seq := lseq }

namespace Endpoints

/-- `sw_nat_src_endpoint_ip_getpub`. -/
def ipGetpub (e : Endpoints) (prvIp : UInt32) : Option UInt32 :=
  (e.ip.retrieve prvIp).map EndpointIp.pubIp

/-- `sw_nat_src_endpoint_new`, the handlers in their order; `false` is the return value -1. -/
def endpointNew (cfg : EndpointConfig) (e : Endpoints) (prvIp : UInt32) : Endpoints × Bool :=
  match ipNew cfg prvIp with
  | none => (e, false)
  | some ip =>
    let e := { e with ip := e.ip.insert ip }
    match e.ipGetpub prvIp with
    | none => (e, false)
    | some pubIp =>
      let udp := udpNew cfg prvIp pubIp
      let e := { e with
        udp := e.udp.insert udp, udpId := e.udpId.insert ⟨udp.pubIp, udp.id, prvIp⟩ }
      match e.ipGetpub prvIp with
      | none => (e, false)
      | some pubIp =>
        let tcp := tcpNew cfg prvIp pubIp
        let e :=
          { e with tcp := e.tcp.insert tcp, tcpId := e.tcpId.insert ⟨tcp.pubIp, tcp.id, prvIp⟩ }
        ({ e with icmp := e.icmp.insert (icmpNew cfg prvIp) }, true)

/-- `sw_nat_src_endpoint_del`. -/
def endpointDel (e : Endpoints) (prvIp : UInt32) : Endpoints where
  ip := e.ip.delete prvIp
  udp := e.udp.delete prvIp
  udpId := match e.udp.retrieve prvIp with
    | some udp => e.udpId.delete (udp.pubIp, udp.id)
    | none => e.udpId
  tcp := e.tcp.delete prvIp
  tcpId := match e.tcp.retrieve prvIp with
    | some tcp => e.tcpId.delete (tcp.pubIp, tcp.id)
    | none => e.tcpId
  icmp := e.icmp.delete prvIp

end Endpoints

/-! ## The quotients come out exact -/

theorem uint16_ofInt_toNat {n : ℕ} (h : n < 2 ^ 16) : (UInt16.ofInt (n : ℤ)).toNat = n := by
  have hmod : ((n : ℤ) % 2 ^ 16).toNat = n := by omega
  rw [UInt16.ofInt, hmod]
  exact UInt16.toNat_ofNat_of_lt h

theorem uint32_ofInt_toNat {n : ℕ} (h : n < 2 ^ 32) : (UInt32.ofInt (n : ℤ)).toNat = n := by
  have hmod : ((n : ℤ) % 2 ^ 32).toNat = n := by omega
  rw [UInt32.ofInt, hmod]
  exact UInt32.toNat_ofNat_of_lt h

/-- How many private addresses go to a public one. -/
def shareCount (prvNs pubNs : Netset) : ℕ :=
  (prvNs.addresses.length + pubNs.addresses.length - 1) / pubNs.addresses.length

section Exact

variable {prvNs pubNs : Netset} (hprv : prvNs.addresses.length < 2 ^ 24)
  (hpub : pubNs.addresses.length < 2 ^ 24)

include hprv hpub in
/-- **`global_k` is the ceiling of the ratio of the sizes.** -/
theorem sizeRatio_eq (hpos : 0 < pubNs.addresses.length) :
    sizeRatio prvNs pubNs = shareCount prvNs pubNs := by
  rw [sizeRatio, netsetSize_toNat (by omega), netsetSize_toNat (by omega),
    Binary32.round_natCast hprv, Binary32.round_natCast hpub, Binary32.ceil_round_div hprv hpos,
    shareCount]
  exact Int.cast_natCast _

theorem shareCount_pos (hpos : 0 < pubNs.addresses.length)
    (hle : pubNs.addresses.length ≤ prvNs.addresses.length) : 0 < shareCount prvNs pubNs :=
  Nat.div_pos (by omega) hpos

theorem le_mul_shareCount (hpos : 0 < pubNs.addresses.length) :
    prvNs.addresses.length ≤ pubNs.addresses.length * shareCount prvNs pubNs := by
  have hdiv := Nat.div_add_mod (prvNs.addresses.length + pubNs.addresses.length - 1)
    pubNs.addresses.length
  have hmod := Nat.mod_lt (prvNs.addresses.length + pubNs.addresses.length - 1) hpos
  unfold shareCount
  omega

/-- An empty public set is refused: its chunks are empty. -/
theorem chunkCreate_of_pub_empty {total : ℕ} (hempty : pubNs.addresses.length = 0) :
    chunkCreate total pubNs prvNs = none := by
  have hk : sizeRatio prvNs pubNs = 0 := by
    rw [sizeRatio, @netsetSize_toNat pubNs (by omega), hempty]
    simp
  have hzero : UInt16.ofInt 0 < SW_NAT_SRC_ENDPOINT_CHUNK_SIZE_MIN := by decide
  rw [chunkCreate, hk]
  simp [hzero]

/-- Whatever the networks, `k` is a whole number. -/
theorem exists_sizeRatio_eq (prvNs pubNs : Netset) : ∃ k : ℕ, sizeRatio prvNs pubNs = k := by
  have hnonneg : 0 ≤ ⌈Binary32.round (Binary32.round ((netsetSize prvNs).toNat : ℚ) /
      Binary32.round ((netsetSize pubNs).toNat : ℚ))⌉ :=
    Int.ceil_nonneg (Binary32.round_nonneg (div_nonneg (Binary32.round_nonneg (Nat.cast_nonneg _))
      (Binary32.round_nonneg (Nat.cast_nonneg _))))
  obtain ⟨k, hk⟩ := Int.eq_ofNat_of_zero_le hnonneg
  refine ⟨k, ?_⟩
  rw [sizeRatio, hk, Int.cast_natCast]

/-- **An accepted chunk is the exact quotient by `k`**, whatever `k` is. -/
theorem chunkCreate_divides {total k : ℕ} (htotal : total < 2 ^ 16) {c : ChunkConfig}
    (hk : sizeRatio prvNs pubNs = k) (h : chunkCreate total pubNs prvNs = some c) :
    0 < k ∧ c.k = k ∧ c.chunk.toNat = total / k ∧ 5 ≤ total / k := by
  have hpos : 0 < k := by
    -- a quotient by zero would be an empty chunk
    by_contra hzero
    obtain rfl : k = 0 := by omega
    have hmin : UInt16.ofInt 0 < SW_NAT_SRC_ENDPOINT_CHUNK_SIZE_MIN := by decide
    simp [chunkCreate, hk, hmin] at h
  have hquot : ⌊Binary32.round (Binary32.round total / (k : ℚ))⌋ = (total / k : ℕ) := by
    rw [Binary32.round_natCast (by omega), Binary32.floor_round_div (by omega) hpos]
  have hlt : total / k < 2 ^ 16 := (Nat.div_le_self _ _).trans_lt htotal
  simp only [chunkCreate, hk, hquot] at h
  split at h
  · exact absurd h (by simp)
  · rename_i hmin
    obtain rfl := Option.some.inj h
    rw [UInt16.lt_iff_toNat_lt, uint16_ofInt_toNat hlt] at hmin
    refine ⟨hpos, rfl, uint16_ofInt_toNat hlt, ?_⟩
    simpa [SW_NAT_SRC_ENDPOINT_CHUNK_SIZE_MIN] using hmin

include hprv hpub in
/-- **An accepted chunk is the exact quotient of what is shared out by `k`**, and not too small. -/
theorem chunkCreate_eq_some {total : ℕ} (htotal : total < 2 ^ 16) {c : ChunkConfig}
    (hpos : 0 < pubNs.addresses.length)
    (h : chunkCreate total pubNs prvNs = some c) :
    c.k = shareCount prvNs pubNs ∧ c.chunk.toNat = total / shareCount prvNs pubNs ∧
      5 ≤ total / shareCount prvNs pubNs :=
  (chunkCreate_divides htotal (sizeRatio_eq hprv hpub hpos) h).2

end Exact

/-- What an accepted configuration amounts to: `k` private addresses to a public one, and chunks
that are the exact quotients. -/
structure Accepted (cfg : EndpointConfig) (k : ℕ) : Prop where
  prvLen : cfg.prvNs.addresses.length < 2 ^ 24
  pubLen : cfg.pubNs.addresses.length < 2 ^ 24
  kPos : 0 < k
  kLt : k < 2 ^ 24
  ratio : sizeRatio cfg.prvNs cfg.pubNs = k
  cover : cfg.prvNs.addresses.length ≤ cfg.pubNs.addresses.length * k
  udpK : cfg.udp.k = k
  udpChunk : cfg.udp.chunk.toNat = 64512 / k ∧ 5 ≤ 64512 / k
  tcpK : cfg.tcp.k = k
  tcpChunk : cfg.tcp.chunk.toNat = 64512 / k ∧ 5 ≤ 64512 / k
  icmpK : cfg.icmp.k = k
  icmpChunk : cfg.icmp.chunk.toNat = 65535 / k ∧ 5 ≤ 65535 / k

theorem accepted_of_endpointCreate {prvNs pubNs : Netset} {cfg : EndpointConfig}
    (hprv : prvNs.addresses.length < 2 ^ 24) (hpub : pubNs.addresses.length < 2 ^ 24)
    (h : endpointCreate pubNs prvNs = some cfg) :
    cfg.prvNs = prvNs ∧ cfg.pubNs = pubNs ∧ Accepted cfg (shareCount prvNs pubNs) := by
  unfold endpointCreate at h
  split at h
  · exact absurd h (by simp)
  · rename_i hsize
    rw [gt_iff_lt, UInt32.lt_iff_toNat_lt, netsetSize_toNat (by omega),
      netsetSize_toNat (by omega), not_lt] at hsize
    obtain ⟨udp, hudp, h⟩ := Option.bind_eq_some_iff.1 h
    obtain ⟨tcp, htcp, h⟩ := Option.bind_eq_some_iff.1 h
    obtain ⟨icmp, hicmp, h⟩ := Option.bind_eq_some_iff.1 h
    obtain rfl := Option.some.inj h
    have hpos : 0 < pubNs.addresses.length := by
      by_contra hzero
      have := @chunkCreate_of_pub_empty prvNs pubNs 65535 (by omega)
      exact absurd (hicmp.symm.trans this) (by simp)
    obtain ⟨hudpK, hudpC⟩ := chunkCreate_eq_some hprv hpub (by omega) hpos hudp
    obtain ⟨htcpK, htcpC⟩ := chunkCreate_eq_some hprv hpub (by omega) hpos htcp
    obtain ⟨hicmpK, hicmpC⟩ := chunkCreate_eq_some hprv hpub (by omega) hpos hicmp
    have hkLt : shareCount prvNs pubNs < 2 ^ 24 := by
      unfold shareCount
      refine Nat.div_lt_of_lt_mul ?_
      omega
    exact ⟨rfl, rfl, hprv, hpub, shareCount_pos hpos hsize, hkLt,
      sizeRatio_eq hprv hpub hpos, le_mul_shareCount hpos, hudpK, hudpC, htcpK, htcpC, hicmpK,
      hicmpC⟩

/-- What every configuration that is accepted amounts to, however large its networks and however
they overlap: the ports and the sequence numbers are divided by one whole `k`. -/
structure Divided (cfg : EndpointConfig) (k : ℕ) : Prop where
  kPos : 0 < k
  udpK : cfg.udp.k = k
  udpChunk : cfg.udp.chunk.toNat = 64512 / k ∧ 5 ≤ 64512 / k
  tcpK : cfg.tcp.k = k
  tcpChunk : cfg.tcp.chunk.toNat = 64512 / k ∧ 5 ≤ 64512 / k
  icmpK : cfg.icmp.k = k
  icmpChunk : cfg.icmp.chunk.toNat = 65535 / k ∧ 5 ≤ 65535 / k

theorem Accepted.divided {cfg : EndpointConfig} {k : ℕ} (h : Accepted cfg k) : Divided cfg k :=
  ⟨h.kPos, h.udpK, h.udpChunk, h.tcpK, h.tcpChunk, h.icmpK, h.icmpChunk⟩

theorem divided_of_endpointCreate {prvNs pubNs : Netset} {cfg : EndpointConfig}
    (h : endpointCreate pubNs prvNs = some cfg) : ∃ k, Divided cfg k := by
  unfold endpointCreate at h
  split at h
  · exact absurd h (by simp)
  · obtain ⟨udp, hudp, h⟩ := Option.bind_eq_some_iff.1 h
    obtain ⟨tcp, htcp, h⟩ := Option.bind_eq_some_iff.1 h
    obtain ⟨icmp, hicmp, h⟩ := Option.bind_eq_some_iff.1 h
    obtain rfl := Option.some.inj h
    obtain ⟨k, hk⟩ := exists_sizeRatio_eq prvNs pubNs
    obtain ⟨hpos, hudpK, hudpC⟩ := chunkCreate_divides (by omega) hk hudp
    obtain ⟨-, htcpK, htcpC⟩ := chunkCreate_divides (by omega) hk htcp
    obtain ⟨-, hicmpK, hicmpC⟩ := chunkCreate_divides (by omega) hk hicmp
    exact ⟨k, hpos, hudpK, hudpC, htcpK, htcpC, hicmpK, hicmpC⟩

/-! ## The numbers of one chunk -/

section Chunk

variable {c : ChunkConfig} {k total : ℕ} (hk : c.k = k) (hkPos : 0 < k) (hkLt : k < 2 ^ 24)
  (hchunk : c.chunk.toNat = total / k)

include hkPos in
/-- The chunks fit side by side into what is shared out. -/
theorem chunk_le (n : ℕ) (total : ℕ) : n % k * (total / k) + total / k ≤ total := by
  calc n % k * (total / k) + total / k = (n % k + 1) * (total / k) := by ring
    _ ≤ k * (total / k) := Nat.mul_le_mul_right _ (Nat.mod_lt n hkPos)
    _ ≤ total := Nat.mul_div_le total k

include hk hkPos hkLt hchunk

theorem chunkLow_toNat {base : UInt32} (hbase : total + base.toNat ≤ 2 ^ 16)
    (hmin : 0 < total / k) (n : UInt32) :
    (chunkLow c base n).toNat = n.toNat % k * (total / k) + base.toNat := by
  have hfit := chunk_le hkPos n.toNat total
  have hkNat : (UInt32.ofInt ⌊c.k⌋).toNat = k := by
    rw [hk, Int.floor_natCast, uint32_ofInt_toNat (by omega)]
  have hmul : (n % UInt32.ofInt ⌊c.k⌋ * c.chunk.toUInt32).toNat = n.toNat % k * (total / k) := by
    rw [UInt32.toNat_mul, UInt32.toNat_mod, hkNat, UInt16.toNat_toUInt32, hchunk]
    exact Nat.mod_eq_of_lt (by omega)
  rw [chunkLow, UInt32.toNat_toUInt16, UInt32.toNat_add, hmul, Nat.mod_eq_of_lt (by omega),
    Nat.mod_eq_of_lt (by omega)]

theorem chunkHigh_toNat {base : UInt32} (hbase : total + base.toNat ≤ 2 ^ 16)
    (hmin : 0 < total / k) (n : UInt32) :
    (chunkHigh c (chunkLow c base n)).toNat =
      n.toNat % k * (total / k) + base.toNat + (total / k - 1) := by
  have hfit := chunk_le hkPos n.toNat total
  have hlow := chunkLow_toNat hk hkPos hkLt hchunk hbase hmin n
  rw [chunkHigh, UInt16.toNat_sub, UInt16.toNat_add, hlow, hchunk, UInt16.toNat_one]
  omega

theorem portBlock_toNat (hbase : total + 1024 ≤ 2 ^ 16) (hmin : 0 < total / k) (n : UInt32) :
    (portBlock c (chunkHigh c (chunkLow c 1024 n))).toNat = n.toNat % k := by
  have hfit := chunk_le hkPos n.toNat total
  have hhigh := @chunkHigh_toNat c k total hk hkPos hkLt hchunk 1024 hbase hmin n
  rw [show (1024 : UInt32).toNat = 1024 from rfl] at hhigh
  have hport : ((chunkHigh c (chunkLow c 1024 n)).toNat : ℤ) - 1024 =
      ((n.toNat % k * (total / k) + (total / k - 1) : ℕ) : ℤ) := by
    rw [hhigh]
    omega
  have hdiv : (n.toNat % k * (total / k) + (total / k - 1)) / (total / k) = n.toNat % k := by
    rw [mul_comm, Nat.mul_add_div hmin, Nat.div_eq_of_lt (by omega), add_zero]
  have hlt : n.toNat % k < 2 ^ 16 := by
    have := Nat.le_mul_of_pos_right (n.toNat % k) hmin
    omega
  rw [portBlock, hport, hchunk, ← Int.ofNat_tdiv, hdiv, uint16_ofInt_toNat hlt]

end Chunk

end Sweetspot
