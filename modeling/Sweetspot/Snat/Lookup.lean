import Sweetspot.Lib.ReverseIndex
import Sweetspot.Snat.Cursor

/-!
# Source-NAT endpoints: from a public port back to its owner

The TCP and the UDP handler find the private address behind a public address and port through the
index by port block.

* `tcpGetprv`, `udpGetprv`: the lookups.
* `Placed`: every entry stays as it was made, but for its cursor and weights.
* `reverse`: a handler's tables are a reverse index, with the public address and the port block of
  an address for its home; `reverse_exec` says that the calls on them are those on the index.
* `endpointGetprv_exact_iff`: at which public addresses and ports the lookup is exact;
  `lookupExact_of_disjoint`: with public networks that do not overlap, from port 1024 on.

The quotient is taken of `port - 1024` in signed arithmetic, which truncates toward zero.  So the
block of a port just below 1024 is the first one, not none.
-/

namespace Sweetspot

/-- The protocols whose handlers share out ports. -/
inductive PortProto
  | tcp | udp
  deriving DecidableEq, Repr

/-- The fields a TCP and a UDP entry have in common and keep. -/
@[ext] structure PortEntry where
  prvIp : UInt32
  pubIp : UInt32
  lport : UInt16
  hport : UInt16
  id : UInt16
  deriving DecidableEq, Repr

def EndpointTcp.portEntry (e : EndpointTcp) : PortEntry :=
  ⟨e.prvIp, e.pubIp, e.lport, e.hport, e.id⟩

def EndpointUdp.portEntry (e : EndpointUdp) : PortEntry :=
  ⟨e.prvIp, e.pubIp, e.lport, e.hport, e.id⟩

/-- The port is in the range of the entry. -/
def PortEntry.Covers (x : PortEntry) (port : UInt16) : Prop := x.lport ≤ port ∧ port ≤ x.hport

/-- The chunks of a handler. -/
def EndpointConfig.ports (cfg : EndpointConfig) : PortProto → ChunkConfig
  | .tcp => cfg.tcp
  | .udp => cfg.udp

/-- The entry a handler makes for an address, if that is given a public address. -/
def newPort (cfg : EndpointConfig) (proto : PortProto) (a : UInt32) : Option PortEntry :=
  (ipNew cfg a).map fun ip =>
    match proto with
    | .tcp => (tcpNew cfg a ip.pubIp).portEntry
    | .udp => (udpNew cfg a ip.pubIp).portEntry

theorem newPort_tcp {cfg : EndpointConfig} {a : UInt32} {ip : EndpointIp}
    (h : ipNew cfg a = some ip) :
    newPort cfg .tcp a = some (tcpNew cfg a ip.pubIp).portEntry := by
  rw [newPort, h, Option.map_some]

theorem newPort_udp {cfg : EndpointConfig} {a : UInt32} {ip : EndpointIp}
    (h : ipNew cfg a = some ip) :
    newPort cfg .udp a = some (udpNew cfg a ip.pubIp).portEntry := by
  rw [newPort, h, Option.map_some]

namespace Endpoints

/-- `sw_nat_src_endpoint_tcp_getprv`; `none` is the return value -1. -/
def tcpGetprv (cfg : EndpointConfig) (e : Endpoints) (pubIp : UInt32) (pubPort : UInt16) :
    Option UInt32 :=
  (e.tcpId.retrieve (pubIp, portBlock cfg.tcp pubPort)).map EndpointId.prvIp

/-- `sw_nat_src_endpoint_udp_getprv`. -/
def udpGetprv (cfg : EndpointConfig) (e : Endpoints) (pubIp : UInt32) (pubPort : UInt16) :
    Option UInt32 :=
  (e.udpId.retrieve (pubIp, portBlock cfg.udp pubPort)).map EndpointId.prvIp

/-- The lookup of a handler. -/
def getprv (cfg : EndpointConfig) (e : Endpoints) :
    PortProto → UInt32 → UInt16 → Option UInt32
  | .tcp => e.tcpGetprv cfg
  | .udp => e.udpGetprv cfg

/-- The entry of an address in a handler's table. -/
def portEntry (e : Endpoints) : PortProto → UInt32 → Option PortEntry
  | .tcp, a => (e.tcp.retrieve a).map EndpointTcp.portEntry
  | .udp, a => (e.udp.retrieve a).map EndpointUdp.portEntry

/-- The index of a handler. -/
def portIndex (e : Endpoints) : PortProto → KeyedTable idComparator EndpointId.key
  | .tcp => e.tcpId
  | .udp => e.udpId

theorem getprv_eq (cfg : EndpointConfig) (e : Endpoints) (proto : PortProto) (pubIp : UInt32)
    (pubPort : UInt16) : e.getprv cfg proto pubIp pubPort =
      ((e.portIndex proto).retrieve (pubIp, portBlock (cfg.ports proto) pubPort)).map
        EndpointId.prvIp := by
  cases proto <;> rfl

/-! ## What the calls do to a handler's tables -/

section Calls

variable {cfg : EndpointConfig} {e : Endpoints} {a b : UInt32} {proto : PortProto}
  {k : UInt32 × UInt16}

theorem portEntry_new {x : PortEntry} (h : newPort cfg proto a = some x) :
    (e.exec cfg (.new a)).portEntry proto b = if b = a then some x else e.portEntry proto b := by
  obtain ⟨ip, hip, hx⟩ := Option.map_eq_some_iff.1 h
  have hentries := @entries_endpointNew cfg e a b (by rw [hip]; rfl)
  rw [exec]
  cases proto with
  | tcp =>
    have htcp := congrArg Entries.tcp hentries
    simp only [entries] at htcp
    rw [portEntry, htcp]
    split
    · rw [Entries.new, hip, ← hx, Option.map_some]
    · rfl
  | udp =>
    have hudp := congrArg Entries.udp hentries
    simp only [entries] at hudp
    rw [portEntry, hudp]
    split
    · rw [Entries.new, hip, ← hx, Option.map_some]
    · rfl

theorem portIndex_new {x : PortEntry} (h : newPort cfg proto a = some x) :
    ((e.exec cfg (.new a)).portIndex proto).retrieve k =
      if k = (x.pubIp, x.id) then some ⟨x.pubIp, x.id, a⟩
      else (e.portIndex proto).retrieve k := by
  obtain ⟨ip, hip, hx⟩ := Option.map_eq_some_iff.1 h
  rw [exec, endpointNew_eq e hip]
  cases proto with
  | tcp =>
    obtain rfl : (tcpNew cfg a ip.pubIp).portEntry = x := hx
    simp only [portIndex, KeyedTable.retrieve_insert_ite idComparator_comp, EndpointId.key,
      eq_comm (a := k)]
    rfl
  | udp =>
    obtain rfl : (udpNew cfg a ip.pubIp).portEntry = x := hx
    simp only [portIndex, KeyedTable.retrieve_insert_ite idComparator_comp, EndpointId.key,
      eq_comm (a := k)]
    rfl

theorem exec_new_refused (h : newPort cfg proto a = none) : e.exec cfg (.new a) = e := by
  rw [exec, endpointNew_refused (Option.map_eq_none_iff.1 h)]

theorem portEntry_del : (e.exec cfg (.del a)).portEntry proto b =
    if b = a then none else e.portEntry proto b := by
  cases proto <;>
    · simp only [exec, endpointDel, portEntry, KeyedTable.retrieve_delete_ite ipComparator_comp]
      split <;> rfl

theorem portIndex_del {x : PortEntry} (h : e.portEntry proto a = some x) :
    ((e.exec cfg (.del a)).portIndex proto).retrieve k =
      if k = (x.pubIp, x.id) then none else (e.portIndex proto).retrieve k := by
  cases proto with
  | tcp =>
    obtain ⟨y, hy, rfl⟩ := Option.map_eq_some_iff.1 h
    simp only [exec, endpointDel, portIndex, hy]
    exact KeyedTable.retrieve_delete_ite idComparator_comp _ _ _
  | udp =>
    obtain ⟨y, hy, rfl⟩ := Option.map_eq_some_iff.1 h
    simp only [exec, endpointDel, portIndex, hy]
    exact KeyedTable.retrieve_delete_ite idComparator_comp _ _ _

theorem portIndex_del_of_none (h : e.portEntry proto a = none) :
    (e.exec cfg (.del a)).portIndex proto = e.portIndex proto := by
  cases proto with
  | tcp =>
    have hnone := Option.map_eq_none_iff.1 h
    simp only [exec, endpointDel, portIndex, hnone]
  | udp =>
    have hnone := Option.map_eq_none_iff.1 h
    simp only [exec, endpointDel, portIndex, hnone]

/-- An assignment moves cursors and weights only. -/
theorem portEntry_assign (as bs : Chain) (prvIp : UInt32) (proto : PortProto) (a : UInt32) :
    (e.exec cfg (.assign as bs prvIp)).portEntry proto a = e.portEntry proto a := by
  refine endpointAssign_invariant (P := fun e' => e'.portEntry proto a = e.portEntry proto a)
    ?_ ?_ ?_ as bs prvIp e rfl
  · intro e' b ep hep heq
    rw [← heq]
    cases proto with
    | tcp => rfl
    | udp =>
      rw [portEntry, portEntry, KeyedTable.retrieve_insert_ite ipComparator_comp]
      split
      · rename_i hself
        obtain rfl : b = a := (ip_key hep).symm.trans hself
        rw [hep]
        rfl
      · rfl
  · intro e' b ep pubPort hep heq
    rw [← heq]
    cases proto with
    | udp => rfl
    | tcp =>
      rw [portEntry, portEntry, KeyedTable.retrieve_insert_ite ipComparator_comp]
      split
      · rename_i hself
        obtain rfl : b = a := (ip_key hep).symm.trans hself
        rw [hep]
        rfl
      · rfl
  · intro e' b ep hep heq
    rw [← heq]
    cases proto <;> rfl

theorem portIndex_assign (as bs : Chain) (prvIp : UInt32) (proto : PortProto) :
    (e.exec cfg (.assign as bs prvIp)).portIndex proto = e.portIndex proto := by
  refine endpointAssign_invariant (P := fun e' => e'.portIndex proto = e.portIndex proto)
    ?_ ?_ ?_ as bs prvIp e rfl
  all_goals
    intros
    cases proto <;> assumption

end Calls

/-! ## Entries stay as they were made -/

/-- Every entry is the one made for its address. -/
def Placed (cfg : EndpointConfig) (e : Endpoints) : Prop :=
  ∀ proto a x, e.portEntry proto a = some x → newPort cfg proto a = some x

theorem placed_empty (cfg : EndpointConfig) : Placed cfg empty := by
  intro proto a x h
  cases proto <;> cases h

theorem placed_exec {cfg : EndpointConfig} {e : Endpoints} (op : EndpointOp) (h : Placed cfg e) :
    Placed cfg (e.exec cfg op) := by
  intro proto b x hx
  cases op with
  | new a =>
    cases hnew : newPort cfg proto a with
    | none =>
      rw [exec_new_refused hnew] at hx
      exact h proto b x hx
    | some y =>
      rw [portEntry_new hnew] at hx
      split at hx
      · obtain rfl := Option.some.inj hx
        rwa [‹b = a›]
      · exact h proto b x hx
  | del a =>
    rw [portEntry_del] at hx
    split at hx
    · cases hx
    · exact h proto b x hx
  | assign as bs prvIp =>
    rw [portEntry_assign] at hx
    exact h proto b x hx

end Endpoints

/-! ## Blocks and ranges -/

section Blocks

variable {cfg : EndpointConfig} {k : ℕ} (hcfg : Divided cfg k) {proto : PortProto} {a : UInt32}
  {x : PortEntry}
include hcfg

theorem chunk_pos (proto : PortProto) : 0 < (cfg.ports proto).chunk.toNat := by
  have := hcfg.udp_pos
  cases proto with
  | tcp => rwa [EndpointConfig.ports, hcfg.tcpChunk.1]
  | udp => rwa [EndpointConfig.ports, hcfg.udpChunk.1]

/-- The range of an entry begins where its block does and ends with it. -/
theorem newPort_exact (h : newPort cfg proto a = some x) :
    x.lport.toNat = x.id.toNat * (cfg.ports proto).chunk.toNat + 1024 ∧
    x.hport.toNat = x.lport.toNat + ((cfg.ports proto).chunk.toNat - 1) := by
  obtain ⟨ip, hip, rfl⟩ := Option.map_eq_some_iff.1 h
  have hexact := hcfg.exact a ip
  cases proto with
  | tcp =>
    have hlow := hexact.tcpLport
    have hhigh := hexact.tcpHport
    have hid := hexact.tcpId
    simp only [EndpointTcp.portEntry, EndpointConfig.ports, hcfg.tcpChunk.1] at *
    rw [hlow, hhigh, hid]
    exact ⟨rfl, rfl⟩
  | udp =>
    have hlow := hexact.udpLport
    have hhigh := hexact.udpHport
    have hid := hexact.udpId
    simp only [EndpointUdp.portEntry, EndpointConfig.ports, hcfg.udpChunk.1] at *
    rw [hlow, hhigh, hid]
    exact ⟨rfl, rfl⟩

omit hcfg in
theorem portBlock_toNat_of_le {c : ChunkConfig} {port : UInt16} (h : 1024 ≤ port.toNat) :
    (portBlock c port).toNat = (port.toNat - 1024) / c.chunk.toNat := by
  have hlt : (port.toNat - 1024) / c.chunk.toNat < 2 ^ 16 := by
    have := Nat.div_le_self (port.toNat - 1024) c.chunk.toNat
    have := port.toNat_lt
    omega
  rw [portBlock, show ((port.toNat : ℤ) - 1024) = ((port.toNat - 1024 : ℕ) : ℤ) by omega,
    ← Int.ofNat_tdiv, uint16_ofInt_toNat hlt]

/-- **The range test and the block test agree from port 1024 on.** -/
theorem covers_iff (h : newPort cfg proto a = some x) (port : UInt16) :
    x.Covers port ↔ x.id = portBlock (cfg.ports proto) port ∧ 1024 ≤ port.toNat := by
  obtain ⟨hlow, hhigh⟩ := newPort_exact hcfg h
  have hpos := chunk_pos hcfg proto
  rw [PortEntry.Covers, UInt16.le_iff_toNat_le, UInt16.le_iff_toNat_le, hhigh, hlow]
  by_cases hport : 1024 ≤ port.toNat
  · rw [← UInt16.toNat_inj, portBlock_toNat_of_le hport, eq_comm, Nat.div_eq_iff hpos]
    omega
  · refine iff_of_false ?_ fun hblock => hport hblock.2
    omega

end Blocks

namespace Endpoints

/-! ## A handler's tables as a reverse index -/

/-- The public address and the block of an address. -/
def home (cfg : EndpointConfig) (proto : PortProto) (a : UInt32) : UInt32 × UInt16 :=
  (newPort cfg proto a).elim (0, 0) fun x => (x.pubIp, x.id)

/-- Who has an entry, and whom the index names. -/
def reverse (e : Endpoints) (proto : PortProto) : ReverseIndex UInt32 (UInt32 × UInt16) where
  present a := (e.portEntry proto a).isSome
  owner k := ((e.portIndex proto).retrieve k).map EndpointId.prvIp

section Reverse

variable {cfg : EndpointConfig} {e : Endpoints} {a : UInt32} {proto : PortProto}

@[simp] theorem reverse_present : (e.reverse proto).present a ↔ (e.portEntry proto a).isSome :=
  Iff.rfl

@[simp] theorem reverse_owner {k : UInt32 × UInt16} : (e.reverse proto).owner k =
    ((e.portIndex proto).retrieve k).map EndpointId.prvIp :=
  rfl

theorem home_eq {x : PortEntry} (h : newPort cfg proto a = some x) :
    home cfg proto a = (x.pubIp, x.id) := by
  rw [home, h, Option.elim_some]

theorem reverse_new {x : PortEntry} (h : newPort cfg proto a = some x) :
    (e.exec cfg (.new a)).reverse proto = (e.reverse proto).put (home cfg proto) a := by
  ext b
  · rw [ReverseIndex.present_put, reverse_present, reverse_present, portEntry_new h]
    by_cases hb : b = a <;> simp [hb]
  · rw [ReverseIndex.owner_put, home_eq h, reverse_owner, reverse_owner, portIndex_new h]
    by_cases hk : b = (x.pubIp, x.id) <;> simp [hk]

theorem reverse_del (hplaced : Placed cfg e) :
    (e.exec cfg (.del a)).reverse proto = (e.reverse proto).drop (home cfg proto) a := by
  cases ha : e.portEntry proto a with
  | none =>
    have habsent : ¬ (e.reverse proto).present a := by simp [reverse, ha]
    rw [ReverseIndex.drop_of_not_present habsent]
    ext b
    · rw [reverse_present, reverse_present, portEntry_del]
      by_cases hb : b = a
      · simp [hb, ha]
      · simp [hb]
    · rw [reverse_owner, reverse_owner, portIndex_del_of_none ha]
  | some x =>
    have hpresent : (e.reverse proto).present a := by simp [reverse, ha]
    ext b
    · rw [ReverseIndex.present_drop, reverse_present, reverse_present, portEntry_del]
      by_cases hb : b = a <;> simp [hb]
    · rw [ReverseIndex.owner_drop_of_present hpresent, home_eq (hplaced proto a x ha),
        reverse_owner, reverse_owner, portIndex_del ha]
      by_cases hk : b = (x.pubIp, x.id) <;> simp [hk]

theorem reverse_assign (as bs : Chain) (prvIp : UInt32) :
    (e.exec cfg (.assign as bs prvIp)).reverse proto = e.reverse proto := by
  ext b
  · rw [reverse_present, reverse_present, portEntry_assign]
  · rw [reverse_owner, reverse_owner, portIndex_assign]

end Reverse

/-! ## Exactness -/

/-- The lookup finds exactly who owns the public address and port. -/
def LookupExact (cfg : EndpointConfig) (proto : PortProto) (pubIp : UInt32) (pubPort : UInt16)
    (e : Endpoints) : Prop :=
  ∀ p, e.getprv cfg proto pubIp pubPort = some p ↔
    ∃ x, e.portEntry proto p = some x ∧ x.pubIp = pubIp ∧ x.Covers pubPort

/-- If the call makes an entry with this public address and the block of this port, the port is one
of those shared out, and no other address has an entry with that public address and block. -/
def Clear (cfg : EndpointConfig) (proto : PortProto) (pubIp : UInt32) (pubPort : UInt16)
    (e : Endpoints) (op : EndpointOp) : Prop :=
  ∀ a x, op = .new a → newPort cfg proto a = some x → x.pubIp = pubIp →
    x.id = portBlock (cfg.ports proto) pubPort →
    1024 ≤ pubPort.toNat ∧
      ∀ b y, e.portEntry proto b = some y → y.pubIp = x.pubIp → y.id = x.id → b = a

section Exact

variable {cfg : EndpointConfig} {k : ℕ} (hcfg : Divided cfg k) {e : Endpoints}
  (hplaced : Placed cfg e) {proto : PortProto} {pubIp : UInt32} {pubPort : UInt16}

include hplaced in
theorem present_home_iff {a : UInt32} {key : UInt32 × UInt16} :
    (e.reverse proto).present a ∧ home cfg proto a = key ↔
      ∃ x, e.portEntry proto a = some x ∧ x.pubIp = key.1 ∧ x.id = key.2 := by
  rw [reverse_present, Option.isSome_iff_exists]
  constructor
  · rintro ⟨⟨x, hx⟩, rfl⟩
    rw [home_eq (hplaced proto a x hx)]
    exact ⟨x, hx, rfl, rfl⟩
  · rintro ⟨x, hx, hip, hid⟩
    rw [home_eq (hplaced proto a x hx), hip, hid]
    exact ⟨⟨x, hx⟩, rfl⟩

include hcfg hplaced

/-- From port 1024 on the lookup is exact where the index is. -/
theorem lookupExact_of_le (hport : 1024 ≤ pubPort.toNat) :
    LookupExact cfg proto pubIp pubPort e ↔ (e.reverse proto).ExactAt (home cfg proto)
      (pubIp, portBlock (cfg.ports proto) pubPort) := by
  refine forall_congr' fun p => iff_congr ?_ ?_
  · rw [getprv_eq, reverse_owner]
  · rw [present_home_iff hplaced]
    refine exists_congr fun x => and_congr_right fun hx => and_congr_right fun _ => ?_
    rw [covers_iff hcfg (hplaced proto p x hx), and_iff_left hport]

/-- Below it nobody is an owner, and nobody may be found. -/
theorem lookupExact_of_lt (hport : ¬ 1024 ≤ pubPort.toNat) :
    LookupExact cfg proto pubIp pubPort e ↔
      (e.reverse proto).owner (pubIp, portBlock (cfg.ports proto) pubPort) = none := by
  have hnone : ∀ p,
      ¬ ∃ x, e.portEntry proto p = some x ∧ x.pubIp = pubIp ∧ x.Covers pubPort := by
    rintro p ⟨x, hx, -, hcovers⟩
    exact hport ((covers_iff hcfg (hplaced proto p x hx) _).1 hcovers).2
  rw [Option.eq_none_iff_forall_ne_some]
  refine forall_congr' fun p => ?_
  rw [iff_false_right (hnone p), getprv_eq, reverse_owner]

/-- **One call** keeps the lookup exact exactly if it is clear. -/
theorem lookupExact_exec_iff (hexact : LookupExact cfg proto pubIp pubPort e) (op : EndpointOp) :
    LookupExact cfg proto pubIp pubPort (e.exec cfg op) ↔ Clear cfg proto pubIp pubPort e op := by
  have hplaced' := placed_exec op hplaced
  cases op with
  | new a =>
    cases hnew : newPort cfg proto a with
    | none =>
      rw [exec_new_refused hnew]
      refine iff_of_true hexact ?_
      rintro _ x ⟨⟩ hx
      rw [hnew] at hx
      cases hx
    | some x =>
      have hkey : home cfg proto a = (pubIp, portBlock (cfg.ports proto) pubPort) ↔
          x.pubIp = pubIp ∧ x.id = portBlock (cfg.ports proto) pubPort := by
        rw [home_eq hnew, Prod.mk.injEq]
      by_cases hport : 1024 ≤ pubPort.toNat
      · rw [lookupExact_of_le hcfg hplaced hport] at hexact
        rw [lookupExact_of_le hcfg hplaced' hport, reverse_new hnew,
          ReverseIndex.exactAt_put hexact]
        constructor
        · rintro halone _ _ ⟨⟩ hx hip hid
          obtain rfl := Option.some.inj (hnew.symm.trans hx)
          refine ⟨hport, fun b y hy hyip hyid => ?_⟩
          have hhome : home cfg proto b = (pubIp, portBlock (cfg.ports proto) pubPort) := by
            rw [home_eq (hplaced proto b y hy), hyip, hip, hyid, hid]
          exact halone (hkey.2 ⟨hip, hid⟩) b (by simp [hy]) hhome
        · intro hclear hhome b hb hbk
          obtain ⟨hip, hid⟩ := hkey.1 hhome
          obtain ⟨y, hy, hyip, hyid⟩ := (present_home_iff hplaced).1 ⟨hb, hbk⟩
          exact (hclear a x rfl hnew hip hid).2 b y hy (hyip.trans hip.symm)
            (hyid.trans hid.symm)
      · rw [lookupExact_of_lt hcfg hplaced hport] at hexact
        rw [lookupExact_of_lt hcfg hplaced' hport, reverse_new hnew,
          ReverseIndex.owner_put_eq_none hexact]
        constructor
        · rintro hne _ _ ⟨⟩ hx hip hid
          obtain rfl := Option.some.inj (hnew.symm.trans hx)
          exact absurd (hkey.2 ⟨hip, hid⟩) hne
        · intro hclear hhome
          obtain ⟨hip, hid⟩ := hkey.1 hhome
          exact hport (hclear a x rfl hnew hip hid).1
  | del a =>
    refine iff_of_true ?_ (by rintro _ _ ⟨⟩)
    by_cases hport : 1024 ≤ pubPort.toNat
    · rw [lookupExact_of_le hcfg hplaced hport] at hexact
      rw [lookupExact_of_le hcfg hplaced' hport, reverse_del hplaced]
      exact ReverseIndex.exactAt_drop hexact
    · rw [lookupExact_of_lt hcfg hplaced hport] at hexact
      rw [lookupExact_of_lt hcfg hplaced' hport, reverse_del hplaced]
      exact ReverseIndex.owner_drop_eq_none hexact
  | assign as bs prvIp =>
    refine iff_of_true ?_ (by rintro _ _ ⟨⟩)
    by_cases hport : 1024 ≤ pubPort.toNat
    · rw [lookupExact_of_le hcfg hplaced hport] at hexact
      rwa [lookupExact_of_le hcfg hplaced' hport, reverse_assign]
    · rw [lookupExact_of_lt hcfg hplaced hport] at hexact
      rwa [lookupExact_of_lt hcfg hplaced' hport, reverse_assign]

end Exact

theorem lookupExact_empty (cfg : EndpointConfig) (proto : PortProto) (pubIp : UInt32)
    (pubPort : UInt16) : LookupExact cfg proto pubIp pubPort empty := by
  intro p
  cases proto <;>
    · refine iff_of_false (by rintro ⟨⟩) ?_
      rintro ⟨x, hx, -⟩
      cases hx

/-- **Reverse endpoint lookup.**  In every accepted configuration, for every handler, every public
address and every port, and whatever calls follow one another: the lookup is exact after each of
them exactly if each of them is clear. -/
theorem endpointGetprv_exact_iff (pubNs prvNs : Netset) (cfg : EndpointConfig)
    (hcreate : endpointCreate pubNs prvNs = some cfg) (ops : List EndpointOp) (e : Endpoints)
    (hrun : Run (Step cfg) empty ops e) (proto : PortProto) (pubIp : UInt32) (pubPort : UInt16) :
    Run.Always (Step cfg) (LookupExact cfg proto pubIp pubPort) empty ops ↔
      Run.Guarded (Step cfg) (Clear cfg proto pubIp pubPort) empty ops := by
  obtain ⟨k, hcfg⟩ := divided_of_endpointCreate hcreate
  refine Run.always_iff_guarded
    (I := fun e => Placed cfg e ∧ LookupExact cfg proto pubIp pubPort e) ?_ ?_ ?_ ?_ hrun
    ⟨placed_empty cfg, lookupExact_empty cfg proto pubIp pubPort⟩
  · rintro _ _ _ _ rfl rfl
    rfl
  · exact fun _ h => h.2
  · rintro e op _ rfl hclear ⟨hplaced, hexact⟩
    exact ⟨placed_exec op hplaced, (lookupExact_exec_iff hcfg hplaced hexact op).2 hclear⟩
  · rintro e op _ rfl ⟨hplaced, hexact⟩ hexact'
    exact (lookupExact_exec_iff hcfg hplaced hexact op).1 hexact'

/-! ### The first of four hosts -/

theorem endpointGetprv_exact_iff_firstHost :
    ∃ cfg, endpointCreate twoPublic fourHosts = some cfg ∧
      (Run.Always (Step cfg) (LookupExact cfg .udp 0xc0000201 1024) empty [.new 0x0a000001] ↔
        Run.Guarded (Step cfg) (Clear cfg .udp 0xc0000201 1024) empty [.new 0x0a000001]) := by
  obtain ⟨cfg, hcreate⟩ := Option.isSome_iff_exists.1
    (show (endpointCreate twoPublic fourHosts).isSome by decide +kernel)
  exact ⟨cfg, hcreate, endpointGetprv_exact_iff twoPublic fourHosts cfg hcreate
    [.new 0x0a000001] _ (Run.of_foldl _ _ _) .udp 0xc0000201 1024⟩

/-- It is found behind port 1023, too. -/
theorem endpointGetprv_belowFirst : ¬ ∀ (pubNs prvNs : Netset) (cfg : EndpointConfig),
    endpointCreate pubNs prvNs = some cfg → ∀ (ops : List EndpointOp) (e : Endpoints),
    Run (Step cfg) empty ops e → ∀ (proto : PortProto) (pubIp : UInt32) (pubPort : UInt16),
    LookupExact cfg proto pubIp pubPort e := by
  intro hclaim
  have hfirst : ((endpointCreate twoPublic fourHosts).bind fun cfg =>
      (newPort cfg .udp 0x0a000001).bind fun x =>
        if x.id = portBlock cfg.udp 1023 then some () else none).isSome := by
    decide +kernel
  obtain ⟨_, hfirst⟩ := Option.isSome_iff_exists.1 hfirst
  obtain ⟨cfg, hcreate, hfirst⟩ := Option.bind_eq_some_iff.1 hfirst
  obtain ⟨x, hx, hid⟩ := Option.bind_eq_some_iff.1 hfirst
  have hid : x.id = portBlock cfg.udp 1023 := by
    by_contra hne
    rw [if_neg hne] at hid
    cases hid
  obtain ⟨k, hcfg⟩ := divided_of_endpointCreate hcreate
  have hexact := hclaim twoPublic fourHosts cfg hcreate [.new 0x0a000001] _ (Run.of_foldl _ _ _)
    .udp x.pubIp 1023 0x0a000001
  have hfound : (empty.exec cfg (.new 0x0a000001)).getprv cfg .udp x.pubIp 1023 =
      some 0x0a000001 := by
    rw [getprv_eq, portIndex_new hx, if_pos (by rw [hid]; rfl)]
    rfl
  obtain ⟨y, hy, -, hcovers⟩ := hexact.1 hfound
  have hplaced := placed_exec (.new 0x0a000001) (placed_empty cfg)
  exact absurd ((covers_iff hcfg (hplaced .udp _ y hy) 1023).1 hcovers).2 (by decide)

/-! ## Networks that do not overlap -/

/-- An entry is of a member. -/
def OfMembers (cfg : EndpointConfig) (e : Endpoints) : Prop :=
  ∀ proto b y, e.portEntry proto b = some y → checkIp cfg.prvNs b = 1

section Disjoint

variable {cfg : EndpointConfig} {k : ℕ} (h : Accepted cfg k) {e : Endpoints} {op : EndpointOp}

theorem ofMembers_exec (hop : ∀ a, op = .new a → checkIp cfg.prvNs a = 1)
    (hmembers : OfMembers cfg e) : OfMembers cfg (e.exec cfg op) := by
  intro proto b y hy
  cases op with
  | new a =>
    cases hnew : newPort cfg proto a with
    | none =>
      rw [exec_new_refused hnew] at hy
      exact hmembers proto b y hy
    | some x =>
      rw [portEntry_new hnew] at hy
      split at hy
      · exact hop b (by rw [‹b = a›])
      · exact hmembers proto b y hy
  | del a =>
    rw [portEntry_del] at hy
    split at hy
    · cases hy
    · exact hmembers proto b y hy
  | assign as bs prvIp =>
    rw [portEntry_assign] at hy
    exact hmembers proto b y hy

include h

/-- The block of an entry is the remainder of the index. -/
theorem newPort_id {proto : PortProto} {a : UInt32} {x : PortEntry}
    (hx : newPort cfg proto a = some x) : x.id.toNat = (netsetIdx cfg.prvNs a).toNat % k := by
  obtain ⟨ip, -, rfl⟩ := Option.map_eq_some_iff.1 hx
  cases proto with
  | tcp => exact (h.divided.exact a ip).tcpId
  | udp => exact (h.divided.exact a ip).udpId

/-- With public networks that do not overlap every creation for a member is clear. -/
theorem clear_of_members (hdisj : cfg.pubNs.Disjoint) (hplaced : Placed cfg e)
    (hmembers : OfMembers cfg e) (hop : ∀ a, op = .new a → checkIp cfg.prvNs a = 1)
    {proto : PortProto} {pubIp : UInt32} {pubPort : UInt16} (hport : 1024 ≤ pubPort.toNat) :
    Clear cfg proto pubIp pubPort e op := by
  rintro a x rfl hx - -
  refine ⟨hport, fun b y hy hip hid => ?_⟩
  have hy' := hplaced proto b y hy
  have hmod : (netsetIdx cfg.prvNs b).toNat % k = (netsetIdx cfg.prvNs a).toNat % k := by
    rw [← newPort_id h hx, ← newPort_id h hy', hid]
  obtain ⟨ipA, hipA, rfl⟩ := Option.map_eq_some_iff.1 hx
  obtain ⟨ipB, hipB, rfl⟩ := Option.map_eq_some_iff.1 hy'
  refine h.eq_of_same_chunk hdisj (hmembers proto b _ hy) (hop a rfl) hipB hipA ?_ hmod
  cases proto with
  | tcp => exact hip
  | udp => exact hip

end Disjoint

/-- **With public networks that do not overlap the lookup is exact from port 1024 on.** -/
theorem lookupExact_of_disjoint {pubNs prvNs : Netset} (hdisj : pubNs.Disjoint)
    (hprv : prvNs.addresses.length < 2 ^ 24) (hpub : pubNs.addresses.length < 2 ^ 24)
    {cfg : EndpointConfig} (hcreate : endpointCreate pubNs prvNs = some cfg)
    {ops : List EndpointOp} (hops : ∀ op ∈ ops, ∀ a, op = .new a → checkIp prvNs a = 1)
    {e : Endpoints} (hrun : Run (Step cfg) empty ops e) {proto : PortProto} {pubIp : UInt32}
    {pubPort : UInt16} (hport : 1024 ≤ pubPort.toNat) :
    LookupExact cfg proto pubIp pubPort e := by
  obtain ⟨rfl, rfl, h⟩ := accepted_of_endpointCreate hprv hpub hcreate
  suffices hinv : Placed cfg e ∧ OfMembers cfg e ∧ LookupExact cfg proto pubIp pubPort e from
    hinv.2.2
  refine hrun.invariant_of_guarded
    (G := fun _ op => ∀ a, op = EndpointOp.new a → checkIp cfg.prvNs a = 1)
    (P := fun e => Placed cfg e ∧ OfMembers cfg e ∧ LookupExact cfg proto pubIp pubPort e)
    ?_ ?_ ?_
  · rintro e op _ rfl hop ⟨hplaced, hmembers, hexact⟩
    have hclear := @clear_of_members cfg _ h e op hdisj hplaced hmembers hop proto pubIp pubPort
      hport
    exact ⟨placed_exec op hplaced, ofMembers_exec hop hmembers,
      (lookupExact_exec_iff h.divided hplaced hexact op).2 hclear⟩
  · intro pre op post _ hops' _
    exact hops op (by simp [hops'])
  · refine ⟨placed_empty cfg, ?_, lookupExact_empty cfg proto pubIp pubPort⟩
    intro proto b y hy
    cases proto <;> cases hy

end Endpoints

end Sweetspot
