import Sweetspot.Tuple.Chain

/-!
# Source-NAT endpoints

Each private address owns a share of the public side: a public address, a range of TCP ports, a
range of UDP ports and a range of ICMP sequence numbers.  One handler for each protocol keeps the
entry of every private address in a table of its own, and `endpointAssign` walks a chain and
lets each handler write its next public value into it.

The TCP and UDP handlers also index their entries by public address and port block.  The three
fields read through that index (`EndpointId`) never change while an entry is stored.
-/

namespace Sweetspot

/-! ## Comparison callbacks -/

/-- An unsigned difference returned through an `int`. -/
def intOfUnsigned (x : UInt32) : ℤ := x.toBitVec.toInt

theorem intOfUnsigned_eq_zero_iff (x : UInt32) : intOfUnsigned x = 0 ↔ x = 0 := by
  rw [intOfUnsigned, ← BitVec.toInt_zero (w := 32), BitVec.toInt_inj]
  exact UInt32.toBitVec_inj

/-- Entries of a table keyed by an address: `e1->prv_ip - e2->prv_ip`. -/
def ipComparator : Comparator UInt32 :=
  Comparator.ofImage (fun a b => intOfUnsigned (a - b)) id fun a b => by
    rw [intOfUnsigned_eq_zero_iff]
    grind

@[simp] theorem ipComparator_comp (a b : UInt32) : ipComparator.comp a b = 0 ↔ a = b := by
  refine (intOfUnsigned_eq_zero_iff _).trans ?_
  grind

theorem ip_key {ρ : Type*} {key : ρ → UInt32} {t : KeyedTable ipComparator key} {ip : UInt32}
    {e : ρ} (h : t.retrieve ip = some e) : key e = ip :=
  (ipComparator_comp _ _).1 (KeyedTable.comp_of_retrieve h)

theorem idCmp_eq_zero_iff (a b : UInt32 × UInt16) :
    intOfUnsigned ((a.1 - b.1) ||| (a.2.toUInt32 - b.2.toUInt32)) = 0 ↔ a = b := by
  rw [intOfUnsigned_eq_zero_iff, ← UInt32.toBitVec_inj, UInt32.toBitVec_or]
  refine BitVec.or_eq_zero_iff.trans ?_
  rw [Prod.ext_iff, ← UInt16.toUInt32_inj]
  refine and_congr ?_ ?_
  · rw [← UInt32.toBitVec_zero, UInt32.toBitVec_inj]
    grind
  · rw [← UInt32.toBitVec_zero, UInt32.toBitVec_inj]
    grind

/-- Entries of a table keyed by a public address and a port block:
`(e1->pub_ip - e2->pub_ip) | (e1->id - e2->id)`. -/
def idComparator : Comparator (UInt32 × UInt16) :=
  Comparator.ofImage
    (fun a b => intOfUnsigned ((a.1 - b.1) ||| (a.2.toUInt32 - b.2.toUInt32))) id idCmp_eq_zero_iff

@[simp] theorem idComparator_comp (a b : UInt32 × UInt16) : idComparator.comp a b = 0 ↔ a = b :=
  idCmp_eq_zero_iff a b

/-! ## Entries -/

/-- `sw_nat_src_endpoint_ip_t`. -/
structure EndpointIp where
  prvIp : UInt32
  pubIp : UInt32
  deriving DecidableEq, Repr

/-- `sw_nat_src_endpoint_tcp_t`. -/
structure EndpointTcp where
  prvIp : UInt32
  pubIp : UInt32
  lport : UInt16
  hport : UInt16
  port : UInt16
  id : UInt16
  pubPort : UInt16
  sequentialMappingWeight : UInt32
  staticMappingWeight : UInt32
  deriving DecidableEq, Repr

/-- `sw_nat_src_endpoint_udp_t`. -/
structure EndpointUdp where
  pubIp : UInt32
  prvIp : UInt32
  lport : UInt16
  hport : UInt16
  port : UInt16
  id : UInt16
  deriving DecidableEq, Repr

/-- `sw_nat_src_endpoint_icmp_t`. -/
structure EndpointIcmp where
  prvIp : UInt32
  lseq : UInt16
  hseq : UInt16
  seq : UInt16
  deriving DecidableEq, Repr

/-- What a TCP or UDP entry shows through the index by public address and port block. -/
structure EndpointId where
  pubIp : UInt32
  id : UInt16
  prvIp : UInt32
  deriving DecidableEq, Repr

/-- The key callback of the index by port block. -/
def EndpointId.key (e : EndpointId) : UInt32 × UInt16 := (e.pubIp, e.id)

/-- The tables of the four handlers. -/
structure Endpoints where
  ip : KeyedTable ipComparator EndpointIp.prvIp
  udp : KeyedTable ipComparator EndpointUdp.prvIp
  udpId : KeyedTable idComparator EndpointId.key
  tcp : KeyedTable ipComparator EndpointTcp.prvIp
  tcpId : KeyedTable idComparator EndpointId.key
  icmp : KeyedTable ipComparator EndpointIcmp.prvIp

namespace Endpoints

def empty : Endpoints := ⟨∅, ∅, ∅, ∅, ∅, ∅⟩

end Endpoints

/-! ## Assignment -/

/-- A cursor moves on within `[l, h]` and wraps over to `l`. -/
def cursorNext (l h cur : UInt16) : UInt16 := if cur ≥ h then l else cur + 1

def SW_MAX_WEIGHT : UInt32 := 32

namespace EndpointTcp

/-- The entry after one TCP assignment for a packet sent from private port `pubPort`: the mapping
weights are updated and the port cursor moves on. -/
def assigned (e : EndpointTcp) (pubPort : UInt16) : EndpointTcp :=
  let used := if e.pubPort = 0 then pubPort else e.pubPort
  let near : Bool :=
    (((used.toNat : ℤ) - pubPort.toNat).natAbs : ℤ) < (e.hport.toNat : ℤ) - e.lport.toNat
  let up (w : UInt32) := if w < SW_MAX_WEIGHT then w + 1 else w
  let down (w : UInt32) := if w = 0 then w else w - 1
  { e with
    staticMappingWeight :=
      if near then up e.staticMappingWeight else down e.staticMappingWeight
    sequentialMappingWeight :=
      if near then down e.sequentialMappingWeight else up e.sequentialMappingWeight
    pubPort := pubPort
    port := cursorNext e.lport e.hport e.port }

end EndpointTcp

namespace EndpointUdp

/-- The entry after one UDP assignment. -/
def assigned (e : EndpointUdp) : EndpointUdp :=
  { e with port := cursorNext e.lport e.hport e.port }

end EndpointUdp

namespace EndpointIcmp

/-- The entry after one ICMP assignment. -/
def assigned (e : EndpointIcmp) : EndpointIcmp :=
  { e with seq := cursorNext e.lseq e.hseq e.seq }

end EndpointIcmp

/-- `sw_nat_src_endpoint_assign` and the four `__assign` handlers it dispatches to.  The first
chain is the copy to be rewritten, the second the private tuple, the third argument the private
address found so far.  `none` is the return value -1; what the handlers did to their entries
before it stays done. -/
def endpointAssign : Chain → Chain → UInt32 → Endpoints → Endpoints × Option Chain
  | .ip a :: as, .ip b :: bs, _, e =>
    match e.ip.retrieve b.ip with
    | none => (e, none)
    | some ep =>
      let (e', rest) := endpointAssign as bs b.ip e
      (e', rest.map (.ip { a with ip := ep.pubIp } :: ·))
  | .udp a :: as, .udp _ :: bs, prvIp, e =>
    match e.udp.retrieve prvIp with
    | none => (e, none)
    | some ep =>
      let (e', rest) := endpointAssign as bs prvIp { e with udp := e.udp.insert ep.assigned }
      (e', rest.map (.udp { a with port := ep.port } :: ·))
  | .tcp a :: as, .tcp b :: bs, prvIp, e =>
    match e.tcp.retrieve prvIp with
    | none => (e, none)
    | some ep =>
      let (e', rest) :=
        endpointAssign as bs prvIp { e with tcp := e.tcp.insert (ep.assigned b.port) }
      (e', rest.map (.tcp { a with port := ep.port } :: ·))
  | .icmp a :: as, .icmp _ :: bs, prvIp, e =>
    match e.icmp.retrieve prvIp with
    | none => (e, none)
    | some ep =>
      let (e', rest) := endpointAssign as bs prvIp { e with icmp := e.icmp.insert ep.assigned }
      (e', rest.map (.icmp { a with seq := ep.seq } :: ·))
  | [], _, _, e => (e, some [])
  | as, [], _, e => (e, some as)
  | _ :: _, _ :: _, _, e => (e, none)

/-- **The invariant rule of assignments**: what every handler keeps, a whole assignment keeps. -/
theorem endpointAssign_invariant {P : Endpoints → Prop}
    (hudp : ∀ e a ep, e.udp.retrieve a = some ep → P e →
      P { e with udp := e.udp.insert ep.assigned })
    (htcp : ∀ e a ep pubPort, e.tcp.retrieve a = some ep → P e →
      P { e with tcp := e.tcp.insert (ep.assigned pubPort) })
    (hicmp : ∀ e a ep, e.icmp.retrieve a = some ep → P e →
      P { e with icmp := e.icmp.insert ep.assigned })
    (as bs : Chain) (prvIp : UInt32) (e : Endpoints) (h : P e) :
    P (endpointAssign as bs prvIp e).1 := by
  fun_induction endpointAssign as bs prvIp e with
  | case1 => exact h
  | case2 _ _ _ _ _ _ _ _ _ _ hrest ih =>
    rw [hrest] at ih
    exact ih h
  | case3 => exact h
  | case4 _ _ _ _ _ _ _ hep _ _ hrest ih =>
    rw [hrest] at ih
    exact ih (hudp _ _ _ hep h)
  | case5 => exact h
  | case6 _ _ _ _ _ _ _ hep _ _ hrest ih =>
    rw [hrest] at ih
    exact ih (htcp _ _ _ _ hep h)
  | case7 => exact h
  | case8 _ _ _ _ _ _ _ hep _ _ hrest ih =>
    rw [hrest] at ih
    exact ih (hicmp _ _ _ hep h)
  | case9 => exact h
  | case10 => exact h
  | case11 => exact h

end Sweetspot
