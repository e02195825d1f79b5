import Sweetspot.Tuple.Rewrite

/-!
# The flow of a packet

A packet over TCP or UDP belongs to a flow: a protocol and two sides, each an address and a port.

* `Flow`, `HasFlow`: the flow that the headers of a packet name.
* `Side`: the chains of one side, which `sw_nat_tuple_cmp` does not tell apart
  (`natTupleCmp_side_iff`).
* `HasFlow.congr`: the flow depends on the octets of the datagram only.
* `sides_of_tupleFetch`: a packet is fetched into the two sides of its flow.
* `hasFlow_of_tupleCommit`: and written back with other sides it is a packet between those.
-/

namespace Sweetspot

open Octets

/-- A protocol whose header begins with two ports. -/
inductive PortProtocol
  | tcp
  | udp
  deriving DecidableEq, Repr

namespace PortProtocol

def number : PortProtocol → ℕ
  | tcp => IPPROTO_TCP
  | udp => IPPROTO_UDP

/-- The octets of the header, its options aside. -/
def size : PortProtocol → ℕ
  | tcp => 20
  | udp => 8

/-- The node of one side. -/
def node (q : PortProtocol) (port : UInt16) (flags : UInt8) : TupleNode :=
  match q with
  | tcp => .tcp ⟨port, flags⟩
  | udp => .udp ⟨port⟩

def fields : PortProtocol → UInt16 → UInt16 → TransportFields
  | tcp => tcpFields
  | udp => udpFields

end PortProtocol

/-- Who talks to whom. -/
@[ext] structure Flow where
  protocol : PortProtocol
  saddr : UInt32
  sport : UInt16
  daddr : UInt32
  dport : UInt16
  deriving DecidableEq, Repr

/-- The other direction. -/
def Flow.reverse (f : Flow) : Flow := ⟨f.protocol, f.daddr, f.dport, f.saddr, f.sport⟩

/-- The packet is all there, is no later fragment, and its headers name the flow. -/
structure HasFlow (p : List UInt8) (f : Flow) : Prop where
  version : iphVersion p 0 = 4
  ihl : 5 ≤ iphIhl p 0
  totLen : iphTotLen p 0 ≤ p.length
  unfragmented : (iphFragOff p 0).toNat % 0x2000 = 0
  protocol : iphProtocol p 0 = f.protocol.number
  header : (f.protocol.size : ℤ) ≤ iphPayloadLen p 0
  saddr : iphSaddr p 0 = f.saddr
  daddr : iphDaddr p 0 = f.daddr
  sport : get16 p (iphPayload p 0) = f.sport
  dport : get16 p (iphPayload p 0 + 2) = f.dport

/-- The packet has an IP header. -/
theorem HasFlow.twenty_le {p : List UInt8} {f : Flow} (hp : HasFlow p f) : 20 ≤ p.length := by
  have hheader := hp.header
  have hihl := hp.ihl
  have htotLen := hp.totLen
  rw [iphPayloadLen] at hheader
  omega

/-- The headers of a packet name one flow. -/
theorem HasFlow.unique {p : List UInt8} {f g : Flow} (hf : HasFlow p f) (hg : HasFlow p g) :
    f = g := by
  have hnumber : f.protocol.number = g.protocol.number := hf.protocol.symm.trans hg.protocol
  have hprotocol : f.protocol = g.protocol := by
    cases hf' : f.protocol <;> cases hg' : g.protocol <;> rw [hf', hg'] at hnumber <;> first
      | rfl
      | cases hnumber
  exact Flow.ext hprotocol (hf.saddr.symm.trans hg.saddr) (hf.sport.symm.trans hg.sport)
    (hf.daddr.symm.trans hg.daddr) (hf.dport.symm.trans hg.dport)

/-! ## Sides -/

/-- The chain names this address and port. -/
def Side (q : PortProtocol) (ip : UInt32) (port : UInt16) (a : Chain) : Prop :=
  ∃ id fragOff flags, a = [.ip ⟨ip, id, fragOff⟩, q.node port flags]

/-- The side with nothing else in it. -/
def side (q : PortProtocol) (ip : UInt32) (port : UInt16) : Chain := [.ip ⟨ip, 0, 0⟩, q.node port 0]

theorem side_side (q : PortProtocol) (ip : UInt32) (port : UInt16) :
    Side q ip port (side q ip port) :=
  ⟨0, 0, 0, rfl⟩

section

variable {q : PortProtocol} {ip : UInt32} {port : UInt16} {a b : Chain}

/-- The node of a protocol compares equal to the nodes of that protocol with its port. -/
theorem natTupleCmp_node_iff {flags : UInt8} :
    natTupleCmp [q.node port flags] b = 0 ↔ ∃ flags', b = [q.node port flags'] := by
  rw [natTupleCmp_eq_zero_iff]
  constructor
  · intro h
    rcases b with _ | ⟨y, _ | ⟨z, bs⟩⟩
    · cases q <;> cases h
    · cases q <;> cases y <;> simp_all [PortProtocol.node, natTupleImage, tupleImage]
      rename_i prv
      exact ⟨prv.flags, by rw [TupleTcp.ext_iff]; exact ⟨rfl, rfl⟩⟩
    · cases q <;> cases y <;> cases z <;>
        simp [PortProtocol.node, natTupleImage, tupleImage] at h
  · rintro ⟨flags', rfl⟩
    cases q <;> rfl

/-- **The chains of a side compare equal**, to each other and to no others. -/
theorem natTupleCmp_side_iff (ha : Side q ip port a) : natTupleCmp a b = 0 ↔ Side q ip port b := by
  obtain ⟨id, fragOff, flags, rfl⟩ := ha
  constructor
  · intro h
    rcases b with _ | ⟨y, bs⟩
    · cases h
    · cases y with
      | ip prv =>
        rw [natTupleCmp, ite_one_eq_zero_iff, not_not] at h
        obtain ⟨hip, hrest⟩ := h
        obtain ⟨flags', rfl⟩ := natTupleCmp_node_iff.1 hrest
        exact ⟨prv.id, prv.fragOff, flags', by rw [show ip = prv.ip from hip]⟩
      | tcp prv => cases h
      | udp prv => cases h
      | icmp prv => cases h
  · rintro ⟨id', fragOff', flags', rfl⟩
    rw [natTupleCmp, ite_one_eq_zero_iff, not_not]
    exact ⟨rfl, natTupleCmp_node_iff.2 ⟨flags', rfl⟩⟩

theorem Side.unique {q' : PortProtocol} {ip' : UInt32} {port' : UInt16} (h : Side q ip port a)
    (h' : Side q' ip' port' a) : q = q' ∧ ip = ip' ∧ port = port' := by
  obtain ⟨id, fragOff, flags, rfl⟩ := h
  obtain ⟨id', fragOff', flags', heq⟩ := h'
  cases q <;> cases q' <;> simp_all [PortProtocol.node]

end

/-! ## Fetching -/

section

variable {uninit : ℕ → TupleIcmp × TupleIcmp} {p : List UInt8} {fuel : ℕ} {length : ℤ}
  {f : Flow} {src dst : Chain}

/-- **A packet is fetched into the two sides of its flow.** -/
theorem sides_of_tupleFetch (hp : HasFlow p f)
    (hfetch : tupleFetch uninit p fuel IPPROTO_IP 0 length = some (some (src, dst))) :
    Side f.protocol f.saddr f.sport src ∧ Side f.protocol f.daddr f.dport dst := by
  obtain ⟨-, -, -, as, bs, rfl, rfl, hrest⟩ := tupleFetch_ip hfetch
  obtain ⟨-, fuel', hnext⟩ := hrest.resolve_left fun h => h.1 hp.unfragmented
  rw [hp.protocol] at hnext
  rw [hp.saddr, hp.daddr]
  cases hprotocol : f.protocol with
  | tcp =>
    rw [hprotocol] at hnext
    obtain ⟨-, rfl, rfl⟩ := tupleFetch_tcp hnext
    rw [hp.sport, hp.dport]
    exact ⟨⟨_, _, _, rfl⟩, _, _, _, rfl⟩
  | udp =>
    rw [hprotocol] at hnext
    obtain ⟨-, rfl, rfl⟩ := tupleFetch_udp hnext
    rw [hp.sport, hp.dport]
    exact ⟨⟨_, _, 0, rfl⟩, _, _, 0, rfl⟩

end

/-! ## Writing back -/

section

variable {p p' : List UInt8} {f : Flow} {q : PortProtocol} {saddr daddr : UInt32}
  {sport dport : UInt16} {a b : Chain} {rc : ℤ}

/-- The handler of the ports, called from the IP handler, fails or makes three writes.  A datagram
without a checksum keeps its zero. -/
theorem tupleCommit_ports (scratch : UInt32) (prevA prevB : Option TupleNode) (orgA orgB : TuplePtr)
    (flagsA flagsB : UInt8) {seg : ℕ} {length : ℤ} (hsize : (q.size : ℤ) ≤ length)
    (hbuf : seg + length ≤ p.length) :
    tupleCommit scratch prevA [q.node sport flagsA] ⟨prevB, [q.node dport flagsB]⟩ orgA orgB p seg
        length = some (p, -1) ∨
      ∃ cs, tupleCommit scratch prevA [q.node sport flagsA] ⟨prevB, [q.node dport flagsB]⟩ orgA orgB
        p seg length = some (put16 (put16 (put16 p (seg + (q.fields sport dport).first)
          (q.fields sport dport).newFirst) (seg + (q.fields sport dport).second)
          (q.fields sport dport).newSecond) (seg + (q.fields sport dport).check) cs, 0) := by
  cases q with
  | tcp =>
    change tcpCommit scratch (fun packet _ _ => some (packet, 0)) _ _ _ _ _ _ p seg length = _ ∨
      ∃ cs, tcpCommit scratch (fun packet _ _ => some (packet, 0)) _ _ _ _ _ _ p seg length = _
    have hsize' : (20 : ℤ) ≤ length := hsize
    by_cases hdoff : (tcphDoff p seg * 4 : ℕ) ≤ length
    · obtain ⟨cs, hcs, -⟩ := @tcpCommit_eq (fun packet _ _ => some (packet, 0)) p p seg length 0
        scratch _ _ _ _ _ _ (not_sizeLt_of_le hsize) hdoff rfl (by omega) (by omega)
      exact Or.inr ⟨cs, hcs⟩
    · left
      rw [tcpCommit, if_pos (Or.inr (lt_of_not_ge hdoff))]
  | udp =>
    change udpCommit scratch (fun packet _ _ => some (packet, 0)) _ _ _ _ _ _ p seg length = _ ∨
      ∃ cs, udpCommit scratch (fun packet _ _ => some (packet, 0)) _ _ _ _ _ _ p seg length = _
    right
    have hsize' : (8 : ℤ) ≤ length := hsize
    have hlen : ¬ sizeLt length 8 := not_sizeLt_of_le hsize
    by_cases hcheck : get16 p (seg + 6) = 0
    · have hkept : get16 (put16 (put16 p seg sport) (seg + 2) dport) (seg + 6) = 0 := by
        rw [get16_put16_of_ne (by rw [length_put16]; omega) _ (by omega),
          get16_put16_of_ne (by omega) _ (by omega), hcheck]
      have hback := put16_get16 (p := put16 (put16 p seg sport) (seg + 2) dport) (i := seg + 6)
        (by rw [length_put16, length_put16]; omega)
      rw [hkept] at hback
      refine ⟨0, ?_⟩
      simp only [udpCommit, if_neg hlen, hcheck, ne_eq, not_true_eq_false, if_false,
        Option.bind_some, hkept]
      exact congrArg (fun packet => some (packet, (0 : ℤ))) hback.symm
    · obtain ⟨cs, hcs, -⟩ := @udpCommit_eq (fun packet _ _ => some (packet, 0)) p p seg length 0
        scratch _ _ _ _ _ _ hlen hcheck hcheck rfl (by omega) (by omega)
      exact ⟨cs, hcs⟩

/-- A packet of which only the addresses, the ports and the checksums changed. -/
theorem HasFlow.readdressed (hp : HasFlow p f) (hlength : iphTotLen p 0 ≤ p'.length)
    (hsame : SameOctets p' p 0 10) (hsaddr : iphSaddr p' 0 = saddr) (hdaddr : iphDaddr p' 0 = daddr)
    (hsport : get16 p' (iphPayload p 0) = sport) (hdport : get16 p' (iphPayload p 0 + 2) = dport) :
    HasFlow p' ⟨f.protocol, saddr, sport, daddr, dport⟩ := by
  have hfirst : get8 p' 0 = get8 p 0 := hsame 0 (by omega)
  have hihl : iphIhl p' 0 = iphIhl p 0 := by rw [iphIhl, iphIhl, hfirst]
  have htotLen : iphTotLen p' 0 = iphTotLen p 0 := by
    rw [iphTotLen, iphTotLen, hsame.get16 (by omega)]
  have hpayload : iphPayload p' 0 = iphPayload p 0 := by rw [iphPayload, iphPayload, hihl]
  refine ⟨?_, ?_, ?_, ?_, ?_, ?_, hsaddr, hdaddr, ?_, ?_⟩
  · rw [iphVersion, hfirst]
    exact hp.version
  · rw [hihl]
    exact hp.ihl
  · rw [htotLen]
    exact hlength
  · rw [iphFragOff, hsame.get16 (by omega)]
    exact hp.unfragmented
  · rw [iphProtocol, hsame 9 (by omega)]
    exact hp.protocol
  · rw [iphPayloadLen, htotLen, hihl]
    exact hp.header
  · rw [hpayload]
    exact hsport
  · rw [hpayload]
    exact hdport

/-- A packet of which none of the octets of the datagram changed. -/
theorem HasFlow.congr (hp : HasFlow p f) {n : ℕ} (hsame : SameOctets p' p 0 n)
    (htotLen : iphTotLen p 0 ≤ n) (hlength : n ≤ p'.length) : HasFlow p' f := by
  have hfive := hp.ihl
  have hend := iphPayload_add_payloadLen p 0
  have hheader := hp.header
  have hihl : iphPayload p 0 = 0 + iphIhl p 0 * 4 := rfl
  have hports : (8 : ℤ) ≤ f.protocol.size := by
    cases f.protocol <;> simp [PortProtocol.size]
  -- a port lies in the datagram
  have hport : ∀ k, k + 2 ≤ n → get16 p' k = get16 p k := fun k hk => by
    simpa using hsame.get16 (k := k) hk
  refine hp.readdressed (le_trans htotLen hlength) (fun k hk => hsame k (by omega)) ?_ ?_ ?_ ?_
  · rw [iphSaddr, hsame.get32 (by omega)]
    exact hp.saddr
  · rw [iphDaddr, hsame.get32 (by omega)]
    exact hp.daddr
  · rw [hport _ (by omega)]
    exact hp.sport
  · rw [hport _ (by omega)]
    exact hp.dport

/-- The writes leave a packet of the new flow. -/
theorem HasFlow.take_headerRewrite (hp : HasFlow p f) (hq : f.protocol = q) (cs ipCs : UInt16)
    {n : ℕ} (htotLen : iphTotLen p 0 ≤ n) (hn : n ≤ p.length) :
    HasFlow ((headerRewrite p (iphPayload p 0) saddr daddr (q.fields sport dport) cs ipCs).take n)
      ⟨q, saddr, sport, daddr, dport⟩ := by
  have hseg : 20 ≤ iphPayload p 0 := by
    have := hp.ihl
    rw [iphPayload]
    omega
  have hbuf : iphPayload p 0 + (q.fields sport dport).size ≤ p.length := by
    have hsize : (q.fields sport dport).size ≤ q.size := by
      cases q <;> simp [PortProtocol.fields, tcpFields, udpFields, PortProtocol.size]
    have hend := iphPayload_add_payloadLen p 0
    have hheader := hp.header
    rw [hq] at hheader
    omega
  subst hq
  have hkept : SameOctets (headerRewrite p (iphPayload p 0) saddr daddr
      (f.protocol.fields sport dport) cs ipCs) p 0 10 := fun k hk =>
    get8_headerRewrite hseg hbuf (Or.inl (by omega)) fun j _ => Or.inl (by omega)
  have hwritten : HasFlow (headerRewrite p (iphPayload p 0) saddr daddr
      (f.protocol.fields sport dport) cs ipCs) ⟨f.protocol, saddr, sport, daddr, dport⟩ := by
    refine hp.readdressed (by rw [length_headerRewrite]; exact hp.totLen) hkept
      (iphSaddr_headerRewrite hseg hbuf) (iphDaddr_headerRewrite hseg hbuf) ?_ ?_
    · have hfirst := @get16_first_headerRewrite p (iphPayload p 0) saddr daddr
        (f.protocol.fields sport dport) cs ipCs hseg hbuf
      cases hprotocol : f.protocol <;> rw [hprotocol] at hfirst <;> exact hfirst
    · have hsecond := @get16_second_headerRewrite p (iphPayload p 0) saddr daddr
        (f.protocol.fields sport dport) cs ipCs hseg hbuf
      cases hprotocol : f.protocol <;> rw [hprotocol] at hsecond <;> exact hsecond
  refine hwritten.congr (sameOctets_take _ n) ?_ ?_
  · rw [iphTotLen, hkept.get16 (by omega)]
    exact htotLen
  · rw [List.length_take, length_headerRewrite]
    omega

/-- **A packet that is written back** with other sides is a packet between those, in the first `n`
octets of the buffer as before. -/
theorem hasFlow_of_tupleCommit (hp : HasFlow p f) (ha : Side f.protocol saddr sport a)
    (hb : Side f.protocol daddr dport b) {n : ℕ} (htotLen : iphTotLen p 0 ≤ n) (hn : n ≤ p.length)
    {scratch : UInt32} {orgA orgB : TuplePtr}
    (h : tupleCommit scratch none a ⟨none, b⟩ orgA orgB p 0 n = some (p', rc)) (hrc : rc ≠ -1) :
    HasFlow (p'.take n) ⟨f.protocol, saddr, sport, daddr, dport⟩ := by
  obtain ⟨idA, fragOffA, flagsA, rfl⟩ := ha
  obtain ⟨idB, fragOffB, flagsB, rfl⟩ := hb
  have hend := iphPayload_add_payloadLen p 0
  have hihl : iphPayload p 0 = 0 + iphIhl p 0 * 4 := rfl
  have hfive := hp.ihl
  have hheader := hp.header
  have hlen : ¬ sizeLt (n : ℤ) 20 := not_sizeLt_of_le (by omega)
  have hbuf : (iphPayload p 0 : ℤ) + iphPayloadLen p 0 ≤ p.length := by omega
  -- the IP handler calls that of the ports
  obtain ⟨orgA', orgB', hip⟩ : ∃ orgA' orgB', ipCommit (tupleCommit scratch
      (some (.ip ⟨saddr, idA, fragOffA⟩)) [f.protocol.node sport flagsA]
        ⟨some (.ip ⟨daddr, idB, fragOffB⟩), [f.protocol.node dport flagsB]⟩ orgA' orgB')
      ⟨saddr, idA, fragOffA⟩ ⟨daddr, idB, fragOffB⟩ p 0 n = some (p', rc) := ⟨_, _, h⟩
  rcases tupleCommit_ports scratch (some (.ip ⟨saddr, idA, fragOffA⟩))
      (some (.ip ⟨daddr, idB, fragOffB⟩)) orgA' orgB' flagsA flagsB hheader hbuf with
    hnested | ⟨cs, hnested⟩
  · obtain ⟨ipCs, hipCs, -⟩ := @ipCommit_eq _ p p 0 n (-1) ⟨saddr, idA, fragOffA⟩
      ⟨daddr, idB, fragOffB⟩ hlen (by exact_mod_cast htotLen) hnested (by omega) (by omega)
    rw [hipCs] at hip
    cases hip
    exact absurd rfl hrc
  · obtain ⟨ipCs, hipCs, -⟩ := @ipCommit_eq _ p _ 0 n 0 ⟨saddr, idA, fragOffA⟩
      ⟨daddr, idB, fragOffB⟩ hlen (by exact_mod_cast htotLen) hnested (by omega)
      (by simp only [length_put16]; omega)
    rw [hipCs] at hip
    cases hip
    exact hp.take_headerRewrite rfl cs ipCs htotLen hn

end

end Sweetspot
