import Sweetspot.Tuple.Checksum
import Sweetspot.Tuple.Fetch

/-!
# Committing tuples to a packet

`sw_tuple_commit` writes a pair of chains back into the buffer they were fetched from, fixing every
checksum on the way by what it took out and what it put in (the default build; the one that
recomputes checksums is a separate preprocessor branch).

* `tupleCommit`: the dispatcher and its four handlers.  A handler commits the rest of the chains
  before it writes its own header, and looks at the node before its own for the pseudo-header.
* `ipCommit_eq`, `tcpCommit_eq`, `udpCommit_eq`, `icmpCommit_echo_eq`: what a handler writes,
  whatever the nested commit did.
-/

namespace Sweetspot

open Octets

/-- A `sw_tuple_t *`: the chain from the node on (`[]` for `NULL`), and the node's `prev`. -/
structure TuplePtr where
  prev : Option TupleNode
  chain : Chain
  deriving DecidableEq, Repr

namespace TuplePtr

def next (t : TuplePtr) : TuplePtr :=
  match t.chain with
  | [] => t
  | x :: xs => ⟨some x, xs⟩

/-- `if (!t) t = u`. -/
def orElse (t u : TuplePtr) : TuplePtr := if t.chain = [] then u else t

end TuplePtr

/-- The buffer and the return code; `none` for a dereferenced `NULL`. -/
abbrev Committed := Option (List UInt8 × ℤ)

/-- The commit of the rest of the chains, as a handler calls it: buffer, offset, length. -/
abbrev NestedCommit := List UInt8 → ℕ → ℤ → Committed

/-! ## The pseudo-header -/

/-- The local `pseudo_hdr` of the TCP and UDP handlers.  Only the addresses are ever set: the other
four octets are what the stack held. -/
def pseudoHdr (scratch saddr daddr : UInt32) : List UInt8 :=
  octets32 saddr ++ octets32 daddr ++ octets32 scratch

/-- `sw_tuple_checksum_decrement` of the pseudo-header, if both nodes are IP. -/
def pseudoDecrement (scratch : UInt32) (cs : UInt16) :
    Option TupleNode → Option TupleNode → Option UInt16
  | some (.ip a), some (.ip b) => checksumDecrement cs false (pseudoHdr scratch a.ip b.ip)
  | _, _ => some cs

/-- `sw_tuple_checksum_increment` of the pseudo-header, if both nodes are IP. -/
def pseudoIncrement (scratch : UInt32) (cs : UInt16) :
    Option TupleNode → Option TupleNode → Option UInt16
  | some (.ip a), some (.ip b) => checksumIncrement cs false (pseudoHdr scratch a.ip b.ip)
  | _, _ => some cs

/-! ## The handlers -/

/-- `sw_tuple_checksum_increment`, of which each build has its own. -/
abbrev Increment := UInt16 → Bool → List UInt8 → Option UInt16

/-- `__commit` of `tuple_ip.c`, given the increment. -/
def ipCommitWith (increment : Increment) (nested : NestedCommit) (prvA prvB : TupleIp)
    (packet : List UInt8) (off : ℕ) (length : ℤ) : Committed :=
  if sizeLt length 20 ∨ length < iphTotLen packet off then some (packet, -1)
  else
    match checksumDecrement (iphCheck packet off) true (stretch packet (off + 12) 8) with
    | none => some (packet, -1)
    | some partialCs =>
      (nested packet (iphPayload packet off) (iphPayloadLen packet off)).bind fun (packet, rc) =>
        let packet := put32 packet (off + 12) prvA.ip
        let packet := put32 packet (off + 16) prvB.ip
        match increment partialCs true (stretch packet (off + 12) 8) with
        | none => some (packet, -1)
        | some cs => some (put16 packet (off + 10) cs, rc)

/-- `__commit` of `tuple_ip.c`. -/
def ipCommit : NestedCommit → TupleIp → TupleIp → NestedCommit := ipCommitWith checksumIncrement

/-- `__commit` of `tuple_tcp.c`. -/
def tcpCommit (scratch : UInt32) (nested : NestedCommit) (prvA prvB : TupleTcp)
    (prevA prevB prevOrgA prevOrgB : Option TupleNode) (packet : List UInt8) (off : ℕ)
    (length : ℤ) : Committed :=
  let doff := tcphDoff packet off * 4
  if sizeLt length 20 ∨ length < doff then some (packet, -1)
  else
    match checksumDecrement (get16 packet (off + 16)) true (stretch packet off 4) with
    | none => some (packet, -1)
    | some cs =>
      match pseudoDecrement scratch cs prevOrgA prevOrgB with
      | none => some (packet, -1)
      | some cs =>
        (nested packet (off + doff) (length - doff)).bind fun (packet, rc) =>
          let packet := put16 packet off prvA.port
          let packet := put16 packet (off + 2) prvB.port
          match pseudoIncrement scratch cs prevA prevB with
          | none => some (packet, -1)
          | some cs =>
            match checksumIncrement cs true (stretch packet off 4) with
            | none => some (packet, -1)
            | some cs => some (put16 packet (off + 16) cs, rc)

/-- `__commit` of `tuple_udp.c`.  UDP may not carry a checksum; `cs` then stays unset and unused. -/
def udpCommit (scratch : UInt32) (nested : NestedCommit) (prvA prvB : TupleUdp)
    (prevA prevB prevOrgA prevOrgB : Option TupleNode) (packet : List UInt8) (off : ℕ)
    (length : ℤ) : Committed :=
  if sizeLt length 8 then some (packet, -1)
  else
    match (if get16 packet (off + 6) ≠ 0 then
        (checksumDecrement (get16 packet (off + 6)) true (stretch packet off 4)).bind fun cs =>
          pseudoDecrement scratch cs prevOrgA prevOrgB
      else some 0) with
    | none => some (packet, -1)
    | some cs =>
      (nested packet (off + 8) (length - 8)).bind fun (packet, rc) =>
        let packet := put16 packet off prvA.port
        let packet := put16 packet (off + 2) prvB.port
        if get16 packet (off + 6) ≠ 0 then
          match (pseudoIncrement scratch cs prevA prevB).bind fun cs =>
              checksumIncrement cs true (stretch packet off 4) with
          | none => some (packet, -1)
          | some cs => some (put16 packet (off + 6) cs, rc)
        else some (packet, rc)

/-- The field becomes `b` if it holds `a`, and `a` otherwise (`HACK: prefer alternative value`). -/
def preferAlternative (packet : List UInt8) (i : ℕ) (a b : UInt16) : List UInt8 :=
  put16 packet i (if get16 packet i = a then b else a)

/-- The message types on which the ICMP handler returns at once. -/
def IcmpStops (type : UInt8) : Prop :=
  type = ICMP_TIMESTAMP ∨ type = ICMP_TIMESTAMPREPLY ∨ type = ICMP_REDIRECT

instance (type : UInt8) : Decidable (IcmpStops type) := inferInstanceAs (Decidable (_ ∨ _))

/-- `__commit` of `tuple_icmp.c`, given the increment; it reads the nodes before its own without a
test, and an ICMP node never follows anything but an IP node. -/
def icmpCommitWith (increment : Increment) (nested : NestedCommit) (prvA prvB : TupleIcmp)
    (prevA prevB : Option TupleNode) (packet : List UInt8) (off : ℕ) (length : ℤ) : Committed :=
  match prevA, prevB with
  | some (.ip _), some (.ip prv2B) =>
    if sizeLt length 8 then some (packet, -1)
    else
      match (if prvA.type ≠ ICMP_TIME_EXCEEDED then
          checksumDecrement (get16 packet (off + 2)) true (stretch packet (off + 4) 4)
        else some 0) with
      | none => some (packet, -1)
      | some cs =>
        if prvA.type = ICMP_TIMESTAMP ∨ prvA.type = ICMP_TIMESTAMPREPLY ∨
            prvA.type = ICMP_REDIRECT then some (packet, 0)
        else
          (nested packet (off + 8) (length - 8)).bind fun (packet, rc) =>
            if prvA.type = ICMP_TIME_EXCEEDED then
              -- the IP header the message quotes, and the echo header behind it
              match checksumDecrement (get16 packet (off + 2)) true (stretch packet (off + 8) 28)
              with
              | none => some (packet, -1)
              | some cs =>
                let packet := put32 packet (off + 20) prv2B.ip
                let packet := preferAlternative packet (off + 32) prvA.id prvB.id
                let packet := preferAlternative packet (off + 34) prvA.seq prvB.seq
                match increment cs true (stretch packet (off + 8) 28) with
                | none => some (packet, -1)
                | some cs => some (put16 packet (off + 2) cs, rc)
            else
              let packet :=
                if prvA.type = ICMP_ECHO ∨ prvA.type = ICMP_ECHOREPLY then
                  preferAlternative (preferAlternative packet (off + 4) prvA.id prvB.id) (off + 6)
                    prvA.seq prvB.seq
                else packet
              match increment cs true (stretch packet (off + 4) 4) with
              | none => some (packet, -1)
              | some cs => some (put16 packet (off + 2) cs, rc)
  | _, _ => none

/-- `__commit` of `tuple_icmp.c`. -/
def icmpCommit : NestedCommit → TupleIcmp → TupleIcmp → Option TupleNode → Option TupleNode →
    NestedCommit :=
  icmpCommitWith checksumIncrement

/-- `sw_tuple_commit` of the chain `a` whose first node has `prevA` before it. -/
def tupleCommit (scratch : UInt32) :
    Option TupleNode → Chain → TuplePtr → TuplePtr → TuplePtr → NestedCommit
  | _, [], _, _, _, packet, _, _ => some (packet, 0)
  | prevA, x :: as, b, orgA, orgB, packet, off, length =>
    match b.chain with
    | [] => some (packet, 0)
    | y :: _ =>
      let orgA := orgA.orElse ⟨prevA, x :: as⟩
      let orgB := orgB.orElse b
      let nested : NestedCommit := tupleCommit scratch (some x) as b.next orgA.next orgB.next
      match x, y with
      | .ip prvA, .ip prvB => ipCommit nested prvA prvB packet off length
      | .tcp prvA, .tcp prvB =>
        tcpCommit scratch nested prvA prvB prevA b.prev orgA.prev orgB.prev packet off length
      | .udp prvA, .udp prvB =>
        udpCommit scratch nested prvA prvB prevA b.prev orgA.prev orgB.prev packet off length
      | .icmp prvA, .icmp prvB => icmpCommit nested prvA prvB prevA b.prev packet off length
      | _, _ => some (packet, -1)

/-! ## What the handlers write -/

/-- What a pseudo-header adds to a sum. -/
def pseudoSum (scratch : UInt32) : Option TupleNode → Option TupleNode → ZMod 65535
  | some (.ip a), some (.ip b) => a.ip.toNat + b.ip.toNat + scratch.toNat
  | _, _ => 0

theorem length_octets32 (v : UInt32) : (octets32 v).length = 4 := by simp [octets32]

theorem onesSum_pseudoHdr (scratch saddr daddr : UInt32) :
    onesSum (pseudoHdr scratch saddr daddr) = saddr.toNat + daddr.toNat + scratch.toNat := by
  rw [pseudoHdr, onesSum_append (by simp [length_octets32]),
    onesSum_append (by simp [length_octets32]),
    onesSum_octets32, onesSum_octets32, onesSum_octets32]

theorem pseudoDecrement_spec (scratch : UInt32) (cs : UInt16) (a b : Option TupleNode) :
    ∃ v, pseudoDecrement scratch cs a b = some v ∧
      (v.toNat : ZMod 65535) = cs.toNat - pseudoSum scratch a b := by
  rcases a with _ | ⟨a⟩ | _ | _ | _ <;> rcases b with _ | ⟨b⟩ | _ | _ | _ <;>
    try exact ⟨cs, rfl, by simp [pseudoSum]⟩
  obtain ⟨v, hv, hcast⟩ := @checksumDecrement_spec cs false (pseudoHdr scratch a.ip b.ip)
    (by simp [pseudoHdr, length_octets32])
  refine ⟨v, hv, ?_⟩
  rw [hcast, onesSum_pseudoHdr]
  rfl

theorem pseudoIncrement_spec (scratch : UInt32) (cs : UInt16) (a b : Option TupleNode) :
    ∃ v, pseudoIncrement scratch cs a b = some v ∧
      (v.toNat : ZMod 65535) = cs.toNat + pseudoSum scratch a b := by
  rcases a with _ | ⟨a⟩ | _ | _ | _ <;> rcases b with _ | ⟨b⟩ | _ | _ | _ <;>
    try exact ⟨cs, rfl, by simp [pseudoSum]⟩
  obtain ⟨v, hv, hcast⟩ := @checksumIncrement_spec cs false (pseudoHdr scratch a.ip b.ip)
    (by simp [pseudoHdr, length_octets32])
  refine ⟨v, hv, ?_⟩
  rw [hcast, onesSum_pseudoHdr]
  rfl

/-- Taking a stretch of the buffer out of a checksum. -/
theorem checksumDecrement_stretch (cs : UInt16) {packet : List UInt8} {off n : ℕ}
    (h : off + n ≤ packet.length) (heven : n % 2 = 0) :
    ∃ v, checksumDecrement cs true (stretch packet off n) = some v ∧
      (v.toNat : ZMod 65535) = -(cs.toNat : ZMod 65535) - stretchSum packet off n :=
  checksumDecrement_spec cs true (by rw [length_stretch h]; exact heven)

/-- Putting a stretch of the buffer in, and complementing. -/
theorem checksumIncrement_stretch (cs : UInt16) {packet : List UInt8} {off n : ℕ}
    (h : off + n ≤ packet.length) (heven : n % 2 = 0) :
    ∃ v, checksumIncrement cs true (stretch packet off n) = some v ∧
      (v.toNat : ZMod 65535) = -((cs.toNat : ZMod 65535) + stretchSum packet off n) :=
  checksumIncrement_spec cs true (by rw [length_stretch h]; exact heven)

/-- Two fields side by side. -/
theorem stretchSum_get16_get16 {packet : List UInt8} {off : ℕ} (h : off + 4 ≤ packet.length) :
    stretchSum packet off 4 = (get16 packet off).toNat + (get16 packet (off + 2)).toNat := by
  rw [@stretchSum_add _ off 2 (by omega) rfl 2, stretchSum_get16 (by omega),
    stretchSum_get16 (by omega)]

/-- Two fields side by side, just written. -/
theorem stretchSum_put16_put16 {packet : List UInt8} {off : ℕ} (h : off + 4 ≤ packet.length)
    (v w : UInt16) :
    stretchSum (put16 (put16 packet off v) (off + 2) w) off 4 = v.toNat + w.toNat := by
  rw [stretchSum_get16_get16 (by simp only [length_put16]; omega),
    get16_put16_self (by simp only [length_put16]; omega),
    get16_put16_of_ne (by simp only [length_put16]; omega) _ (by omega),
    get16_put16_self (by omega)]

theorem stretchSum_put32_put32 {packet : List UInt8} {off : ℕ} (h : off + 8 ≤ packet.length)
    (v w : UInt32) :
    stretchSum (put32 (put32 packet off v) (off + 4) w) off 8 = v.toNat + w.toNat := by
  rw [@stretchSum_add _ off 4 (by simp only [length_put32]; omega) rfl 4,
    stretchSum_get32 (by simp only [length_put32]; omega),
    stretchSum_get32 (by simp only [length_put32]; omega),
    get32_put32_self (by simp only [length_put32]; omega),
    get32_put32_of_ne (by simp only [length_put32]; omega) _ (by omega),
    get32_put32_self (by omega)]

section

variable {nested : NestedCommit} {packet packet' : List UInt8} {off : ℕ} {length rc : ℤ}

/-- **The IP handler** sets the two addresses, and the checksum changes by what they changed. -/
theorem ipCommit_eq {prvA prvB : TupleIp} (hlen : ¬ sizeLt length 20)
    (htot : iphTotLen packet off ≤ length)
    (hnested : nested packet (iphPayload packet off) (iphPayloadLen packet off) =
      some (packet', rc))
    (hbuf : off + 20 ≤ packet.length) (hbuf' : off + 20 ≤ packet'.length) :
    ∃ cs, ipCommit nested prvA prvB packet off length =
        some (put16 (put32 (put32 packet' (off + 12) prvA.ip) (off + 16) prvB.ip) (off + 10) cs,
          rc) ∧
      (cs.toNat : ZMod 65535) = (iphCheck packet off).toNat +
        ((iphSaddr packet off).toNat + (iphDaddr packet off).toNat) -
        (prvA.ip.toNat + prvB.ip.toNat) := by
  have hlen' : ¬ (sizeLt length 20 ∨ length < iphTotLen packet off) := by
    push Not
    exact ⟨hlen, htot⟩
  obtain ⟨v, hv, hvcast⟩ :=
    @checksumDecrement_stretch (iphCheck packet off) packet (off + 12) 8 (by omega) rfl
  obtain ⟨cs, hcs, hcscast⟩ :=
    @checksumIncrement_stretch v (put32 (put32 packet' (off + 12) prvA.ip) (off + 16) prvB.ip)
      (off + 12) 8 (by simp only [length_put32]; omega) rfl
  have hnew : stretchSum (put32 (put32 packet' (off + 12) prvA.ip) (off + 16) prvB.ip)
      (off + 12) 8 = prvA.ip.toNat + prvB.ip.toNat :=
    stretchSum_put32_put32 (by omega) _ _
  have hold : stretchSum packet (off + 12) 8 =
      (iphSaddr packet off).toNat + (iphDaddr packet off).toNat := by
    rw [@stretchSum_add _ _ 4 (by omega) rfl 4, stretchSum_get32 (by omega),
      stretchSum_get32 (by omega)]
    rfl
  refine ⟨cs, ?_, ?_⟩
  · simp only [ipCommit, ipCommitWith, if_neg hlen', hv, hnested, Option.bind_some, hcs]
  · rw [hcscast, hvcast, hnew, hold]
    ring

/-- The sums of a transport header: the old ports and the old pseudo-header are taken out of a
checksum, the new ones put in. -/
theorem portSums_spec (scratch : UInt32) (check sport dport : UInt16)
    (prevA prevB prevOrgA prevOrgB : Option TupleNode) (hbuf : off + 4 ≤ packet.length)
    (hbuf' : off + 4 ≤ packet'.length) :
    ∃ v w x cs, checksumDecrement check true (stretch packet off 4) = some v ∧
      pseudoDecrement scratch v prevOrgA prevOrgB = some w ∧
      pseudoIncrement scratch w prevA prevB = some x ∧
      checksumIncrement x true (stretch (put16 (put16 packet' off sport) (off + 2) dport) off 4) =
        some cs ∧
      (cs.toNat : ZMod 65535) = check.toNat +
        ((get16 packet off).toNat + (get16 packet (off + 2)).toNat +
          pseudoSum scratch prevOrgA prevOrgB) -
        (sport.toNat + dport.toNat + pseudoSum scratch prevA prevB) := by
  obtain ⟨v, hv, hvcast⟩ := @checksumDecrement_stretch check packet off 4 hbuf rfl
  obtain ⟨w, hw, hwcast⟩ := pseudoDecrement_spec scratch v prevOrgA prevOrgB
  obtain ⟨x, hx, hxcast⟩ := pseudoIncrement_spec scratch w prevA prevB
  obtain ⟨cs, hcs, hcscast⟩ :=
    @checksumIncrement_stretch x (put16 (put16 packet' off sport) (off + 2) dport) off 4
      (by simp only [length_put16]; omega) rfl
  refine ⟨v, w, x, cs, hv, hw, hx, hcs, ?_⟩
  rw [hcscast, stretchSum_put16_put16 hbuf', hxcast, hwcast, hvcast, stretchSum_get16_get16 hbuf]
  ring

/-- **The TCP handler** sets the two ports, and the checksum changes by what they and the two
pseudo-headers changed. -/
theorem tcpCommit_eq {scratch : UInt32} {prvA prvB : TupleTcp}
    {prevA prevB prevOrgA prevOrgB : Option TupleNode} (hlen : ¬ sizeLt length 20)
    (hdoff : (tcphDoff packet off * 4 : ℕ) ≤ length)
    (hnested : nested packet (off + tcphDoff packet off * 4)
      (length - (tcphDoff packet off * 4 : ℕ)) = some (packet', rc))
    (hbuf : off + 4 ≤ packet.length) (hbuf' : off + 4 ≤ packet'.length) :
    ∃ cs, tcpCommit scratch nested prvA prvB prevA prevB prevOrgA prevOrgB packet off length =
        some (put16 (put16 (put16 packet' off prvA.port) (off + 2) prvB.port) (off + 16) cs, rc) ∧
      (cs.toNat : ZMod 65535) = (get16 packet (off + 16)).toNat +
        ((get16 packet off).toNat + (get16 packet (off + 2)).toNat +
          pseudoSum scratch prevOrgA prevOrgB) -
        (prvA.port.toNat + prvB.port.toNat + pseudoSum scratch prevA prevB) := by
  have hlen' : ¬ (sizeLt length 20 ∨ length < (tcphDoff packet off * 4 : ℕ)) := by
    push Not
    exact ⟨hlen, hdoff⟩
  obtain ⟨v, w, x, cs, hv, hw, hx, hcs, hcast⟩ := portSums_spec scratch (get16 packet (off + 16))
    prvA.port prvB.port prevA prevB prevOrgA prevOrgB hbuf hbuf'
  refine ⟨cs, ?_, hcast⟩
  simp only [tcpCommit, if_neg hlen', hv, hw, hnested, Option.bind_some, hx, hcs]

/-- **The UDP handler** does the same to a datagram that carries a checksum, as long as the nested
commit left the checksum alone. -/
theorem udpCommit_eq {scratch : UInt32} {prvA prvB : TupleUdp}
    {prevA prevB prevOrgA prevOrgB : Option TupleNode} (hlen : ¬ sizeLt length 8)
    (hcheck : get16 packet (off + 6) ≠ 0) (hcheck' : get16 packet' (off + 6) ≠ 0)
    (hnested : nested packet (off + 8) (length - 8) = some (packet', rc))
    (hbuf : off + 4 ≤ packet.length) (hbuf' : off + 4 ≤ packet'.length) :
    ∃ cs, udpCommit scratch nested prvA prvB prevA prevB prevOrgA prevOrgB packet off length =
        some (put16 (put16 (put16 packet' off prvA.port) (off + 2) prvB.port) (off + 6) cs, rc) ∧
      (cs.toNat : ZMod 65535) = (get16 packet (off + 6)).toNat +
        ((get16 packet off).toNat + (get16 packet (off + 2)).toNat +
          pseudoSum scratch prevOrgA prevOrgB) -
        (prvA.port.toNat + prvB.port.toNat + pseudoSum scratch prevA prevB) := by
  obtain ⟨v, w, x, cs, hv, hw, hx, hcs, hcast⟩ := portSums_spec scratch (get16 packet (off + 6))
    prvA.port prvB.port prevA prevB prevOrgA prevOrgB hbuf hbuf'
  -- the ports are written beside the checksum, so the second test sees what the first one saw
  have hretest : get16 (put16 (put16 packet' off prvA.port) (off + 2) prvB.port) (off + 6) ≠ 0 := by
    rw [get16_put16_of_ne (by simp only [length_put16]; omega) _ (by omega),
      get16_put16_of_ne (by omega) _ (by omega)]
    exact hcheck'
  refine ⟨cs, ?_, hcast⟩
  simp only [udpCommit, if_neg hlen, if_pos hcheck, hv, hw, hnested, Option.bind_some,
    if_pos hretest, hx, hcs]

/-- **The ICMP handler on an echo or an echo reply** sets the identifier and the sequence number,
each to the side that differs from the buffer. -/
theorem icmpCommit_echo_eq {prvA prvB : TupleIcmp} {prv2A prv2B : TupleIp}
    (htype : prvA.type = ICMP_ECHO ∨ prvA.type = ICMP_ECHOREPLY) (hlen : ¬ sizeLt length 8)
    (hnested : nested packet (off + 8) (length - 8) = some (packet', rc))
    (hbuf : off + 8 ≤ packet.length) (hbuf' : off + 8 ≤ packet'.length) :
    ∃ cs, icmpCommit nested prvA prvB (some (.ip prv2A)) (some (.ip prv2B)) packet off length =
        some (put16 (preferAlternative (preferAlternative packet' (off + 4) prvA.id prvB.id)
          (off + 6) prvA.seq prvB.seq) (off + 2) cs, rc) ∧
      (cs.toNat : ZMod 65535) = (get16 packet (off + 2)).toNat +
        ((get16 packet (off + 4)).toNat + (get16 packet (off + 6)).toNat) -
        ((if get16 packet' (off + 4) = prvA.id then prvB.id else prvA.id).toNat +
          (if get16 packet' (off + 6) = prvA.seq then prvB.seq else prvA.seq).toNat) := by
  have hexceeded : prvA.type ≠ ICMP_TIME_EXCEEDED := by
    rcases htype with h | h <;> rw [h] <;> decide
  have hstop : ¬ (prvA.type = ICMP_TIMESTAMP ∨ prvA.type = ICMP_TIMESTAMPREPLY ∨
      prvA.type = ICMP_REDIRECT) := by
    rcases htype with h | h <;> rw [h] <;> decide
  obtain ⟨v, hv, hvcast⟩ :=
    @checksumDecrement_stretch (get16 packet (off + 2)) packet (off + 4) 4 (by omega) rfl
  obtain ⟨cs, hcs, hcscast⟩ :=
    @checksumIncrement_stretch v (preferAlternative (preferAlternative packet' (off + 4) prvA.id
      prvB.id) (off + 6) prvA.seq prvB.seq) (off + 4) 4
      (by simp only [preferAlternative, length_put16]; omega) rfl
  have hold : stretchSum packet (off + 4) 4 =
      (get16 packet (off + 4)).toNat + (get16 packet (off + 6)).toNat :=
    stretchSum_get16_get16 (by omega)
  have hseq : get16 (preferAlternative packet' (off + 4) prvA.id prvB.id) (off + 6) =
      get16 packet' (off + 6) := get16_put16_of_ne (by omega) _ (by omega)
  have hnew : stretchSum (preferAlternative (preferAlternative packet' (off + 4) prvA.id prvB.id)
      (off + 6) prvA.seq prvB.seq) (off + 4) 4 =
        (if get16 packet' (off + 4) = prvA.id then prvB.id else prvA.id).toNat +
          (if get16 packet' (off + 6) = prvA.seq then prvB.seq else prvA.seq).toNat := by
    rw [preferAlternative, hseq]
    exact stretchSum_put16_put16 (by omega) _ _
  refine ⟨cs, ?_, ?_⟩
  · simp only [icmpCommit, icmpCommitWith, if_neg hlen, if_pos hexceeded, hv, if_neg hstop, hnested,
      Option.bind_some, if_neg hexceeded, if_pos htype, hcs]
  · rw [hcscast, hnew, hvcast, hold]
    ring

end

end Sweetspot
