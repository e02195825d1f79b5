import Sweetspot.Lib.Traced
import Sweetspot.Tuple.Commit

/-!
# What parsing and committing touch

The handlers of `sw_tuple_fetch` and `sw_tuple_commit` once more, each with the fields of the packet
it reads and writes, in the order in which the code does.  A field that was read before is not
listed again for its every use.

* `tupleFetchT`, `tupleCommitT`: the two dispatchers.
* `value_tupleFetchT`, `value_tupleCommitT`: they compute what `tupleFetch` and `tupleCommit` do.
-/

namespace Sweetspot

open Octets

/-! ## Fetching -/

/-- `__fetch` of `tuple_ip.c`.  With `SW_DEBUG_TUPLE` set, the line about a short packet reads the
total length, tested or not. -/
def ipFetchT (debug : Bool) (fetch : ℕ → ℕ → ℤ → Traced Fetched) (packet : List UInt8) (off : ℕ)
    (length : ℤ) : Traced Fetched := do
  let octet ← Traced.read8 packet off
  if octet.toNat / 16 ≠ 4 then return some none
  else if sizeLt length 20 then
    if debug then
      Traced.touch (off + 2) 2
      return some none
    else return some none
  else
    let totLen ← Traced.read16 packet (off + 2)
    if length < totLen.toNat then return some none
    else
      let saddr ← Traced.read32 packet (off + 12)
      let id ← Traced.read16 packet (off + 4)
      let fragOff ← Traced.read16 packet (off + 6)
      let daddr ← Traced.read32 packet (off + 16)
      let a : TupleNode := .ip ⟨saddr, id, fragOff⟩
      let b : TupleNode := .ip ⟨daddr, id, fragOff⟩
      if fragOff.toNat % 0x2000 ≠ 0 then return some (some ([a], [b]))
      else
        let protocol ← Traced.read8 packet (off + 9)
        let r ← fetch protocol.toNat (iphPayload packet off) (iphPayloadLen packet off)
        return r.push a b

/-- `__fetch` of `tuple_tcp.c`. -/
def tcpFetchT (packet : List UInt8) (off : ℕ) (length : ℤ) : Traced Fetched := do
  if sizeLt length 20 ∨ length < 20 then return some none
  else
    let source ← Traced.read16 packet off
    Traced.touch (off + 13) 1
    let dest ← Traced.read16 packet (off + 2)
    return some (some ([.tcp ⟨source, tcphFlags packet off⟩],
      [.tcp ⟨dest, tcphFlags packet off⟩]))

/-- `__fetch` of `tuple_udp.c`. -/
def udpFetchT (packet : List UInt8) (off : ℕ) (length : ℤ) : Traced Fetched := do
  if sizeLt length 8 then return some none
  else
    let source ← Traced.read16 packet off
    let dest ← Traced.read16 packet (off + 2)
    return some (some ([.udp ⟨source⟩], [.udp ⟨dest⟩]))

/-- `__fetch` of `tuple_icmp.c`. -/
def icmpFetchT (uninit : ℕ → TupleIcmp × TupleIcmp) (fetch : ℕ → ℕ → ℤ → Traced Fetched)
    (packet : List UInt8) (off : ℕ) (length : ℤ) : Traced Fetched := do
  if sizeLt length 8 then return some none
  else
    let type ← Traced.read8 packet off
    let a := { (uninit off).1 with type }
    let b := { (uninit off).2 with type }
    if type = ICMP_ECHO ∨ type = ICMP_ECHOREPLY then
      let id ← Traced.read16 packet (off + 4)
      let seq ← Traced.read16 packet (off + 6)
      return some (some ([.icmp { a with id, seq }], [.icmp { b with id, seq }]))
    else if type = ICMP_TIMESTAMP ∨ type = ICMP_TIMESTAMPREPLY ∨ type = ICMP_REDIRECT then
      return some (some ([.icmp a], [.icmp b]))
    else if type = ICMP_TIME_EXCEEDED then
      let id ← Traced.read16 packet (off + 32)
      let seq ← Traced.read16 packet (off + 34)
      return some (some ([.icmp { a with id, seq }], [.icmp { b with id, seq }]))
    else
      let r ← fetch IPPROTO_IP (off + 8) (length - 8)
      return r.push (.icmp a) (.icmp b)

/-- `sw_tuple_fetch`, given `fuel` calls. -/
def tupleFetchT (debug : Bool) (uninit : ℕ → TupleIcmp × TupleIcmp) (packet : List UInt8) :
    ℕ → ℕ → ℕ → ℤ → Traced Fetched
  | 0, _, _, _ => pure none
  | fuel + 1, protocol, off, length =>
    if protocol = IPPROTO_IP then
      ipFetchT debug (tupleFetchT debug uninit packet fuel) packet off length
    else if protocol = IPPROTO_TCP then tcpFetchT packet off length
    else if protocol = IPPROTO_UDP then udpFetchT packet off length
    else if protocol = IPPROTO_ICMP then
      icmpFetchT uninit (tupleFetchT debug uninit packet fuel) packet off length
    else pure (some none)

section

variable (uninit : ℕ → TupleIcmp × TupleIcmp) (fetch : ℕ → ℕ → ℤ → Traced Fetched)
  (packet : List UInt8) (off : ℕ) (length : ℤ)

theorem value_ipFetchT (debug : Bool) :
    (ipFetchT debug fetch packet off length).value =
      ipFetch (fun protocol off length => (fetch protocol off length).value) packet off length := by
  by_cases hv : (get8 packet off).toNat / 16 = 4
  · by_cases hlen : sizeLt length 20
    · cases debug <;> simp [ipFetchT, ipFetch, iphVersion, hv, hlen]
    · by_cases hf : (get16 packet (off + 6)).toNat % 0x2000 = 0 <;>
        simp [ipFetchT, ipFetch, iphVersion, iphTotLen, iphSaddr, iphDaddr, iphId, iphFragOff,
          iphProtocol, hv, hlen, hf]
  · simp [ipFetchT, ipFetch, iphVersion, hv]

theorem value_tcpFetchT : (tcpFetchT packet off length).value = tcpFetch packet off length := by
  simp [tcpFetchT, tcpFetch]

theorem value_udpFetchT : (udpFetchT packet off length).value = udpFetch packet off length := by
  simp [udpFetchT, udpFetch]

theorem value_icmpFetchT :
    (icmpFetchT uninit fetch packet off length).value =
      icmpFetch uninit (fun protocol off length => (fetch protocol off length).value) packet off
        length := by
  simp [icmpFetchT, icmpFetch]

end

/-- **The traced fetch is the fetch.** -/
theorem value_tupleFetchT (debug : Bool) (uninit : ℕ → TupleIcmp × TupleIcmp) (packet : List UInt8)
    (fuel protocol off : ℕ) (length : ℤ) :
    (tupleFetchT debug uninit packet fuel protocol off length).value =
      tupleFetch uninit packet fuel protocol off length := by
  induction fuel generalizing protocol off length with
  | zero => rfl
  | succ fuel ih =>
    simp only [tupleFetchT, tupleFetch, Traced.value_ite, value_ipFetchT, value_tcpFetchT,
      value_udpFetchT, value_icmpFetchT, Traced.value_pure, ih]

/-! ## Committing -/

/-- The commit of the rest of the chains, with what it touches. -/
abbrev NestedCommitT := List UInt8 → ℕ → ℤ → Traced Committed

/-- `__commit` of `tuple_ip.c`. -/
def ipCommitT (nested : NestedCommitT) (prvA prvB : TupleIp) (packet : List UInt8) (off : ℕ)
    (length : ℤ) : Traced Committed := do
  if sizeLt length 20 then
    -- the line about a short packet
    Traced.touch (off + 2) 2
    return some (packet, -1)
  else
    let totLen ← Traced.read16 packet (off + 2)
    if length < totLen.toNat then return some (packet, -1)
    else
      let check ← Traced.read16 packet (off + 10)
      let addresses ← Traced.readStretch packet (off + 12) 8
      match checksumDecrement check true addresses with
      | none => return some (packet, -1)
      | some partialCs =>
        Traced.touch off 1
        match ← nested packet (iphPayload packet off) (iphPayloadLen packet off) with
        | none => return none
        | some (packet, rc) =>
          let packet ← Traced.write32 packet (off + 12) prvA.ip
          let packet ← Traced.write32 packet (off + 16) prvB.ip
          let addresses ← Traced.readStretch packet (off + 12) 8
          match checksumIncrement partialCs true addresses with
          | none => return some (packet, -1)
          | some cs =>
            let packet ← Traced.write16 packet (off + 10) cs
            return some (packet, rc)

/-- `__commit` of `tuple_tcp.c`. -/
def tcpCommitT (scratch : UInt32) (nested : NestedCommitT) (prvA prvB : TupleTcp)
    (prevA prevB prevOrgA prevOrgB : Option TupleNode) (packet : List UInt8) (off : ℕ)
    (length : ℤ) : Traced Committed := do
  -- `doff` is read by the test or else by the line about a short packet
  Traced.touch (off + 12) 1
  let doff := tcphDoff packet off * 4
  if sizeLt length 20 ∨ length < doff then return some (packet, -1)
  else
    let check ← Traced.read16 packet (off + 16)
    let ports ← Traced.readStretch packet off 4
    match checksumDecrement check true ports with
    | none => return some (packet, -1)
    | some cs =>
      match pseudoDecrement scratch cs prevOrgA prevOrgB with
      | none => return some (packet, -1)
      | some cs =>
        match ← nested packet (off + doff) (length - doff) with
        | none => return none
        | some (packet, rc) =>
          let packet ← Traced.write16 packet off prvA.port
          let packet ← Traced.write16 packet (off + 2) prvB.port
          match pseudoIncrement scratch cs prevA prevB with
          | none => return some (packet, -1)
          | some cs =>
            let ports ← Traced.readStretch packet off 4
            match checksumIncrement cs true ports with
            | none => return some (packet, -1)
            | some cs =>
              let packet ← Traced.write16 packet (off + 16) cs
              return some (packet, rc)

/-- What the UDP handler takes out of a checksum before it goes on. -/
def udpTakeOutT (scratch : UInt32) (prevOrgA prevOrgB : Option TupleNode) (packet : List UInt8)
    (off : ℕ) : Traced (Option UInt16) := do
  let check ← Traced.read16 packet (off + 6)
  if check ≠ 0 then
    let ports ← Traced.readStretch packet off 4
    return (checksumDecrement check true ports).bind fun cs =>
      pseudoDecrement scratch cs prevOrgA prevOrgB
  else return some 0

/-- `__commit` of `tuple_udp.c`. -/
def udpCommitT (scratch : UInt32) (nested : NestedCommitT) (prvA prvB : TupleUdp)
    (prevA prevB prevOrgA prevOrgB : Option TupleNode) (packet : List UInt8) (off : ℕ)
    (length : ℤ) : Traced Committed := do
  if sizeLt length 8 then return some (packet, -1)
  else
    match ← udpTakeOutT scratch prevOrgA prevOrgB packet off with
    | none => return some (packet, -1)
    | some cs =>
      match ← nested packet (off + 8) (length - 8) with
      | none => return none
      | some (packet, rc) =>
        let packet ← Traced.write16 packet off prvA.port
        let packet ← Traced.write16 packet (off + 2) prvB.port
        let check ← Traced.read16 packet (off + 6)
        if check ≠ 0 then
          let ports ← Traced.readStretch packet off 4
          match (pseudoIncrement scratch cs prevA prevB).bind fun cs =>
              checksumIncrement cs true ports with
          | none => return some (packet, -1)
          | some cs =>
            let packet ← Traced.write16 packet (off + 6) cs
            return some (packet, rc)
        else return some (packet, rc)

/-- `preferAlternative`, which reads the field and writes it. -/
def preferAlternativeT (packet : List UInt8) (i : ℕ) (a b : UInt16) : Traced (List UInt8) := do
  let v ← Traced.read16 packet i
  Traced.write16 packet i (if v = a then b else a)

/-- What the ICMP handler takes out of a checksum before it goes on. -/
def icmpTakeOutT (type : UInt8) (packet : List UInt8) (off : ℕ) : Traced (Option UInt16) := do
  if type ≠ ICMP_TIME_EXCEEDED then
    let checksum ← Traced.read16 packet (off + 2)
    let un ← Traced.readStretch packet (off + 4) 4
    return checksumDecrement checksum true un
  else return some 0

/-- What the ICMP handler writes to an echo. -/
def echoWritesT (prvA prvB : TupleIcmp) (packet : List UInt8) (off : ℕ) : Traced (List UInt8) := do
  if prvA.type = ICMP_ECHO ∨ prvA.type = ICMP_ECHOREPLY then
    let packet ← preferAlternativeT packet (off + 4) prvA.id prvB.id
    preferAlternativeT packet (off + 6) prvA.seq prvB.seq
  else return packet

/-- `__commit` of `tuple_icmp.c`. -/
def icmpCommitT (nested : NestedCommitT) (prvA prvB : TupleIcmp) (prevA prevB : Option TupleNode)
    (packet : List UInt8) (off : ℕ) (length : ℤ) : Traced Committed :=
  match prevA, prevB with
  | some (.ip _), some (.ip prv2B) => do
    if sizeLt length 8 then return some (packet, -1)
    else
      match ← icmpTakeOutT prvA.type packet off with
      | none => return some (packet, -1)
      | some cs =>
        if prvA.type = ICMP_TIMESTAMP ∨ prvA.type = ICMP_TIMESTAMPREPLY ∨
            prvA.type = ICMP_REDIRECT then return some (packet, 0)
        else
          match ← nested packet (off + 8) (length - 8) with
          | none => return none
          | some (packet, rc) =>
            if prvA.type = ICMP_TIME_EXCEEDED then
              let checksum ← Traced.read16 packet (off + 2)
              let quoted ← Traced.readStretch packet (off + 8) 28
              match checksumDecrement checksum true quoted with
              | none => return some (packet, -1)
              | some cs =>
                let packet ← Traced.write32 packet (off + 20) prv2B.ip
                let packet ← preferAlternativeT packet (off + 32) prvA.id prvB.id
                let packet ← preferAlternativeT packet (off + 34) prvA.seq prvB.seq
                let quoted ← Traced.readStretch packet (off + 8) 28
                match checksumIncrement cs true quoted with
                | none => return some (packet, -1)
                | some cs =>
                  let packet ← Traced.write16 packet (off + 2) cs
                  return some (packet, rc)
            else
              let packet ← echoWritesT prvA prvB packet off
              let un ← Traced.readStretch packet (off + 4) 4
              match checksumIncrement cs true un with
              | none => return some (packet, -1)
              | some cs =>
                let packet ← Traced.write16 packet (off + 2) cs
                return some (packet, rc)
  | _, _ => pure none

/-- `sw_tuple_commit`. -/
def tupleCommitT (scratch : UInt32) :
    Option TupleNode → Chain → TuplePtr → TuplePtr → TuplePtr → NestedCommitT
  | _, [], _, _, _, packet, _, _ => pure (some (packet, 0))
  | prevA, x :: as, b, orgA, orgB, packet, off, length =>
    match b.chain with
    | [] => pure (some (packet, 0))
    | y :: _ =>
      let orgA := orgA.orElse ⟨prevA, x :: as⟩
      let orgB := orgB.orElse b
      let nested : NestedCommitT := tupleCommitT scratch (some x) as b.next orgA.next orgB.next
      match x, y with
      | .ip prvA, .ip prvB => ipCommitT nested prvA prvB packet off length
      | .tcp prvA, .tcp prvB =>
        tcpCommitT scratch nested prvA prvB prevA b.prev orgA.prev orgB.prev packet off length
      | .udp prvA, .udp prvB =>
        udpCommitT scratch nested prvA prvB prevA b.prev orgA.prev orgB.prev packet off length
      | .icmp prvA, .icmp prvB => icmpCommitT nested prvA prvB prevA b.prev packet off length
      | _, _ => pure (some (packet, -1))

section

variable (scratch : UInt32) (nested : NestedCommitT)
  (prevA prevB prevOrgA prevOrgB : Option TupleNode) (packet : List UInt8) (off : ℕ) (length : ℤ)

theorem value_ipCommitT (prvA prvB : TupleIp) :
    (ipCommitT nested prvA prvB packet off length).value =
      ipCommit (fun packet off length => (nested packet off length).value) prvA prvB packet off
        length := by
  by_cases hlen : sizeLt length 20
  · simp [ipCommitT, ipCommit, ipCommitWith, hlen]
  by_cases htot : length < iphTotLen packet off
  · have htot' : length < (get16 packet (off + 2)).toNat := htot
    simp [ipCommitT, ipCommit, ipCommitWith, hlen, htot, htot']
  have htot' : ¬ length < (get16 packet (off + 2)).toNat := htot
  simp only [ipCommitT, ipCommit, ipCommitWith, hlen, htot, htot', Traced.value_bind, if_false,
    or_self, iphCheck]
  rcases checksumDecrement (get16 packet (off + 10)) true (stretch packet (off + 12) 8) with _ | cs
  · rfl
  simp only [Traced.value_bind]
  rcases (nested packet (iphPayload packet off) (iphPayloadLen packet off)).value with _ | ⟨q, rc⟩
  · rfl
  simp only [Traced.value_bind, Option.bind_some]
  rcases checksumIncrement cs true (stretch (put32 (put32 q (off + 12) prvA.ip) (off + 16) prvB.ip)
    (off + 12) 8) with _ | cs <;> rfl

theorem value_tcpCommitT (prvA prvB : TupleTcp) :
    (tcpCommitT scratch nested prvA prvB prevA prevB prevOrgA prevOrgB packet off length).value =
      tcpCommit scratch (fun packet off length => (nested packet off length).value) prvA prvB prevA
        prevB prevOrgA prevOrgB packet off length := by
  by_cases hlen : sizeLt length 20 ∨ length < (tcphDoff packet off * 4 : ℕ)
  · simp only [tcpCommitT, tcpCommit, Traced.value_bind, if_pos hlen, Traced.value_pure]
  simp only [tcpCommitT, tcpCommit, Traced.value_bind, if_neg hlen]
  rcases checksumDecrement (get16 packet (off + 16)) true (stretch packet off 4) with _ | cs
  · rfl
  simp only
  rcases pseudoDecrement scratch cs prevOrgA prevOrgB with _ | cs
  · rfl
  simp only [Traced.value_bind]
  rcases (nested packet (off + tcphDoff packet off * 4)
    (length - (tcphDoff packet off * 4 : ℕ))).value with _ | ⟨q, rc⟩
  · rfl
  simp only [Traced.value_bind, Option.bind_some]
  rcases pseudoIncrement scratch cs prevA prevB with _ | cs
  · rfl
  simp only [Traced.value_bind]
  rcases checksumIncrement cs true (stretch (put16 (put16 q off prvA.port) (off + 2) prvB.port)
    off 4) with _ | cs <;> rfl

theorem value_udpCommitT (prvA prvB : TupleUdp) :
    (udpCommitT scratch nested prvA prvB prevA prevB prevOrgA prevOrgB packet off length).value =
      udpCommit scratch (fun packet off length => (nested packet off length).value) prvA prvB prevA
        prevB prevOrgA prevOrgB packet off length := by
  by_cases hlen : sizeLt length 8
  · simp only [udpCommitT, udpCommit, if_pos hlen, Traced.value_pure]
  have hout : (udpTakeOutT scratch prevOrgA prevOrgB packet off).value =
      (if get16 packet (off + 6) ≠ 0 then
        (checksumDecrement (get16 packet (off + 6)) true (stretch packet off 4)).bind fun cs =>
          pseudoDecrement scratch cs prevOrgA prevOrgB
      else some 0) := by
    simp only [udpTakeOutT, Traced.value_bind, Traced.value_ite, Traced.value_pure]
  simp only [udpCommitT, udpCommit, if_neg hlen, Traced.value_bind, hout]
  rcases (if get16 packet (off + 6) ≠ 0 then
    (checksumDecrement (get16 packet (off + 6)) true (stretch packet off 4)).bind fun cs =>
      pseudoDecrement scratch cs prevOrgA prevOrgB
    else some 0) with _ | cs
  · rfl
  simp only [Traced.value_bind]
  rcases (nested packet (off + 8) (length - 8)).value with _ | ⟨q, rc⟩
  · rfl
  simp only [Traced.value_bind, Option.bind_some]
  by_cases hcheck : get16 (put16 (put16 q off prvA.port) (off + 2) prvB.port) (off + 6) ≠ 0
  · rw [if_pos hcheck, if_pos hcheck]
    simp only [Traced.value_bind]
    rcases (pseudoIncrement scratch cs prevA prevB).bind fun cs =>
      checksumIncrement cs true (stretch (put16 (put16 q off prvA.port) (off + 2) prvB.port) off 4)
      with _ | cs <;> rfl
  · rw [if_neg hcheck, if_neg hcheck]
    rfl

theorem value_preferAlternativeT (i : ℕ) (a b : UInt16) :
    (preferAlternativeT packet i a b).value = preferAlternative packet i a b := rfl

theorem value_echoWritesT (prvA prvB : TupleIcmp) :
    (echoWritesT prvA prvB packet off).value =
      if prvA.type = ICMP_ECHO ∨ prvA.type = ICMP_ECHOREPLY then
        preferAlternative (preferAlternative packet (off + 4) prvA.id prvB.id) (off + 6)
          prvA.seq prvB.seq
      else packet := by
  simp only [echoWritesT, Traced.value_ite, Traced.value_bind, value_preferAlternativeT,
    Traced.value_pure]

theorem value_icmpCommitT (prvA prvB : TupleIcmp) :
    (icmpCommitT nested prvA prvB prevA prevB packet off length).value =
      icmpCommit (fun packet off length => (nested packet off length).value) prvA prvB prevA prevB
        packet off length := by
  rcases prevA with _ | ⟨prv2A⟩ | _ | _ | _ <;> rcases prevB with _ | ⟨prv2B⟩ | _ | _ | _ <;>
    try rfl
  by_cases hlen : sizeLt length 8
  · simp only [icmpCommitT, icmpCommit, icmpCommitWith, if_pos hlen, Traced.value_pure]
  have hout : (icmpTakeOutT prvA.type packet off).value =
      (if prvA.type ≠ ICMP_TIME_EXCEEDED then
        checksumDecrement (get16 packet (off + 2)) true (stretch packet (off + 4) 4)
      else some 0) := by
    simp only [icmpTakeOutT, Traced.value_bind, Traced.value_ite, Traced.value_pure]
  simp only [icmpCommitT, icmpCommit, icmpCommitWith, if_neg hlen, Traced.value_bind, hout]
  rcases (if prvA.type ≠ ICMP_TIME_EXCEEDED then
    checksumDecrement (get16 packet (off + 2)) true (stretch packet (off + 4) 4)
    else some 0) with _ | cs
  · rfl
  by_cases hstop : prvA.type = ICMP_TIMESTAMP ∨ prvA.type = ICMP_TIMESTAMPREPLY ∨
      prvA.type = ICMP_REDIRECT
  · simp only [if_pos hstop, Traced.value_pure]
  simp only [if_neg hstop, Traced.value_bind]
  rcases (nested packet (off + 8) (length - 8)).value with _ | ⟨q, rc⟩
  · rfl
  by_cases htype : prvA.type = ICMP_TIME_EXCEEDED
  · simp only [if_pos htype, Traced.value_bind, Option.bind_some]
    rcases checksumDecrement (get16 q (off + 2)) true (stretch q (off + 8) 28) with _ | cs
    · rfl
    simp only [Traced.value_bind, value_preferAlternativeT]
    rcases checksumIncrement cs true (stretch (preferAlternative (preferAlternative
      (put32 q (off + 20) prv2B.ip) (off + 32) prvA.id prvB.id) (off + 34) prvA.seq prvB.seq)
      (off + 8) 28) with _ | cs <;> rfl
  · simp only [if_neg htype, Traced.value_bind, Option.bind_some, value_echoWritesT]
    rcases checksumIncrement cs true (stretch (if prvA.type = ICMP_ECHO ∨
      prvA.type = ICMP_ECHOREPLY then preferAlternative (preferAlternative q (off + 4) prvA.id
      prvB.id) (off + 6) prvA.seq prvB.seq else q) (off + 4) 4) with _ | cs <;> rfl

/-- **The traced commit is the commit.** -/
theorem value_tupleCommitT (a : Chain) (b orgA orgB : TuplePtr) :
    (tupleCommitT scratch prevA a b orgA orgB packet off length).value =
      tupleCommit scratch prevA a b orgA orgB packet off length := by
  induction a generalizing prevA b orgA orgB packet off length with
  | nil => rfl
  | cons x as ih =>
    rw [tupleCommitT, tupleCommit]
    rcases b.chain with _ | ⟨y, bs⟩
    · rfl
    cases x <;> cases y <;>
      simp only [value_ipCommitT, value_tcpCommitT, value_udpCommitT, value_icmpCommitT, ih,
        Traced.value_pure]

end

end Sweetspot
