import Sweetspot.Lib.Edits
import Sweetspot.Tuple.Rewrite

/-!
# The build that recomputes checksums

Compiled with `CHECHSUMM_FULL_CALC`, `sw_tuple_commit` still adjusts the checksums of IP and ICMP
but sums a TCP or UDP segment anew, with the pseudo-header in front and an odd octet at the end.

* `tupleCommitFull`: the dispatcher and the handlers of that build; those of IP and ICMP differ from
  the default ones in the increment alone.
* `checksumIncrementFull_spec`: its increment adds the sum of octets of any number, and
  `checksumIncrementFull_eq`: on an even number it is the increment of the default build.
* `tupleCommitFull_transport`: what is left in a TCP or UDP header is the complement of the sum.
* `tupleCommit_agree_tupleCommitFull`: where the checksum of the packet was right, the two builds
  leave the same packet, up to the two zeros of one's-complement arithmetic in one field.
-/

namespace Sweetspot

open Octets

/-! ## The increment of this build -/

/-- The two loops of `sw_tuple_checksum_increment`: an odd octet at the end is a high one. -/
def fullIncrementLoop : ℕ → List UInt8 → ℕ
  | x, b :: b' :: packet =>
    let y := x + (b.toNat * 256 + b'.toNat)
    fullIncrementLoop (if y / 65536 ≠ 0 then y % 65536 + 1 else y) packet
  | x, [b] =>
    let y := x + b.toNat * 256
    if y / 65536 ≠ 0 then y % 65536 + 1 else y
  | x, [] => x

/-- `sw_tuple_checksum_increment`, which always returns 0 here. -/
def checksumIncrementFull (partialCsum : UInt16) (finalFlag : Bool) (packet : List UInt8) :
    UInt16 :=
  let x := fullIncrementLoop partialCsum.toNat packet
  UInt16.ofNat (if finalFlag then 65535 - x else x)

/-! ## The handlers -/

/-- The static `pseudo_hdr` of the TCP and UDP handlers, every field of it set. -/
def pseudoHdrFull (saddr daddr : UInt32) (protocol : ℕ) (length : ℤ) : List UInt8 :=
  let len := (length % 65536).toNat
  octets32 saddr ++ octets32 daddr ++
    [0, UInt8.ofNat protocol, UInt8.ofNat (len / 256), UInt8.ofNat (len % 256)]

/-- `sw_tuple_checksum_increment` of the pseudo-header, if both nodes are IP. -/
def pseudoIncrementFull (protocol : ℕ) (length : ℤ) (cs : UInt16) :
    Option TupleNode → Option TupleNode → UInt16
  | some (.ip a), some (.ip b) =>
    checksumIncrementFull cs false (pseudoHdrFull a.ip b.ip protocol length)
  | _, _ => cs

/-- The increment as the handlers call it. -/
def incrementFull : Increment := fun partialCsum finalFlag packet =>
  some (checksumIncrementFull partialCsum finalFlag packet)

/-- `__commit` of `tuple_ip.c`. -/
def ipCommitFull : NestedCommit → TupleIp → TupleIp → NestedCommit := ipCommitWith incrementFull

/-- `__commit` of `tuple_tcp.c`, which does not look at `doff` before it uses it. -/
def tcpCommitFull (nested : NestedCommit) (prvA prvB : TupleTcp) (prevA prevB : Option TupleNode)
    (packet : List UInt8) (off : ℕ) (length : ℤ) : Committed :=
  if sizeLt length 20 ∨ length < 20 then some (packet, -1)
  else
    let doff := tcphDoff packet off * 4
    (nested packet (off + doff) (length - doff)).bind fun (packet, rc) =>
      let packet := put16 packet off prvA.port
      let packet := put16 packet (off + 2) prvB.port
      let packet := put16 packet (off + 16) 0
      let cs := pseudoIncrementFull IPPROTO_TCP length 0 prevA prevB
      let cs := checksumIncrementFull cs true (stretch packet off length.toNat)
      some (put16 packet (off + 16) cs, rc)

/-- `__commit` of `tuple_udp.c`, which clears the checksum only where there is a pseudo-header. -/
def udpCommitFull (nested : NestedCommit) (prvA prvB : TupleUdp) (prevA prevB : Option TupleNode)
    (packet : List UInt8) (off : ℕ) (length : ℤ) : Committed :=
  if sizeLt length 8 then some (packet, -1)
  else
    (nested packet (off + 8) (length - 8)).bind fun (packet, rc) =>
      let packet := put16 packet off prvA.port
      let packet := put16 packet (off + 2) prvB.port
      if get16 packet (off + 6) ≠ 0 then
        let packet :=
          match prevA, prevB with
          | some (.ip _), some (.ip _) => put16 packet (off + 6) 0
          | _, _ => packet
        let cs := pseudoIncrementFull IPPROTO_UDP length 0 prevA prevB
        let cs := checksumIncrementFull cs true (stretch packet off length.toNat)
        some (put16 packet (off + 6) cs, rc)
      else some (packet, rc)

/-- `__commit` of `tuple_icmp.c`. -/
def icmpCommitFull : NestedCommit → TupleIcmp → TupleIcmp → Option TupleNode → Option TupleNode →
    NestedCommit :=
  icmpCommitWith incrementFull

/-- `sw_tuple_commit`.  The handlers of this build do not read the original chains. -/
def tupleCommitFull : Option TupleNode → Chain → TuplePtr → TuplePtr → TuplePtr → NestedCommit
  | _, [], _, _, _, packet, _, _ => some (packet, 0)
  | prevA, x :: as, b, orgA, orgB, packet, off, length =>
    match b.chain with
    | [] => some (packet, 0)
    | y :: _ =>
      let orgA := orgA.orElse ⟨prevA, x :: as⟩
      let orgB := orgB.orElse b
      let nested : NestedCommit := tupleCommitFull (some x) as b.next orgA.next orgB.next
      match x, y with
      | .ip prvA, .ip prvB => ipCommitFull nested prvA prvB packet off length
      | .tcp prvA, .tcp prvB => tcpCommitFull nested prvA prvB prevA b.prev packet off length
      | .udp prvA, .udp prvB => udpCommitFull nested prvA prvB prevA b.prev packet off length
      | .icmp prvA, .icmp prvB => icmpCommitFull nested prvA prvB prevA b.prev packet off length
      | _, _ => some (packet, -1)

/-! ## What the increment computes -/

/-- The end-around carry keeps the accumulator in 16 bits and its residue. -/
theorem end_around_spec {x w : ℕ} (hx : x ≤ 65535) (hw : w ≤ 65535) :
    let y := x + w
    let x' := if y / 65536 ≠ 0 then y % 65536 + 1 else y
    x' ≤ 65535 ∧ (x' : ZMod 65535) = x + w := by
  intro y x'
  by_cases hy : y / 65536 ≠ 0
  · have hx' : x' + 65535 = y := by
      show (if y / 65536 ≠ 0 then y % 65536 + 1 else y) + 65535 = y
      rw [if_pos hy]
      omega
    refine ⟨by omega, ?_⟩
    have hcast : ((x' + 65535 : ℕ) : ZMod 65535) = (x + w : ℕ) := congrArg _ hx'
    push_cast at hcast
    rw [← hcast, show (65535 : ZMod 65535) = 0 by decide, add_zero]
  · have hx' : x' = y := if_neg hy
    refine ⟨by omega, ?_⟩
    rw [hx', Nat.cast_add]

theorem fullIncrementLoop_spec (x : ℕ) (packet : List UInt8) (hx : x ≤ 65535) :
    fullIncrementLoop x packet ≤ 65535 ∧
      (fullIncrementLoop x packet : ZMod 65535) = x + onesSum packet := by
  induction packet using List.twoStepInduction generalizing x with
  | nil => exact ⟨hx, by simp [fullIncrementLoop, onesSum]⟩
  | singleton b =>
    have hb := b.toNat_lt
    obtain ⟨hrange, hcast⟩ := end_around_spec hx (show b.toNat * 256 ≤ 65535 by omega)
    refine ⟨hrange, ?_⟩
    rw [fullIncrementLoop, hcast, ← wordSum_cast, wordSum]
  | cons_cons b b' bs ih _ =>
    obtain ⟨hrange, hcast⟩ := end_around_spec hx (word_le b b')
    obtain ⟨hrange', hcast'⟩ := ih _ hrange
    refine ⟨hrange', ?_⟩
    rw [fullIncrementLoop, hcast', hcast, onesSum_cons_cons]
    ring

/-- **Putting octets in adds their sum**, however many they are. -/
theorem checksumIncrementFull_spec (partialCsum : UInt16) (finalFlag : Bool)
    (packet : List UInt8) :
    ((checksumIncrementFull partialCsum finalFlag packet).toNat : ZMod 65535) =
      if finalFlag then -((partialCsum.toNat : ZMod 65535) + onesSum packet)
      else partialCsum.toNat + onesSum packet := by
  have hcsum := partialCsum.toNat_lt
  obtain ⟨hrange, hcast⟩ := fullIncrementLoop_spec partialCsum.toNat packet (by omega)
  cases finalFlag with
  | true =>
    simp only [checksumIncrementFull, if_true]
    rw [UInt16.toNat_ofNat', Nat.mod_eq_of_lt (by omega), Nat.cast_sub hrange, hcast,
      show ((65535 : ℕ) : ZMod 65535) = 0 by decide, zero_sub]
  | false =>
    simp only [checksumIncrementFull, Bool.false_eq_true, if_false]
    rw [UInt16.toNat_ofNat', Nat.mod_eq_of_lt (by omega), hcast]

/-- On whole words the two loops are one. -/
theorem incrementLoop_eq_full (x : ℕ) (packet : List UInt8) (hx : x ≤ 65535)
    (heven : packet.length % 2 = 0) :
    incrementLoop x packet = fullIncrementLoop x packet := by
  induction packet using List.twoStepInduction generalizing x with
  | nil => rfl
  | singleton b => simp at heven
  | cons_cons b b' bs ih _ =>
    have hrange := (end_around_spec hx (word_le b b')).1
    have hw := word_le b b'
    have hword : (if ((x : ℤ) + (b.toNat * 256 + b'.toNat : ℕ)) / 65536 % 2 ≠ 0
          then ((x : ℤ) + (b.toNat * 256 + b'.toNat : ℕ) + 1) % 65536
          else (x : ℤ) + (b.toNat * 256 + b'.toNat : ℕ)) =
        ((if (x + (b.toNat * 256 + b'.toNat)) / 65536 ≠ 0
          then (x + (b.toNat * 256 + b'.toNat)) % 65536 + 1
          else x + (b.toNat * 256 + b'.toNat) : ℕ) : ℤ) := by
      generalize b.toNat * 256 + b'.toNat = w at hw ⊢
      by_cases hcarry : (x + w) / 65536 ≠ 0
      · rw [if_pos hcarry, if_pos (by omega)]
        omega
      · rw [if_neg hcarry, if_neg (by omega)]
        omega
    rw [incrementLoop, fullIncrementLoop]
    simp only [hword]
    exact ih _ hrange (by simp only [List.length_cons] at heven; omega)

/-- **On an even number of octets the two increments are one.** -/
theorem checksumIncrementFull_eq (partialCsum : UInt16) (finalFlag : Bool) {packet : List UInt8}
    (heven : packet.length % 2 = 0) :
    checksumIncrement partialCsum finalFlag packet =
      some (checksumIncrementFull partialCsum finalFlag packet) := by
  have hcsum := partialCsum.toNat_lt
  have hrange := (fullIncrementLoop_spec partialCsum.toNat packet (by omega)).1
  have hloop := incrementLoop_eq_full partialCsum.toNat packet (by omega) heven
  rw [checksumIncrement, if_neg (by omega), checksumIncrementFull]
  simp only [hloop]
  cases finalFlag with
  | true =>
    simp only [if_true]
    congr 2
    omega
  | false =>
    simp only [Bool.false_eq_true, if_false, Int.toNat_natCast]

/-! ## What the handlers write -/

theorem onesSum_pseudoHdrFull (saddr daddr : UInt32) (protocol : ℕ) (length : ℤ) :
    onesSum (pseudoHdrFull saddr daddr protocol length) = saddr.toNat + daddr.toNat +
      onesSum [0, UInt8.ofNat protocol, UInt8.ofNat ((length % 65536).toNat / 256),
        UInt8.ofNat ((length % 65536).toNat % 256)] := by
  rw [pseudoHdrFull, onesSum_append (by simp [length_octets32]),
    onesSum_append (by simp [length_octets32]), onesSum_octets32, onesSum_octets32]

/-- The packet the segment is summed in: the fields are set and the checksum is clear. -/
def cleared (p : List UInt8) (seg : ℕ) (f : TransportFields) : List UInt8 :=
  put16 (put16 (put16 p (seg + f.first) f.newFirst) (seg + f.second) f.newSecond)
    (seg + f.check) 0

/-- The sum of a segment made ready, from the sum of the segment that came. -/
theorem stretchSum_cleared {p : List UInt8} {seg n : ℕ} {f : TransportFields} (hn : f.size ≤ n)
    (hbuf : seg + n ≤ p.length) :
    stretchSum (cleared p seg f) seg n =
      stretchSum p seg n + (f.newFirst.toNat - (get16 p (seg + f.first)).toNat) +
        (f.newSecond.toNat - (get16 p (seg + f.second)).toNat) -
        (get16 p (seg + f.check)).toNat := by
  obtain ⟨hc, hs⟩ := f.inside
  obtain ⟨hfs, hcheck⟩ := f.apart
  obtain ⟨hce, hfe, hse⟩ := f.even
  rw [cleared, stretchSum_put16 (by omega) (by omega) (by omega) (by simp; omega),
    stretchSum_put16 (by omega) (by omega) (by omega) (by simp; omega),
    stretchSum_put16 (by omega) (by omega) (by omega) (by omega),
    get16_put16_of_ne (by omega) _ (by omega), get16_put16_of_ne (by simp; omega) _ (by omega),
    get16_put16_of_ne (by omega) _ (by omega)]
  simp only [UInt16.toNat_zero, Nat.cast_zero]
  ring

section

variable {uninit : ℕ → TupleIcmp × TupleIcmp} {p : List UInt8} {fuel : ℕ} {length : ℤ}
  {orgA orgB a b : TupleIp} {xa xb ya yb : TupleNode} {f : TransportFields}

/-- **A TCP or UDP handler, called from the IP handler**: three writes, the last one the complement
of what the pseudo-header and the segment add up to. -/
theorem tupleCommitFull_transport {protocol seg : ℕ}
    (hfetch : tupleFetch uninit p fuel protocol seg length = some (some ([xa], [xb])))
    (hrep : Replacement p seg length xa xb ya yb f) (hpseudo : f.pseudo = true)
    (hlength : 0 ≤ length) (hbuf : seg + length ≤ p.length) :
    ∃ cs,
      tupleCommitFull (some (.ip a)) [ya] ⟨some (.ip b), [yb]⟩ ⟨some (.ip orgA), [xa]⟩
          ⟨some (.ip orgB), [xb]⟩ p seg length =
        some (put16 (put16 (put16 p (seg + f.first) f.newFirst) (seg + f.second) f.newSecond)
          (seg + f.check) cs, 0) ∧
      (cs.toNat : ZMod 65535) = -(onesSum (pseudoHdrFull a.ip b.ip protocol length) +
        stretchSum (cleared p seg f) seg length.toNat) := by
  have hprotocol := tupleFetch_protocol hfetch
  cases hrep with
  | tcp xa xb ya yb hdoff =>
    cases hprotocol
    obtain ⟨hlen, -, -⟩ := tupleFetch_tcp hfetch
    have hlen' : ¬ (sizeLt length 20 ∨ length < 20) := by
      exact not_or.mpr ⟨not_sizeLt_of_le hlen, not_lt.mpr hlen⟩
    refine ⟨checksumIncrementFull (checksumIncrementFull 0 false (pseudoHdrFull a.ip b.ip
      IPPROTO_TCP length)) true (stretch (cleared p seg (tcpFields ya.port yb.port)) seg
      length.toNat), ?_, ?_⟩
    · show tcpCommitFull _ ya yb (some (.ip a)) (some (.ip b)) p seg length = _
      rw [tcpCommitFull, if_neg hlen']
      show some (put16 (put16 (put16 (put16 p seg _) (seg + 2) _) (seg + 16) 0) _ _, (0 : ℤ)) = _
      rw [put16_put16_self]
      rfl
    · rw [checksumIncrementFull_spec, checksumIncrementFull_spec]
      simp only [if_true, Bool.false_eq_true, if_false, UInt16.toNat_zero, Nat.cast_zero, zero_add]
      rfl
  | udp xa xb ya yb hcheck =>
    cases hprotocol
    obtain ⟨hlen, -, -⟩ := tupleFetch_udp hfetch
    have hlen' : 8 ≤ length := le_of_not_sizeLt hlen hlength
    -- the ports are written beside the checksum
    have hretest : get16 (put16 (put16 p seg ya.port) (seg + 2) yb.port) (seg + 6) ≠ 0 := by
      rw [get16_put16_of_ne (by simp only [length_put16]; omega) _ (by omega),
        get16_put16_of_ne (by omega) _ (by omega)]
      exact hcheck
    refine ⟨checksumIncrementFull (checksumIncrementFull 0 false (pseudoHdrFull a.ip b.ip
      IPPROTO_UDP length)) true (stretch (cleared p seg (udpFields ya.port yb.port)) seg
      length.toNat), ?_, ?_⟩
    · show udpCommitFull _ ya yb (some (.ip a)) (some (.ip b)) p seg length = _
      rw [udpCommitFull, if_neg hlen]
      show (if get16 (put16 (put16 p seg ya.port) (seg + 2) yb.port) (seg + 6) ≠ 0 then
        some (put16 (put16 (put16 (put16 p seg _) (seg + 2) _) (seg + 6) 0) _ _, (0 : ℤ))
        else _) = _
      rw [if_pos hretest, put16_put16_self]
      rfl
    · rw [checksumIncrementFull_spec, checksumIncrementFull_spec]
      simp only [if_true, Bool.false_eq_true, if_false, UInt16.toNat_zero, Nat.cast_zero, zero_add]
      rfl
  | icmp => cases hpseudo

end

section

variable {nested nestedFull : NestedCommit} {packet packet' packet'' : List UInt8} {off c : ℕ}
  {length rc : ℤ}

/-- **The IP handlers of the two builds** write the same header, whatever field beyond it the nested
commits disagree on. -/
theorem ipCommit_agree_ipCommitFull {prvA prvB : TupleIp} (hlen : ¬ sizeLt length 20)
    (htot : iphTotLen packet off ≤ length)
    (hnested : nested packet (iphPayload packet off) (iphPayloadLen packet off) =
      some (packet', rc))
    (hnestedFull : nestedFull packet (iphPayload packet off) (iphPayloadLen packet off) =
      some (packet'', rc))
    (hagree : AgreeOff packet' packet'' c) (hc : off + 20 ≤ c) (hbuf : off + 20 ≤ packet.length)
    (hbuf' : off + 20 ≤ packet'.length) :
    ∃ cs,
      ipCommit nested prvA prvB packet off length =
        some (put16 (put32 (put32 packet' (off + 12) prvA.ip) (off + 16) prvB.ip) (off + 10) cs,
          rc) ∧
      ipCommitFull nestedFull prvA prvB packet off length =
        some (put16 (put32 (put32 packet'' (off + 12) prvA.ip) (off + 16) prvB.ip) (off + 10) cs,
          rc) := by
  have hlen' : ¬ (sizeLt length 20 ∨ length < iphTotLen packet off) := by
    push Not
    exact ⟨hlen, htot⟩
  obtain ⟨v, hv, -⟩ :=
    @checksumDecrement_stretch (iphCheck packet off) packet (off + 12) 8 (by omega) rfl
  have hset : AgreeOff (put32 (put32 packet' (off + 12) prvA.ip) (off + 16) prvB.ip)
      (put32 (put32 packet'' (off + 12) prvA.ip) (off + 16) prvB.ip) c :=
    (hagree.put32 (by omega) _).put32 (by rw [length_put32]; omega) _
  have hstretch := @AgreeOff.stretch_eq _ _ c (off + 12) 8 hset
    (by simp only [length_put32]; omega) (by omega)
  have heven : (stretch (put32 (put32 packet' (off + 12) prvA.ip) (off + 16) prvB.ip)
      (off + 12) 8).length % 2 = 0 := by
    rw [length_stretch (by simp only [length_put32]; omega)]
  refine ⟨checksumIncrementFull v true (stretch (put32 (put32 packet' (off + 12) prvA.ip)
    (off + 16) prvB.ip) (off + 12) 8), ?_, ?_⟩
  · simp only [ipCommit, ipCommitWith, if_neg hlen', hv, hnested, Option.bind_some,
      checksumIncrementFull_eq v true heven]
  · simp only [ipCommitFull, ipCommitWith, incrementFull, if_neg hlen', hv, hnestedFull,
      Option.bind_some, hstretch]

end

/-! ## The two builds -/

/-- The number of octets a transport checksum covers: a UDP header says how many, a TCP segment
takes the whole payload. -/
def transportLength (packet : List UInt8) (seg : ℕ) (len : ℤ) : TupleNode → ℤ
  | .udp _ => (get16 packet (seg + 4)).toNat
  | _ => len

/-- Packets that are the same but for a checksum field that may hold either zero. -/
structure AgreeUpToZero (p p' : List UInt8) (c : ℕ) : Prop extends AgreeOff p p' c where
  check_eq : EqUpToZero (get16 p c) (get16 p' c)

section

variable {uninit : ℕ → TupleIcmp × TupleIcmp} {p : List UInt8} {fuel : ℕ} {length : ℤ}
  {orgA orgB a b : TupleIp} {xa xb ya yb : TupleNode} {f : TransportFields}

/-- A checksum at `c` survives the writes of the IP handler. -/
theorem get16_ipWrites {packet : List UInt8} {c : ℕ} (hc : 20 ≤ c) (hbuf : c + 2 ≤ packet.length)
    (saddr daddr : UInt32) (ipCs : UInt16) :
    get16 (put16 (put32 (put32 packet 12 saddr) 16 daddr) 10 ipCs) c = get16 packet c := by
  rw [get16_put16_of_ne (by simp; omega) _ (by omega),
    get16_put32_of_ne (by simp; omega) _ (by omega), get16_put32_of_ne (by omega) _ (by omega)]

/-- The two values of the transport checksum have one residue, if the old checksum was right: what
the sum of the new segment lacks to zero is the old checksum with the changes taken out. -/
theorem recomputed_eq_adjusted {cs cs' : UInt16} {protocol : ℕ} (hpseudo : f.pseudo = true)
    (hprotocol : iphProtocol p 0 = protocol) {seg : ℕ} (hlength : 0 ≤ length)
    (hsize : (f.size : ℤ) ≤ length) (hbuf : seg + length ≤ p.length)
    (hverifies : Verifies (f.covered p seg (UInt16.ofNat length.toNat) length.toNat))
    (hcs : (cs.toNat : ZMod 65535) = (get16 p (seg + f.check)).toNat +
      ((get16 p (seg + f.first)).toNat + (get16 p (seg + f.second)).toNat +
        ((iphSaddr p 0).toNat + (iphDaddr p 0).toNat)) -
      (f.newFirst.toNat + f.newSecond.toNat + (a.ip.toNat + b.ip.toNat)))
    (hcs' : (cs'.toNat : ZMod 65535) = -(onesSum (pseudoHdrFull a.ip b.ip protocol length) +
      stretchSum (cleared p seg f) seg length.toNat)) :
    (cs.toNat : ZMod 65535) = cs'.toNat := by
  have hzero : onesSum (f.covered p seg (UInt16.ofNat length.toNat) length.toNat) = 0 := by
    rw [← wordSum_cast, (ZMod.natCast_eq_natCast_iff _ _ _).mpr hverifies, Nat.cast_zero]
  have htail : [0, UInt8.ofNat protocol, UInt8.ofNat ((length % 65536).toNat / 256),
      UInt8.ofNat ((length % 65536).toNat % 256)] =
      [0, get8 p 9, UInt8.ofNat ((UInt16.ofNat length.toNat).toNat / 256),
        UInt8.ofNat ((UInt16.ofNat length.toNat).toNat % 256)] := by
    have hmod : (length % 65536).toNat = (UInt16.ofNat length.toNat).toNat := by
      rw [UInt16.toNat_ofNat']
      omega
    rw [hmod, ← hprotocol, iphProtocol, UInt8.ofNat_toNat]
  rw [onesSum_covered, if_pos hpseudo, onesSum_pseudoHeader] at hzero
  rw [hcs, hcs', onesSum_pseudoHdrFull, htail, stretchSum_cleared (by omega) (by omega)]
  linear_combination hzero

/-- What either build makes of a packet that is IP over TCP or UDP: they write different checksums,
and for the rest the same. -/
theorem exists_tupleCommit_builds (scratch : UInt32) (hbuf : length ≤ p.length)
    (hfetch : tupleFetch uninit p fuel IPPROTO_IP 0 length =
      some (some ([.ip orgA, xa], [.ip orgB, xb])))
    (hihl : 20 ≤ iphIhl p 0 * 4)
    (hrep : Replacement p (iphPayload p 0) (iphPayloadLen p 0) xa xb ya yb f)
    (hpseudo : f.pseudo = true) (hpayload : 0 ≤ iphPayloadLen p 0) :
    (f.size : ℤ) ≤ iphPayloadLen p 0 ∧ ∃ cs cs' p₁ p₂,
      tupleCommit scratch (some (.ip a)) [ya] ⟨some (.ip b), [yb]⟩
          ⟨some (.ip ⟨iphSaddr p 0, iphId p 0, iphFragOff p 0⟩), [xa]⟩
          ⟨some (.ip ⟨iphDaddr p 0, iphId p 0, iphFragOff p 0⟩), [xb]⟩ p (iphPayload p 0)
          (iphPayloadLen p 0) =
        some (put16 (put16 (put16 p (iphPayload p 0 + f.first) f.newFirst)
          (iphPayload p 0 + f.second) f.newSecond) (iphPayload p 0 + f.check) cs, 0) ∧
      tupleCommitFull (some (.ip a)) [ya] ⟨some (.ip b), [yb]⟩
          ⟨some (.ip ⟨iphSaddr p 0, iphId p 0, iphFragOff p 0⟩), [xa]⟩
          ⟨some (.ip ⟨iphDaddr p 0, iphId p 0, iphFragOff p 0⟩), [xb]⟩ p (iphPayload p 0)
          (iphPayloadLen p 0) =
        some (put16 (put16 (put16 p (iphPayload p 0 + f.first) f.newFirst)
          (iphPayload p 0 + f.second) f.newSecond) (iphPayload p 0 + f.check) cs', 0) ∧
      (cs.toNat : ZMod 65535) = (get16 p (iphPayload p 0 + f.check)).toNat +
        ((get16 p (iphPayload p 0 + f.first)).toNat +
          (get16 p (iphPayload p 0 + f.second)).toNat +
          ((iphSaddr p 0).toNat + (iphDaddr p 0).toNat)) -
        (f.newFirst.toNat + f.newSecond.toNat + (a.ip.toNat + b.ip.toNat)) ∧
      (cs'.toNat : ZMod 65535) =
        -(onesSum (pseudoHdrFull a.ip b.ip (iphProtocol p 0) (iphPayloadLen p 0)) +
          stretchSum (cleared p (iphPayload p 0) f) (iphPayload p 0) (iphPayloadLen p 0).toNat) ∧
      tupleCommit scratch none [.ip a, ya] ⟨none, [.ip b, yb]⟩ ⟨none, [.ip orgA, xa]⟩
        ⟨none, [.ip orgB, xb]⟩ p 0 length = some (p₁, 0) ∧
      tupleCommitFull none [.ip a, ya] ⟨none, [.ip b, yb]⟩ ⟨none, [.ip orgA, xa]⟩
        ⟨none, [.ip orgB, xb]⟩ p 0 length = some (p₂, 0) ∧
      get16 p₁ (iphPayload p 0 + f.check) = cs ∧ get16 p₂ (iphPayload p 0 + f.check) = cs' ∧
      AgreeOff p₁ p₂ (iphPayload p 0 + f.check) := by
  obtain ⟨-, hlen, htot, as, bs, ha, hb, hcases⟩ := tupleFetch_ip hfetch
  cases ha
  cases hb
  obtain ⟨-, fuel', hfetch'⟩ := hcases.resolve_left (by simp)
  have hseg : ((iphPayload p 0 : ℕ) : ℤ) + iphPayloadLen p 0 = iphTotLen p 0 := by
    rw [iphPayload_add_payloadLen, Nat.cast_zero, zero_add]
  have hseg20 : 20 ≤ iphPayload p 0 := by
    rw [iphPayload]
    omega
  obtain ⟨hsize, cs, hcs, hcast⟩ := @tupleCommit_transport _ p fuel' _
    ⟨iphSaddr p 0, iphId p 0, iphFragOff p 0⟩ ⟨iphDaddr p 0, iphId p 0, iphFragOff p 0⟩ a b xa xb
    ya yb f scratch _ _ hfetch' hrep hpayload (by omega)
  obtain ⟨cs', hcs', hcast'⟩ := @tupleCommitFull_transport _ p fuel' _
    ⟨iphSaddr p 0, iphId p 0, iphFragOff p 0⟩ ⟨iphDaddr p 0, iphId p 0, iphFragOff p 0⟩ a b xa xb
    ya yb f _ _ hfetch' hrep hpseudo hpayload (by omega)
  rw [if_pos hpseudo, if_pos hpseudo] at hcast
  -- up to here the builds differ in the checksum that was just written
  obtain ⟨hinside, -⟩ := f.inside
  have hfields : iphPayload p 0 + f.check + 2 ≤
      (put16 (put16 p (iphPayload p 0 + f.first) f.newFirst) (iphPayload p 0 + f.second)
        f.newSecond).length := by
    simp only [length_put16]
    omega
  have hagree := AgreeOff.of_put16 hfields cs cs'
  obtain ⟨ipCs, h₁, h₂⟩ := @ipCommit_agree_ipCommitFull _ _ p _ _ 0 _ length 0 a b hlen htot hcs
    hcs' hagree (by omega) (by omega) (by simp only [length_put16]; omega)
  refine ⟨hsize, cs, cs', _, _, hcs, hcs', hcast, hcast', h₁, h₂, ?_, ?_, ?_⟩
  · simp only [Nat.zero_add]
    rw [get16_ipWrites (by omega) (by simp only [length_put16]; omega), get16_put16_self hfields]
  · simp only [Nat.zero_add]
    rw [get16_ipWrites (by omega) (by simp only [length_put16]; omega), get16_put16_self hfields]
  · exact ((hagree.put32 (by simp only [length_put16]; omega) _).put32
      (by simp only [length_put16, length_put32]; omega) _).put16
      (by simp only [length_put16, length_put32]; omega) _

/-- **The two builds agree.**  A packet fetched as IP over TCP or UDP whose transport checksum
verifies is committed by both with the same result, but for a checksum that one build makes `0x0000`
and the other `0xffff`. -/
theorem tupleCommit_agree_tupleCommitFull (scratch : UInt32) (hbuf : length ≤ p.length)
    (hfetch : tupleFetch uninit p fuel IPPROTO_IP 0 length =
      some (some ([.ip orgA, xa], [.ip orgB, xb])))
    (hihl : 20 ≤ iphIhl p 0 * 4)
    (hrep : Replacement p (iphPayload p 0) (iphPayloadLen p 0) xa xb ya yb f)
    (hpseudo : f.pseudo = true)
    (hlength : transportLength p (iphPayload p 0) (iphPayloadLen p 0) xa = iphPayloadLen p 0)
    (hverifies : Verifies (f.covered p (iphPayload p 0)
      (UInt16.ofNat (transportLength p (iphPayload p 0) (iphPayloadLen p 0) xa).toNat)
      (transportLength p (iphPayload p 0) (iphPayloadLen p 0) xa).toNat)) :
    ∃ p₁ p₂,
      tupleCommit scratch none [.ip a, ya] ⟨none, [.ip b, yb]⟩ ⟨none, [.ip orgA, xa]⟩
        ⟨none, [.ip orgB, xb]⟩ p 0 length = some (p₁, 0) ∧
      tupleCommitFull none [.ip a, ya] ⟨none, [.ip b, yb]⟩ ⟨none, [.ip orgA, xa]⟩
        ⟨none, [.ip orgB, xb]⟩ p 0 length = some (p₂, 0) ∧
      AgreeUpToZero p₁ p₂ (iphPayload p 0 + f.check) := by
  rw [hlength] at hverifies
  have hpayload : 0 ≤ iphPayloadLen p 0 := by
    cases hrep with
    | tcp _ _ _ _ hdoff => omega
    | udp =>
      rw [← hlength]
      exact Int.natCast_nonneg _
    | icmp => cases hpseudo
  obtain ⟨hsize, cs, cs', p₁, p₂, -, -, hcast, hcast', h₁, h₂, hget, hget', hagree⟩ :=
    exists_tupleCommit_builds (a := a) (b := b) scratch hbuf hfetch hihl hrep hpseudo hpayload
  obtain ⟨-, -, htot, -⟩ := tupleFetch_ip hfetch
  have hseg : ((iphPayload p 0 : ℕ) : ℤ) + iphPayloadLen p 0 = iphTotLen p 0 := by
    rw [iphPayload_add_payloadLen, Nat.cast_zero, zero_add]
  refine ⟨p₁, p₂, h₁, h₂, hagree, ?_⟩
  rw [hget, hget']
  exact eqUpToZero_of_cast_eq (recomputed_eq_adjusted hpseudo rfl hpayload hsize (by omega)
    hverifies hcast hcast')

end

/-- A query of one octet, which makes the segment an odd one. -/
def oddUdpPacket : List UInt8 :=
  [0x45, 0, 0, 29, 0, 1, 0, 0, 64, 17, 0xae, 0xcd, 10, 0, 0, 1, 192, 0, 2, 1,
    0x0f, 0xa0, 0, 53, 0, 9, 0xe3, 0x04, 0x41]

theorem tupleCommit_agree_oddUdpPacket :
    ∃ p₁ p₂,
      tupleCommit 7 none [.ip ⟨0xcb007107, 1, 0⟩, .udp ⟨4660⟩]
        ⟨none, [.ip ⟨0xc0000201, 1, 0⟩, .udp ⟨53⟩]⟩ ⟨none, [.ip ⟨0x0a000001, 1, 0⟩, .udp ⟨4000⟩]⟩
        ⟨none, [.ip ⟨0xc0000201, 1, 0⟩, .udp ⟨53⟩]⟩ oddUdpPacket 0 29 = some (p₁, 0) ∧
      tupleCommitFull none [.ip ⟨0xcb007107, 1, 0⟩, .udp ⟨4660⟩]
        ⟨none, [.ip ⟨0xc0000201, 1, 0⟩, .udp ⟨53⟩]⟩ ⟨none, [.ip ⟨0x0a000001, 1, 0⟩, .udp ⟨4000⟩]⟩
        ⟨none, [.ip ⟨0xc0000201, 1, 0⟩, .udp ⟨53⟩]⟩ oddUdpPacket 0 29 = some (p₂, 0) ∧
      AgreeUpToZero p₁ p₂ (iphPayload oddUdpPacket 0 + 6) :=
  @tupleCommit_agree_tupleCommitFull (fun _ => (⟨0, 0, 0⟩, ⟨0, 0, 0⟩)) oddUdpPacket 2 29
    ⟨0x0a000001, 1, 0⟩ ⟨0xc0000201, 1, 0⟩ ⟨0xcb007107, 1, 0⟩ ⟨0xc0000201, 1, 0⟩ (.udp ⟨4000⟩)
    (.udp ⟨53⟩) (.udp ⟨4660⟩) (.udp ⟨53⟩) (udpFields 4660 53) 7 (by decide) (by decide)
    (by decide) (.udp ⟨4000⟩ ⟨53⟩ ⟨4660⟩ ⟨53⟩ (by decide)) rfl (by decide) (by decide)

end Sweetspot
