import Sweetspot.Lib.Edits
import Sweetspot.Tuple.Rewrite

/-!
# ICMP messages that quote a packet

An error message carries the IP header of the packet it is about, so three checksums are in it that
`sw_tuple_commit` has to keep: of the IP header, of the message, and of the quoted header, which
is itself part of the message.

* `ipCommit_edited`, `icmpCommit_edited`, `tupleCommit_quotedTransport`: every handler is an edit of
  its part of the packet, and says what it adds to the sums around it.
* `MessageKept`: what the handlers of a quoted packet add to the message comes to nothing.  The
  checksum of the message is never told.
* `HeaderKept`: what a time exceeded message does to the header it quotes comes to nothing.  The
  checksum of that header is never told.
* `tupleCommit_checksumsVerify_iff`: the three checksums verify afterwards exactly if it does.
-/

namespace Sweetspot

open Octets

/-! ## The handlers as edits -/

section

variable {nested : NestedCommit} {p p' : List UInt8} {off hi : ℕ} {length rc : ℤ}
  {d : ZMod 65535}

/-- The two fields and the checksum of a transport header, written. -/
theorem transportWrites_edited (f : TransportFields) {seg n : ℕ} (hn : f.size ≤ n)
    (hbuf : seg + n ≤ p.length) (cs : UInt16) :
    Edited p (put16 (put16 (put16 p (seg + f.first) f.newFirst) (seg + f.second) f.newSecond)
      (seg + f.check) cs) seg (seg + n)
      ((f.newFirst.toNat - (get16 p (seg + f.first)).toNat) +
        (f.newSecond.toNat - (get16 p (seg + f.second)).toNat) +
        (cs.toNat - (get16 p (seg + f.check)).toNat)) := by
  obtain ⟨hc, hs⟩ := f.inside
  obtain ⟨hfs, hcheck⟩ := f.apart
  obtain ⟨hce, hfe, hse⟩ := f.even
  have h₁ := @Edited.put16 p (seg + f.first) (by omega) f.newFirst
  have h₂ := @Edited.put16 (put16 p (seg + f.first) f.newFirst) (seg + f.second)
    (by rw [length_put16]; omega) f.newSecond
  have h₃ := @Edited.put16 (put16 (put16 p (seg + f.first) f.newFirst) (seg + f.second) f.newSecond)
    (seg + f.check) (by rw [length_put16, length_put16]; omega) cs
  rw [h₁.get16_eq (by omega)] at h₂
  rw [h₂.get16_eq (by omega), h₁.get16_eq (by omega)] at h₃
  exact ((h₁.widen (by omega) (by omega) (by omega)).trans
    (h₂.widen (by omega) (by omega) (by omega))).trans
    (h₃.widen (by omega) (by omega) (by omega))

/-- **The IP handler**: an edit of the payload stays the edit it is, and the header gains
nothing. -/
theorem ipCommit_edited {prvA prvB : TupleIp} (hlen : ¬ sizeLt length 20)
    (htot : iphTotLen p off ≤ length) (hihl : 20 ≤ iphIhl p off * 4)
    (hnested : nested p (iphPayload p off) (iphPayloadLen p off) = some (p', rc))
    (hedit : Edited p p' (iphPayload p off) hi d) (hhi : iphPayload p off ≤ hi)
    (hbuf : hi ≤ p.length) :
    ∃ q, ipCommit nested prvA prvB p off length = some (q, rc) ∧
      Edited p q (off + 10) hi d ∧ Edited p' q (off + 10) (off + 20) 0 ∧
      iphSaddr q off = prvA.ip := by
  simp only [iphPayload] at hhi hedit
  have hlength := hedit.length_eq
  obtain ⟨cs, hcs, hcast⟩ := @ipCommit_eq nested p p' off length rc prvA prvB hlen htot hnested
    (by omega) (by omega)
  refine ⟨_, hcs, ?_⟩
  have h₁ := @Edited.put32 p' (off + 12) (by omega) prvA.ip
  have h₂ := @Edited.put32 (put32 p' (off + 12) prvA.ip) (off + 16)
    (by rw [length_put32]; omega) prvB.ip
  have h₃ := @Edited.put16 (put32 (put32 p' (off + 12) prvA.ip) (off + 16) prvB.ip) (off + 10)
    (by rw [length_put32, length_put32]; omega) cs
  -- the writes find what the packet had there
  rw [hedit.get32_eq (by omega)] at h₁
  rw [h₁.get32_eq (by omega), hedit.get32_eq (by omega)] at h₂
  rw [h₂.get16_eq (by omega), h₁.get16_eq (by omega), hedit.get16_eq (by omega), hcast] at h₃
  have hheader := ((h₁.widen (by omega) (by omega) (by omega)).trans
    (h₂.widen (by omega) (by omega) (by omega))).trans
    (@Edited.widen _ _ _ _ _ h₃ (off + 10) (off + 20) (by omega) (by omega) (by omega))
  have hzero := @Edited.of_eq _ _ _ _ _ 0 hheader (by
    simp only [iphSaddr, iphDaddr, iphCheck]
    ring)
  refine ⟨?_, hzero, ?_⟩
  · exact ((hedit.widen (by omega) (by omega) le_rfl).trans
      (hzero.widen le_rfl (by simp) (by omega))).of_eq (add_zero d)
  · rw [iphSaddr, get32_put16_of_ne (by simp; omega) _ (by omega),
      get32_put32_of_ne (by simp; omega) _ (by omega), get32_put32_self (by omega)]

/-- **The UDP handler on a datagram without a checksum** sets the two ports. -/
theorem udpCommit_nocheck_eq {scratch : UInt32} {prvA prvB : TupleUdp}
    {prevA prevB prevOrgA prevOrgB : Option TupleNode} (hlen : ¬ sizeLt length 8)
    (hcheck : get16 p (off + 6) = 0) (hcheck' : get16 p' (off + 6) = 0)
    (hnested : nested p (off + 8) (length - 8) = some (p', rc)) (hbuf : off + 4 ≤ p'.length) :
    udpCommit scratch nested prvA prvB prevA prevB prevOrgA prevOrgB p off length =
      some (put16 (put16 p' off prvA.port) (off + 2) prvB.port, rc) := by
  have hretest : get16 (put16 (put16 p' off prvA.port) (off + 2) prvB.port) (off + 6) = 0 := by
    rw [get16_put16_of_ne (by simp only [length_put16]; omega) _ (by omega),
      get16_put16_of_ne (by omega) _ (by omega)]
    exact hcheck'
  simp only [udpCommit, if_neg hlen, if_neg (not_not.mpr hcheck), hnested, Option.bind_some,
    if_neg (not_not.mpr hretest)]

end

/-! ## What a quoted packet adds to the message -/

/-- The transport nodes of the fetched and of the replacement chains of a quoted packet, of one
shape.  `seg` and `len` are the payload of the quoted header. -/
inductive QuotedReplacement (packet : List UInt8) (seg : ℕ) (len : ℤ) :
    (orgA orgB a b : TupleNode) → Prop
  | tcp (orgA orgB a b : TupleTcp) (hdoff : (tcphDoff packet seg * 4 : ℕ) ≤ len) :
    QuotedReplacement packet seg len (.tcp orgA) (.tcp orgB) (.tcp a) (.tcp b)
  | udp (orgA orgB a b : TupleUdp) :
    QuotedReplacement packet seg len (.udp orgA) (.udp orgB) (.udp a) (.udp b)
  | icmp (orgA orgB a b : TupleIcmp)
    (horg : orgA.type = ICMP_ECHO ∨ orgA.type = ICMP_ECHOREPLY)
    (htype : a.type = ICMP_ECHO ∨ a.type = ICMP_ECHOREPLY) :
    QuotedReplacement packet seg len (.icmp orgA) (.icmp orgB) (.icmp a) (.icmp b)

/-- What the quoted transport header gains.  Its checksum makes up for the ports and for the
pseudo-header, and the pseudo-header is no part of the message; without a checksum the ports
remain. -/
def quotedDrift (packet : List UInt8) (seg : ℕ) (orgA orgB a b : TupleIp) :
    TupleNode → TupleNode → ZMod 65535
  | .tcp _, .tcp _ => orgA.ip.toNat + orgB.ip.toNat - (a.ip.toNat + b.ip.toNat)
  | .udp ya, .udp yb =>
    if get16 packet (seg + 6) = 0 then
      ya.port.toNat + yb.port.toNat - ((get16 packet seg).toNat + (get16 packet (seg + 2)).toNat)
    else orgA.ip.toNat + orgB.ip.toNat - (a.ip.toNat + b.ip.toNat)
  | _, _ => 0

section

variable {uninit : ℕ → TupleIcmp × TupleIcmp} {p : List UInt8} {fuel : ℕ} {length : ℤ}
  {orgA orgB a b : TupleIp} {xa xb ya yb : TupleNode}

/-- A transport handler that accounts for the pseudo-header, as `tupleCommit_transport` has it. -/
theorem transport_drift {f : TransportFields} (hpseudo : f.pseudo = true) {seg n : ℕ}
    (hn : f.size ≤ n) (hbuf : seg + n ≤ p.length) {cs : UInt16}
    (hcs : (cs.toNat : ZMod 65535) = (get16 p (seg + f.check)).toNat +
        ((get16 p (seg + f.first)).toNat + (get16 p (seg + f.second)).toNat +
          if f.pseudo then (orgA.ip.toNat + orgB.ip.toNat : ZMod 65535) else 0) -
        (f.newFirst.toNat + f.newSecond.toNat +
          if f.pseudo then (a.ip.toNat + b.ip.toNat : ZMod 65535) else 0)) :
    Edited p (put16 (put16 (put16 p (seg + f.first) f.newFirst) (seg + f.second) f.newSecond)
      (seg + f.check) cs) seg (seg + n)
      (orgA.ip.toNat + orgB.ip.toNat - (a.ip.toNat + b.ip.toNat)) := by
  refine (transportWrites_edited f hn hbuf cs).of_eq ?_
  rw [hcs, if_pos hpseudo, if_pos hpseudo]
  ring

/-- **The transport handler of a quoted packet**, and what it adds. -/
theorem tupleCommit_quotedTransport (scratch : UInt32) {protocol seg : ℕ}
    (hfetch : tupleFetch uninit p fuel protocol seg length = some (some ([xa], [xb])))
    (hrep : QuotedReplacement p seg length xa xb ya yb) (hlength : 0 ≤ length)
    (hbuf : seg + length ≤ p.length) :
    8 ≤ length ∧ ∃ p',
      tupleCommit scratch (some (.ip a)) [ya] ⟨some (.ip b), [yb]⟩ ⟨some (.ip orgA), [xa]⟩
          ⟨some (.ip orgB), [xb]⟩ p seg length = some (p', 0) ∧
      Edited p p' seg (seg + length.toNat) (quotedDrift p seg orgA orgB a b ya yb) := by
  cases hrep with
  | tcp xa xb ya yb hdoff =>
    obtain ⟨hsize, cs, hcs, hcast⟩ := @tupleCommit_transport uninit p fuel length orgA orgB a b _ _
      _ _ _ scratch protocol seg hfetch (.tcp xa xb ya yb hdoff) hlength hbuf
    simp only [tcpFields] at hsize
    exact ⟨by omega, _, hcs, transport_drift rfl (by simp only [tcpFields]; omega) (by omega)
      hcast⟩
  | udp xa xb ya yb =>
    by_cases hcheck : get16 p (seg + 6) = 0
    · have hprotocol := tupleFetch_protocol hfetch
      cases hprotocol
      obtain ⟨hlen, -, -⟩ := tupleFetch_udp hfetch
      have hlen' : 8 ≤ length := le_of_not_sizeLt hlen hlength
      refine ⟨hlen', _, @udpCommit_nocheck_eq (fun packet _ _ => some (packet, 0)) p p seg length 0
        scratch ya yb (some (.ip a)) (some (.ip b)) (some (.ip orgA)) (some (.ip orgB)) hlen hcheck
        hcheck rfl (by omega), ?_⟩
      have h₁ := @Edited.put16 p seg (by omega) ya.port
      have h₂ := @Edited.put16 (put16 p seg ya.port) (seg + 2) (by rw [length_put16]; omega) yb.port
      rw [h₁.get16_eq (by omega)] at h₂
      refine ((h₁.widen le_rfl (by simp) (by omega)).trans
        (h₂.widen (by omega) (by omega) (by omega))).of_eq ?_
      rw [quotedDrift, if_pos hcheck]
      ring
    · obtain ⟨hsize, cs, hcs, hcast⟩ := @tupleCommit_transport uninit p fuel length orgA orgB a b _
        _ _ _ _ scratch protocol seg hfetch (.udp xa xb ya yb hcheck) hlength hbuf
      simp only [udpFields] at hsize
      refine ⟨by omega, _, hcs, ?_⟩
      rw [quotedDrift, if_neg hcheck]
      exact transport_drift rfl (by simp only [udpFields]; omega) (by omega) hcast
  | icmp xa xb ya yb horg htype =>
    have hprotocol := tupleFetch_protocol hfetch
    cases hprotocol
    obtain ⟨hlen, -⟩ := tupleFetch_icmp hfetch
    have hlen' : 8 ≤ length := le_of_not_sizeLt hlen hlength
    obtain ⟨cs, hcs, hcast⟩ := @icmpCommit_echo_eq (fun packet _ _ => some (packet, 0)) p p seg
      length 0 ya yb a b htype hlen rfl (by omega) (by omega)
    refine ⟨hlen', _, hcs, ?_⟩
    have hedit := @transportWrites_edited p
      (icmpFields (if get16 p (seg + 4) = ya.id then yb.id else ya.id)
        (if get16 p (seg + 6) = ya.seq then yb.seq else ya.seq)) seg length.toNat
      (by simp only [icmpFields]; omega) (by omega) cs
    have hsecond : get16 (preferAlternative p (seg + 4) ya.id yb.id) (seg + 6) =
        get16 p (seg + 6) := get16_put16_of_ne (by omega) _ (by omega)
    rw [preferAlternative, hsecond, preferAlternative]
    refine hedit.of_eq ?_
    simp only [icmpFields]
    rw [hcast]
    simp only [quotedDrift]
    ring

/-- **The quoted packet**: its header keeps its sum, and the message gains what the transport header
gains. -/
theorem tupleCommit_quotedPacket (scratch : UInt32) {off : ℕ} {c d : TupleIp}
    {prevA prevB prevOrgA prevOrgB : Option TupleNode}
    (hfetch : tupleFetch uninit p fuel IPPROTO_IP off length =
      some (some ([.ip c, xa], [.ip d, xb])))
    (hihl : 20 ≤ iphIhl p off * 4) (hpayload : 0 ≤ iphPayloadLen p off)
    (hrep : QuotedReplacement p (iphPayload p off) (iphPayloadLen p off) xa xb ya yb)
    (hbuf : off + length ≤ p.length) :
    iphIhl p off * 4 + 8 ≤ length ∧ ∃ p',
      tupleCommit scratch prevA [.ip a, ya] ⟨prevB, [.ip b, yb]⟩ ⟨prevOrgA, [.ip c, xa]⟩
          ⟨prevOrgB, [.ip d, xb]⟩ p off length = some (p', 0) ∧
      Edited p p' off (off + length.toNat)
        (quotedDrift p (iphPayload p off) c d a b ya yb) ∧
      stretchSum p' off (iphIhl p off * 4) = stretchSum p off (iphIhl p off * 4) ∧
      iphSaddr p' off = a.ip ∧
      ∀ i, (i < off + 10 ∨ off + 20 ≤ i) → i < iphPayload p off → get8 p' i = get8 p i := by
  obtain ⟨-, hlen, htot, as, bs, ha, hb, hcases⟩ := tupleFetch_ip hfetch
  cases ha
  cases hb
  obtain ⟨-, fuel', hfetch'⟩ := hcases.resolve_left (by simp)
  have hseg := iphPayload_add_payloadLen p off
  have hseg20 : iphPayload p off = off + iphIhl p off * 4 := rfl
  obtain ⟨hlen8, p', hp', hedit⟩ := @tupleCommit_quotedTransport _ p fuel' _
    ⟨iphSaddr p off, iphId p off, iphFragOff p off⟩ ⟨iphDaddr p off, iphId p off, iphFragOff p off⟩
    a b xa xb ya yb scratch _ _ hfetch' hrep hpayload (by omega)
  have hedit' := @Edited.widen _ _ _ _ _ hedit (iphPayload p off) (off + length.toNat) le_rfl
    (by simp) (by omega)
  obtain ⟨q, hq, hall, hheader, hsaddr⟩ := @ipCommit_edited _ _ _ _ _ _ _ _ a b hlen htot hihl
    hp' hedit' (by omega) (by omega)
  refine ⟨by omega, q, hq, hall.widen (by omega) (by omega) le_rfl, ?_, hsaddr, ?_⟩
  · rw [hheader.sum_eq off _ (by omega) (by omega) (by omega) (by rw [hedit.length_eq]; omega),
      add_zero, stretchSum, hedit.stretch_eq (by omega) (by omega), stretchSum]
  · intro i hi hseg'
    rw [hheader.get8_eq i (by omega), hedit.get8_eq i (by omega)]

end

/-! ## What the ICMP handler adds -/

/-- The value a preferred alternative leaves in a field. -/
def preferred (packet : List UInt8) (i : ℕ) (a b : UInt16) : UInt16 :=
  if get16 packet i = a then b else a

/-- What the quoted header of `n` octets at `off` gains from a time exceeded message: the source
address becomes the one the message goes to, and behind twenty-four octets of header are the words
the handler takes for the identifier and the sequence number of an echo. -/
def headerDrift (packet : List UInt8) (off n : ℕ) (prvA prvB : TupleIcmp) (prv2B : TupleIp) :
    ZMod 65535 :=
  let source : ZMod 65535 := prv2B.ip.toNat - (iphSaddr packet off).toNat
  let options : ZMod 65535 :=
    ((preferred packet (off + 24) prvA.id prvB.id).toNat - (get16 packet (off + 24)).toNat) +
      ((preferred packet (off + 26) prvA.seq prvB.seq).toNat - (get16 packet (off + 26)).toNat)
  if 28 ≤ n then source + options else source

section

variable {nested : NestedCommit} {p p' : List UInt8} {off : ℕ} {length rc : ℤ} {d : ZMod 65535}
  {prvA prvB : TupleIcmp} {prv2A prv2B : TupleIp}

theorem preferAlternative_edited {packet : List UInt8} {i : ℕ} (h : i + 2 ≤ packet.length)
    (a b : UInt16) :
    Edited packet (preferAlternative packet i a b) i (i + 2)
      ((preferred packet i a b).toNat - (get16 packet i).toNat) :=
  Edited.put16 h _

/-- A checksum that makes up for an edit of the message: the message gains nothing by both. -/
theorem recheck_edited {q : List UInt8} {lo hi : ℕ} {e : ZMod 65535} {cs : UInt16}
    (hedit : Edited p' q lo hi e) (hlo : off + 4 ≤ lo) (heven : (lo - off) % 2 = 0)
    (hhi : hi ≤ off + length.toNat) (hbuf : off + length.toNat ≤ p'.length) (hle : lo ≤ hi)
    (hcs : (cs.toNat : ZMod 65535) = (get16 p' (off + 2)).toNat - e) :
    Edited p' (put16 q (off + 2) cs) off (off + length.toNat) 0 := by
  have hlength := hedit.length_eq
  have hput := @Edited.put16 q (off + 2) (by omega) cs
  rw [hedit.get16_eq (by omega), hcs] at hput
  refine ((hedit.widen (by omega) heven hhi).trans
    (hput.widen (by omega) (by omega) (by omega))).of_eq ?_
  ring

/-- The three writes of a time exceeded message, as one edit of the quoted packet and of the header
of it. -/
theorem exceededWrites_edited {packet : List UInt8} (hbuf : off + 36 ≤ packet.length) :
    let q := preferAlternative (preferAlternative (put32 packet (off + 20) prv2B.ip) (off + 32)
      prvA.id prvB.id) (off + 34) prvA.seq prvB.seq
    (∃ e, Edited packet q (off + 20) (off + 36) e) ∧
      ∀ n, 20 ≤ n → n % 4 = 0 → off + 8 + n ≤ packet.length →
        stretchSum q (off + 8) n =
          stretchSum packet (off + 8) n + headerDrift packet (off + 8) n prvA prvB prv2B := by
  intro q
  have h₁ := @Edited.put32 packet (off + 20) (by omega) prv2B.ip
  have h₂ := @preferAlternative_edited (put32 packet (off + 20) prv2B.ip) (off + 32)
    (by rw [length_put32]; omega) prvA.id prvB.id
  have hlength₂ := h₂.length_eq
  rw [length_put32] at hlength₂
  have h₃ := @preferAlternative_edited _ (off + 34) (by rw [hlength₂]; omega) prvA.seq prvB.seq
  refine ⟨⟨_, ((h₁.widen le_rfl (by simp) (by omega)).trans
    (h₂.widen (by omega) (by omega) (by omega))).trans
    (h₃.widen (by omega) (by omega) (by omega))⟩, fun n hn heven hp => ?_⟩
  rw [preferred, h₁.get16_eq (by omega)] at h₂
  rw [preferred, h₂.get16_eq (by omega), h₁.get16_eq (by omega)] at h₃
  have hsaddr := h₁.sum_eq (off + 8) n (by omega) (by omega) (by omega) hp
  by_cases h28 : 28 ≤ n
  · -- the two words are options of the quoted header
    rw [show q = preferAlternative _ (off + 34) prvA.seq prvB.seq from rfl,
      h₃.sum_eq (off + 8) n (by omega) (by omega) (by omega) (by rw [hlength₂]; exact hp),
      h₂.sum_eq (off + 8) n (by omega) (by omega) (by omega) (by rw [length_put32]; exact hp),
      hsaddr, headerDrift, if_pos h28]
    simp only [preferred, iphSaddr, Nat.add_assoc, Nat.reduceAdd]
    ring
  · rw [show q = preferAlternative _ (off + 34) prvA.seq prvB.seq from rfl, stretchSum,
      h₃.stretch_eq (by rw [hlength₂]; exact hp) (by omega),
      h₂.stretch_eq (by rw [length_put32]; exact hp) (by omega), ← stretchSum, hsaddr, headerDrift,
      if_neg h28]
    rfl

/-- **The ICMP handler**: whatever the nested commit added to the message stays added, and the
header of a quoted packet moves with a time exceeded message only. -/
theorem icmpCommit_edited (hstop : ¬ IcmpStops prvA.type) (hlen : 8 ≤ length)
    (hexceeded : prvA.type = ICMP_TIME_EXCEEDED → 36 ≤ length)
    (hnested : nested p (off + 8) (length - 8) = some (p', rc))
    (hedit : Edited p p' (off + 8) (off + length.toNat) d) (hbuf : off + length ≤ p.length) :
    ∃ q, icmpCommit nested prvA prvB (some (.ip prv2A)) (some (.ip prv2B)) p off length =
        some (q, rc) ∧
      Edited p q off (off + length.toNat) d ∧ get8 q (off + 8) = get8 p' (off + 8) ∧
      ∀ n, 20 ≤ n → n % 4 = 0 → 8 + n ≤ length.toNat →
        stretchSum q (off + 8) n = stretchSum p' (off + 8) n +
          if prvA.type = ICMP_TIME_EXCEEDED then headerDrift p' (off + 8) n prvA prvB prv2B
          else 0 := by
  have hlen' : ¬ sizeLt length 8 := not_sizeLt_of_le (by omega)
  have hstop' : ¬ (prvA.type = ICMP_TIMESTAMP ∨ prvA.type = ICMP_TIMESTAMPREPLY ∨
      prvA.type = ICMP_REDIRECT) := hstop
  have hlength := hedit.length_eq
  have hedit' := hedit.widen (show off ≤ off + 8 by omega) (by omega) le_rfl
  by_cases htype : prvA.type = ICMP_TIME_EXCEEDED
  · have h36 := hexceeded htype
    obtain ⟨⟨e, hq⟩, hsum⟩ := @exceededWrites_edited off prvA prvB prv2B p' (by omega)
    set q := preferAlternative (preferAlternative (put32 p' (off + 20) prv2B.ip) (off + 32)
      prvA.id prvB.id) (off + 34) prvA.seq prvB.seq with hqdef
    have hqlength := hq.length_eq
    obtain ⟨v, hv, hvcast⟩ :=
      @checksumDecrement_stretch (get16 p' (off + 2)) p' (off + 8) 28 (by omega) rfl
    obtain ⟨cs, hcs, hcscast⟩ := @checksumIncrement_stretch v q (off + 8) 28 (by omega) rfl
    have hcs' : (cs.toNat : ZMod 65535) = (get16 p' (off + 2)).toNat - e := by
      rw [hcscast, hvcast, hq.sum_eq (off + 8) 28 (by omega) (by omega) (by omega) (by omega)]
      ring
    have hrecheck : Edited p' (put16 q (off + 2) cs) off (off + length.toNat) 0 :=
      recheck_edited hq (by omega) (by omega) (by omega) (by omega) (by omega) hcs'
    refine ⟨put16 q (off + 2) cs, ?_, ?_, ?_, ?_⟩
    · simp only [icmpCommit, icmpCommitWith, if_neg hlen', if_neg (not_not.mpr htype),
        if_neg hstop', hnested, Option.bind_some, if_pos htype, hv, ← hqdef, hcs]
    · exact (hedit'.trans hrecheck).of_eq (add_zero d)
    · rw [get8_put16_of_ne (by omega) _ (by omega), hq.get8_eq _ (by omega)]
    · intro n hn heven hp
      rw [stretchSum_put16_of_disjoint (by omega), hsum n hn heven (by omega), if_pos htype]
  · -- the words behind the checksum, which only an echo has a use for
    obtain ⟨q, hqdef, e, hq⟩ : ∃ q, q = (if prvA.type = ICMP_ECHO ∨ prvA.type = ICMP_ECHOREPLY then
        preferAlternative (preferAlternative p' (off + 4) prvA.id prvB.id) (off + 6)
          prvA.seq prvB.seq
        else p') ∧ ∃ e, Edited p' q (off + 4) (off + 8) e := by
      refine ⟨_, rfl, ?_⟩
      split
      · have h₁ := @preferAlternative_edited p' (off + 4) (by omega) prvA.id prvB.id
        have h₂ := @preferAlternative_edited (preferAlternative p' (off + 4) prvA.id prvB.id)
          (off + 6) (by rw [h₁.length_eq]; omega) prvA.seq prvB.seq
        exact ⟨_, (h₁.widen le_rfl (by simp) (by omega)).trans
          (h₂.widen (by omega) (by omega) (by omega))⟩
      · exact ⟨0, Edited.refl p' _ _⟩
    have hqlength := hq.length_eq
    obtain ⟨v, hv, hvcast⟩ :=
      @checksumDecrement_stretch (get16 p (off + 2)) p (off + 4) 4 (by omega) rfl
    obtain ⟨cs, hcs, hcscast⟩ := @checksumIncrement_stretch v q (off + 4) 4 (by omega) rfl
    have hcs' : (cs.toNat : ZMod 65535) = (get16 p' (off + 2)).toNat - e := by
      rw [hcscast, hvcast, hq.sum_eq (off + 4) 4 (by omega) (by simp) (by omega) (by omega),
        stretchSum, stretchSum, hedit.stretch_eq (by omega) (by omega), hedit.get16_eq (by omega)]
      ring
    have hrecheck : Edited p' (put16 q (off + 2) cs) off (off + length.toNat) 0 :=
      recheck_edited hq (by omega) (by omega) (by omega) (by omega) (by omega) hcs'
    refine ⟨put16 q (off + 2) cs, ?_, ?_, ?_, ?_⟩
    · simp only [icmpCommit, icmpCommitWith, if_neg hlen', if_pos htype, if_neg hstop', hnested,
        Option.bind_some, if_neg htype, hv, ← hqdef, hcs]
    · exact (hedit'.trans hrecheck).of_eq (add_zero d)
    · rw [get8_put16_of_ne (by omega) _ (by omega), hq.get8_eq _ (by omega)]
    · intro n hn heven hp
      rw [stretchSum_put16_of_disjoint (by omega), if_neg htype, add_zero, stretchSum,
        hq.stretch_eq (by omega) (by omega), stretchSum]

end

/-! ## The three checksums -/

/-- Where the header of the quoted packet starts. -/
def quoted (packet : List UInt8) : ℕ := iphPayload packet 0 + 8

def quotedHeaderLen (packet : List UInt8) : ℕ := iphIhl packet (quoted packet) * 4

structure ChecksumsVerify (packet : List UInt8) : Prop where
  header : Verifies (ipHeader packet)
  message : Verifies (stretch packet (iphPayload packet 0) (iphPayloadLen packet 0).toNat)
  quoted : Verifies (stretch packet (quoted packet) (quotedHeaderLen packet))

/-- The buffer holds what was received, and the two IP headers have a fixed part. -/
structure WellFormedError (packet : List UInt8) (length : ℤ) : Prop where
  received : length ≤ packet.length
  header : 20 ≤ iphIhl packet 0 * 4
  quoted : 20 ≤ quotedHeaderLen packet

/-- Chains of one shape: those of a time exceeded message, which is not parsed further, and those of
a message that quotes a TCP, UDP or ICMP echo packet.  The replacement of the message itself may be
of any type. -/
inductive ErrorShape (packet : List UInt8) : (orgA orgB a b : Chain) → Prop
  | exceeded (orgA orgB a b : TupleIp) (icmpOrgA icmpOrgB icmpA icmpB : TupleIcmp)
    (htype : icmpOrgA.type = ICMP_TIME_EXCEEDED) (hmessage : 36 ≤ iphPayloadLen packet 0)
    (hinside : 8 + quotedHeaderLen packet ≤ iphPayloadLen packet 0) :
    ErrorShape packet [.ip orgA, .icmp icmpOrgA] [.ip orgB, .icmp icmpOrgB] [.ip a, .icmp icmpA]
      [.ip b, .icmp icmpB]
  | quoted (orgA orgB a b : TupleIp) (icmpOrgA icmpOrgB icmpA icmpB : TupleIcmp)
    (orgA' orgB' a' b' : TupleIp) (xa xb ya yb : TupleNode)
    (hpayload : 0 ≤ iphPayloadLen packet (quoted packet))
    (hrep : QuotedReplacement packet (iphPayload packet (quoted packet))
      (iphPayloadLen packet (quoted packet)) xa xb ya yb) :
    ErrorShape packet [.ip orgA, .icmp icmpOrgA, .ip orgA', xa]
      [.ip orgB, .icmp icmpOrgB, .ip orgB', xb] [.ip a, .icmp icmpA, .ip a', ya]
      [.ip b, .icmp icmpB, .ip b', yb]

/-! ## When they are kept -/

/-- The quoted header gains nothing by the address and, if its options reach that far, by the two
words a time exceeded message sets. -/
def HeaderKept (packet : List UInt8) (source : UInt32) (prvA prvB : TupleIcmp) (prv2B : TupleIp) :
    Prop :=
  let off := quoted packet
  if 28 ≤ quotedHeaderLen packet then
    prv2B.ip.toNat + ((preferred packet (off + 24) prvA.id prvB.id).toNat +
      (preferred packet (off + 26) prvA.seq prvB.seq).toNat) ≡
      source.toNat + ((get16 packet (off + 24)).toNat + (get16 packet (off + 26)).toNat)
      [MOD 65535]
  else prv2B.ip.toNat ≡ source.toNat [MOD 65535]

/-- The message gains nothing by the quoted packet: for TCP, and for UDP with a checksum, the
addresses keep their sum, for UDP without one the ports do. -/
def MessageKept (packet : List UInt8) : (orgA orgB a b : Chain) → Prop
  | .ip orgA :: _, .ip orgB :: _, [.ip a, .tcp _], [.ip b, .tcp _] =>
    a.ip.toNat + b.ip.toNat ≡ orgA.ip.toNat + orgB.ip.toNat [MOD 65535]
  | .ip orgA :: _, .ip orgB :: _, [.ip a, .udp ya], [.ip b, .udp yb] =>
    let seg := iphPayload packet (quoted packet)
    if get16 packet (seg + 6) = 0 then
      ya.port.toNat + yb.port.toNat ≡
        (get16 packet seg).toNat + (get16 packet (seg + 2)).toNat [MOD 65535]
    else a.ip.toNat + b.ip.toNat ≡ orgA.ip.toNat + orgB.ip.toNat [MOD 65535]
  | _, _, _, _ => True

/-- The source address a time exceeded message finds in the quoted header: the one the replacement
of the quoted header has put there, if there is one. -/
def quotedSource (packet : List UInt8) : Chain → UInt32
  | .ip a :: _ => a.ip
  | _ => iphSaddr packet (quoted packet)

/-- What the replacement has to be for the three checksums to be kept. -/
def ChecksumsKept (packet : List UInt8) : (orgA orgB a b : Chain) → Prop
  | _ :: _ :: orgA, _ :: _ :: orgB, _ :: .icmp prvA :: a, .ip prv2B :: .icmp prvB :: b =>
    (prvA.type = ICMP_TIME_EXCEEDED → HeaderKept packet (quotedSource packet a) prvA prvB prv2B) ∧
      (IcmpStops prvA.type ∨ MessageKept packet orgA orgB a b)
  | _, _, _, _ => True

theorem cast_sub_eq_zero_iff (m n : ℕ) : (m : ZMod 65535) - n = 0 ↔ m ≡ n [MOD 65535] := by
  rw [sub_eq_zero, ZMod.natCast_eq_natCast_iff]

theorem cast_sub_eq_zero_iff' (m n : ℕ) : (n : ZMod 65535) - m = 0 ↔ m ≡ n [MOD 65535] := by
  rw [cast_sub_eq_zero_iff, Nat.ModEq.comm]

theorem verifies_iff (octets : List UInt8) : Verifies octets ↔ onesSum octets = 0 := by
  rw [Verifies, ← wordSum_cast, ← ZMod.natCast_eq_natCast_iff, Nat.cast_zero]

theorem quotedDrift_eq_zero_iff {p : List UInt8} {len : ℤ} {orgA orgB a b : TupleIp}
    {xa xb ya yb : TupleNode}
    (hrep : QuotedReplacement p (iphPayload p (quoted p)) len xa xb ya yb) :
    quotedDrift p (iphPayload p (quoted p)) orgA orgB a b ya yb = 0 ↔
      MessageKept p [.ip orgA, xa] [.ip orgB, xb] [.ip a, ya] [.ip b, yb] := by
  have haddresses := cast_sub_eq_zero_iff' (a.ip.toNat + b.ip.toNat) (orgA.ip.toNat + orgB.ip.toNat)
  push_cast at haddresses
  cases hrep with
  | tcp => exact haddresses
  | udp xa xb ya yb =>
    have hports := cast_sub_eq_zero_iff (ya.port.toNat + yb.port.toNat)
      ((get16 p (iphPayload p (quoted p))).toNat + (get16 p (iphPayload p (quoted p) + 2)).toNat)
    push_cast at hports
    simp only [quotedDrift, MessageKept]
    split
    · exact hports
    · exact haddresses
  | icmp => simp [quotedDrift, MessageKept]

/-- The commit of what a message quotes: `d` is added to the message, nothing to the quoted header,
which `source` is now the source address of. -/
structure QuotedCommitted (p p' : List UInt8) (source : UInt32) (d : ZMod 65535) : Prop where
  edited : Edited p p' (quoted p) (iphPayload p 0 + (iphPayloadLen p 0).toNat) d
  header : stretchSum p' (quoted p) (quotedHeaderLen p) =
    stretchSum p (quoted p) (quotedHeaderLen p)
  source_eq : iphSaddr p' (quoted p) = source
  others_eq : ∀ i, (i < quoted p + 10 ∨ quoted p + 20 ≤ i) → i < quoted p + quotedHeaderLen p →
    get8 p' i = get8 p i

section

variable {p p' : List UInt8} {length : ℤ} {source : UInt32} {d : ZMod 65535}
  {prvA prvB : TupleIcmp} {prv2A prv2B : TupleIp} {nested : NestedCommit}

theorem headerDrift_eq_zero_iff (h : QuotedCommitted p p' source d) :
    headerDrift p' (quoted p) (quotedHeaderLen p) prvA prvB prv2B = 0 ↔
      HeaderKept p source prvA prvB prv2B := by
  have hsource := cast_sub_eq_zero_iff prv2B.ip.toNat source.toNat
  simp only [headerDrift, HeaderKept, h.source_eq]
  split
  · -- the two words are where they were
    have hid : get16 p' (quoted p + 24) = get16 p (quoted p + 24) := by
      rw [get16, get16, h.others_eq _ (by omega) (by omega), h.others_eq _ (by omega) (by omega)]
    have hseq : get16 p' (quoted p + 26) = get16 p (quoted p + 26) := by
      rw [get16, get16, h.others_eq _ (by omega) (by omega), h.others_eq _ (by omega) (by omega)]
    rw [← cast_sub_eq_zero_iff]
    simp only [preferred, hid, hseq]
    push_cast
    exact Iff.of_eq (congrArg (· = 0) (by ring))
  · exact hsource

/-- The ICMP handler on a message that quotes a packet: what it adds to the message and to the
quoted header. -/
theorem icmpCommit_quoting (hwf : WellFormedError p length) (htot : iphTotLen p 0 ≤ length)
    (hmessage : 36 ≤ iphPayloadLen p 0) (hinside : 8 + quotedHeaderLen p ≤ iphPayloadLen p 0)
    (hnested : nested p (quoted p) (iphPayloadLen p 0 - 8) = some (p', 0))
    (hq : QuotedCommitted p p' source d) :
    ∃ q, icmpCommit nested prvA prvB (some (.ip prv2A)) (some (.ip prv2B)) p (iphPayload p 0)
        (iphPayloadLen p 0) = some (q, 0) ∧
      Edited p q (iphPayload p 0) (iphPayload p 0 + (iphPayloadLen p 0).toNat)
        (if IcmpStops prvA.type then 0 else d) ∧
      get8 q (quoted p) = get8 p (quoted p) ∧
      stretchSum q (quoted p) (quotedHeaderLen p) = stretchSum p (quoted p) (quotedHeaderLen p) +
        if prvA.type = ICMP_TIME_EXCEEDED then
          headerDrift p' (quoted p) (quotedHeaderLen p) prvA prvB prv2B
        else 0 := by
  obtain ⟨hreceived, hihl, hihl'⟩ := hwf
  have hseg : ((iphPayload p 0 : ℕ) : ℤ) + iphPayloadLen p 0 = iphTotLen p 0 := by
    rw [iphPayload_add_payloadLen, Nat.cast_zero, zero_add]
  have hquoted : quoted p = iphPayload p 0 + 8 := rfl
  have hbuf : iphPayload p 0 + iphPayloadLen p 0 ≤ p.length := by omega
  by_cases hstop : IcmpStops prvA.type
  · -- the handler returns before it writes anything
    have hexceeded : prvA.type ≠ ICMP_TIME_EXCEEDED := by
      rcases hstop with h | h | h <;> rw [h] <;> decide
    have hlen' : ¬ sizeLt (iphPayloadLen p 0) 8 := not_sizeLt_of_le (by omega)
    obtain ⟨v, hv, -⟩ := @checksumDecrement_stretch (get16 p (iphPayload p 0 + 2)) p
      (iphPayload p 0 + 4) 4 (by omega) rfl
    have hstop' : prvA.type = ICMP_TIMESTAMP ∨ prvA.type = ICMP_TIMESTAMPREPLY ∨
        prvA.type = ICMP_REDIRECT := hstop
    refine ⟨p, ?_, ?_, rfl, ?_⟩
    · simp only [icmpCommit, icmpCommitWith, if_neg hlen', if_pos hexceeded, hv, if_pos hstop']
    · rw [if_pos hstop]
      exact Edited.refl p _ _
    · rw [if_neg hexceeded, add_zero]
  · obtain ⟨q, hrun, hedit, hget, hsum⟩ := @icmpCommit_edited _ _ _ _ _ _ _ _ prvB
      prv2A prv2B hstop (by omega) (fun _ => hmessage) hnested hq.edited hbuf
    refine ⟨q, hrun, by rw [if_neg hstop]; exact hedit, ?_, ?_⟩
    · rw [hquoted, hget, ← hquoted, hq.others_eq _ (by omega) (by omega)]
    · rw [hquoted, hsum _ hihl' (by simp [quotedHeaderLen]) (by omega), ← hquoted, hq.header]

/-- **The commit of an ICMP message over IP**, given what the commit of the quoted packet did: the
three checksums verify afterwards exactly if the message gained nothing by the quoted packet and the
quoted header nothing by the message. -/
theorem ipCommit_icmp_checksumsVerify (hwf : WellFormedError p length) (hlen : ¬ sizeLt length 20)
    (htot : iphTotLen p 0 ≤ length) (hmessage : 36 ≤ iphPayloadLen p 0)
    (hinside : 8 + quotedHeaderLen p ≤ iphPayloadLen p 0)
    (hnested : nested p (quoted p) (iphPayloadLen p 0 - 8) = some (p', 0))
    (hq : QuotedCommitted p p' source d) (hverify : ChecksumsVerify p) :
    ∃ p'', ipCommit (icmpCommit nested prvA prvB (some (.ip prv2A)) (some (.ip prv2B))) prv2A prv2B
        p 0 length = some (p'', 0) ∧
      (ChecksumsVerify p'' ↔
        (prvA.type = ICMP_TIME_EXCEEDED → HeaderKept p source prvA prvB prv2B) ∧
          (IcmpStops prvA.type ∨ d = 0)) := by
  obtain ⟨hreceived, hihl, hihl'⟩ := hwf
  have hseg : ((iphPayload p 0 : ℕ) : ℤ) + iphPayloadLen p 0 = iphTotLen p 0 := by
    rw [iphPayload_add_payloadLen, Nat.cast_zero, zero_add]
  have hquoted : quoted p = iphPayload p 0 + 8 := rfl
  have hseg20 : iphPayload p 0 = iphIhl p 0 * 4 := Nat.zero_add _
  have hbuf : iphPayload p 0 + iphPayloadLen p 0 ≤ p.length := by omega
  obtain ⟨q, hrun, hedit, hget, hheader⟩ := @icmpCommit_quoting _ _ _ _ _ prvA prvB prv2A prv2B _
    ⟨hreceived, hihl, hihl'⟩ htot hmessage hinside hnested hq
  obtain ⟨p'', hp'', hall, hip, -⟩ := @ipCommit_edited _ _ _ _ _ _ _ _ prv2A prv2B hlen htot
    hihl hrun hedit (by omega) (by omega)
  have hqlength := hedit.length_eq
  refine ⟨p'', hp'', ?_⟩
  -- the lengths are still what they were
  have hget0 : get8 p'' 0 = get8 p 0 := hall.get8_eq 0 (by omega)
  have hihl'' : iphIhl p'' 0 = iphIhl p 0 := by rw [iphIhl, hget0, iphIhl]
  have hseg'' : iphPayload p'' 0 = iphPayload p 0 := by rw [iphPayload, hihl'', iphPayload]
  have hlen'' : iphPayloadLen p'' 0 = iphPayloadLen p 0 := by
    rw [iphPayloadLen, hihl'', iphTotLen, hall.get16_eq (by omega), iphPayloadLen, iphTotLen]
  have hquoted'' : quoted p'' = quoted p := by rw [quoted, hseg'', quoted]
  have hquotedLen : quotedHeaderLen p'' = quotedHeaderLen p := by
    rw [quotedHeaderLen, quotedHeaderLen, hquoted'', iphIhl, iphIhl,
      hip.get8_eq _ (by omega), hget]
  -- and these are the three sums
  have hsum₁ : Verifies (ipHeader p'') := by
    rw [verifies_iff, ipHeader, hihl'']
    show stretchSum p'' 0 (iphIhl p 0 * 4) = 0
    rw [hip.sum_eq 0 _ (by omega) (by omega) (by omega) (by omega), add_zero, stretchSum,
      hedit.stretch_eq (by omega) (by omega)]
    exact (verifies_iff _).mp hverify.header
  have hsum₂ : Verifies (stretch p'' (iphPayload p'' 0) (iphPayloadLen p'' 0).toNat) ↔
      IcmpStops prvA.type ∨ d = 0 := by
    have hold : stretchSum p (iphPayload p 0) (iphPayloadLen p 0).toNat = 0 :=
      (verifies_iff _).mp hverify.message
    rw [verifies_iff, hseg'', hlen'', hip.stretch_eq (by omega) (by omega), ← stretchSum,
      hedit.sum_eq _ _ le_rfl (by simp) le_rfl (by omega), hold, zero_add]
    by_cases hstop : IcmpStops prvA.type <;> simp [hstop]
  have hsum₃ : Verifies (stretch p'' (quoted p'') (quotedHeaderLen p'')) ↔
      (prvA.type = ICMP_TIME_EXCEEDED → HeaderKept p source prvA prvB prv2B) := by
    have hold : stretchSum p (quoted p) (quotedHeaderLen p) = 0 :=
      (verifies_iff _).mp hverify.quoted
    rw [verifies_iff, hquoted'', hquotedLen, hip.stretch_eq (by omega) (by omega), ← stretchSum,
      hheader, hold, zero_add, ← headerDrift_eq_zero_iff hq]
    by_cases htype : prvA.type = ICMP_TIME_EXCEEDED <;> simp [htype]
  constructor
  · rintro ⟨-, hmsg, hquot⟩
    exact ⟨hsum₃.mp hquot, hsum₂.mp hmsg⟩
  · rintro ⟨hquot, hmsg⟩
    exact ⟨hsum₁, hsum₂.mpr hmsg, hsum₃.mpr hquot⟩

end

/-- **Translated ICMP errors**: after the commit of replacement chains of the same shape the three
checksums verify if and only if neither the message gained anything by the packet it quotes nor, for
a time exceeded message, the quoted header anything by the message. -/
theorem tupleCommit_checksumsVerify_iff {uninit : ℕ → TupleIcmp × TupleIcmp} {p : List UInt8}
    {fuel : ℕ} {length : ℤ} {orgA orgB a b : Chain} (scratch : UInt32)
    (hwf : WellFormedError p length)
    (hfetch : tupleFetch uninit p fuel IPPROTO_IP 0 length = some (some (orgA, orgB)))
    (hshape : ErrorShape p orgA orgB a b) (hverify : ChecksumsVerify p) :
    ∃ p', tupleCommit scratch none a ⟨none, b⟩ ⟨none, orgA⟩ ⟨none, orgB⟩ p 0 length =
        some (p', 0) ∧
      (ChecksumsVerify p' ↔ ChecksumsKept p orgA orgB a b) := by
  cases hshape with
  | exceeded c d a b icmpC icmpD icmpA icmpB htype hmessage hinside =>
    obtain ⟨-, hlen, htot, -⟩ := tupleFetch_ip hfetch
    have hq : QuotedCommitted p p (iphSaddr p (quoted p)) 0 :=
      ⟨Edited.refl p _ _, rfl, rfl, fun _ _ _ => rfl⟩
    obtain ⟨p', hp', hiff⟩ := @ipCommit_icmp_checksumsVerify p p length _ 0 icmpA icmpB a b
      (fun packet _ _ => some (packet, 0)) hwf hlen htot hmessage hinside rfl hq hverify
    refine ⟨p', hp', hiff.trans ?_⟩
    simp [ChecksumsKept, MessageKept, quotedSource]
  | quoted c d a b icmpC icmpD icmpA icmpB c' d' a' b' xa xb ya yb hpayload hrep =>
    obtain ⟨-, hlen, htot, as, bs, ha, hb, hcases⟩ := tupleFetch_ip hfetch
    cases ha
    cases hb
    obtain ⟨-, fuel', hicmp⟩ := hcases.resolve_left (by simp)
    have hprotocol := tupleFetch_protocol hicmp
    rw [← hprotocol] at hicmp
    obtain ⟨hlen8, -⟩ := tupleFetch_icmp hicmp
    obtain ⟨fuel'', hfetch'⟩ := tupleFetch_icmp_next hicmp (by simp)
    have hseg : ((iphPayload p 0 : ℕ) : ℤ) + iphPayloadLen p 0 = iphTotLen p 0 := by
      rw [iphPayload_add_payloadLen, Nat.cast_zero, zero_add]
    have hreceived := hwf.received
    obtain ⟨hinside, q, hq, hedit, hheader, hsaddr, hothers⟩ :=
      @tupleCommit_quotedPacket uninit p fuel'' (iphPayloadLen p 0 - 8) a' b' xa xb ya yb scratch
        (quoted p) c' d' (some (.icmp icmpA)) (some (.icmp icmpB)) (some (.icmp icmpC))
        (some (.icmp icmpD)) hfetch' hwf.quoted hpayload hrep
        (by simp only [quoted]; push_cast; omega)
    have hquotedLen : quotedHeaderLen p = iphIhl p (quoted p) * 4 := rfl
    have hwide := hwf.quoted
    have hcommitted : QuotedCommitted p q a'.ip
        (quotedDrift p (iphPayload p (quoted p)) c' d' a' b' ya yb) := by
      refine ⟨?_, hheader, hsaddr, fun i hi hbound => hothers i hi hbound⟩
      exact hedit.widen le_rfl (by simp) (by simp only [quoted]; omega)
    obtain ⟨p', hp', hiff⟩ := @ipCommit_icmp_checksumsVerify p q length _ _ icmpA icmpB a b _
      hwf hlen htot (by omega) (by omega) hq hcommitted hverify
    refine ⟨p', hp', hiff.trans ?_⟩
    rw [quotedDrift_eq_zero_iff hrep]
    rfl

/-- A router tells 198.51.100.5 that its echo request to 192.0.2.1 went no further. -/
def exceededPacket : List UInt8 :=
  [0x45, 0, 0, 0x38, 0, 9, 0, 0, 0x3c, 1, 0x18, 0x82, 0xcb, 0, 0x71, 1, 0xc6, 0x33, 0x64, 5,
    0xb, 0, 0xf4, 0xff, 0, 0, 0, 0, 0x45, 0, 0, 0x1c, 0, 7, 0, 0, 1, 1, 0xcd, 0xa0,
    0xc6, 0x33, 0x64, 5, 0xc0, 0, 2, 1, 8, 0, 0xf7, 0xb1, 0, 0x4d, 0, 1]

theorem tupleCommit_checksumsVerify_iff_exceededPacket :
    ∃ p', tupleCommit 0 none [.ip ⟨0xcb007101, 9, 0⟩, .icmp ⟨11, 0x4d, 1⟩]
        ⟨none, [.ip ⟨0x0a000002, 9, 0⟩, .icmp ⟨11, 0x2a, 1⟩]⟩
        ⟨none, [.ip ⟨0xcb007101, 9, 0⟩, .icmp ⟨11, 0x4d, 1⟩]⟩
        ⟨none, [.ip ⟨0xc6336405, 9, 0⟩, .icmp ⟨11, 0x4d, 1⟩]⟩ exceededPacket 0 56 = some (p', 0) ∧
      (ChecksumsVerify p' ↔ ChecksumsKept exceededPacket
        [.ip ⟨0xcb007101, 9, 0⟩, .icmp ⟨11, 0x4d, 1⟩] [.ip ⟨0xc6336405, 9, 0⟩, .icmp ⟨11, 0x4d, 1⟩]
        [.ip ⟨0xcb007101, 9, 0⟩, .icmp ⟨11, 0x4d, 1⟩]
        [.ip ⟨0x0a000002, 9, 0⟩, .icmp ⟨11, 0x2a, 1⟩]) :=
  @tupleCommit_checksumsVerify_iff (fun _ => (⟨0, 0, 0⟩, ⟨0, 0, 0⟩)) exceededPacket 2 56 _ _ _ _ 0
    ⟨by decide, by decide, by decide⟩ (by decide)
    (.exceeded ⟨0xcb007101, 9, 0⟩ ⟨0xc6336405, 9, 0⟩ ⟨0xcb007101, 9, 0⟩ ⟨0x0a000002, 9, 0⟩
      ⟨11, 0x4d, 1⟩ ⟨11, 0x4d, 1⟩ ⟨11, 0x4d, 1⟩ ⟨11, 0x2a, 1⟩ rfl (by decide) (by decide))
    ⟨by decide, by decide, by decide⟩

/-- 192.0.2.1 tells 198.51.100.5 that nobody listens on its port 53. -/
def unreachablePacket : List UInt8 :=
  [0x45, 0, 0, 0x38, 0, 9, 0, 0, 0x3c, 1, 0x92, 0x82, 0xc0, 0, 2, 1, 0xc6, 0x33, 0x64, 5,
    3, 3, 0xe9, 0x50, 0, 0, 0, 0, 0x45, 0, 0, 0x1c, 0, 7, 0, 0, 0x40, 0x11, 0x8e, 0x90,
    0xc6, 0x33, 0x64, 5, 0xc0, 0, 2, 1, 0x12, 0x34, 0, 0x35, 0, 8, 1, 0x3b]

/-- The three checksums do not always survive: with the address of the quoted packet translated too,
the message no longer verifies. -/
theorem tupleCommit_unreachablePacket :
    ¬ ∀ (uninit : ℕ → TupleIcmp × TupleIcmp) (p : List UInt8) (fuel : ℕ) (length : ℤ)
      (orgA orgB a b : Chain) (scratch : UInt32), WellFormedError p length →
      tupleFetch uninit p fuel IPPROTO_IP 0 length = some (some (orgA, orgB)) →
      ErrorShape p orgA orgB a b → ChecksumsVerify p →
      ∃ p', tupleCommit scratch none a ⟨none, b⟩ ⟨none, orgA⟩ ⟨none, orgB⟩ p 0 length =
        some (p', 0) ∧ ChecksumsVerify p' := by
  intro h
  obtain ⟨p', hp', hverify⟩ := h (fun _ => (⟨0, 0, 0⟩, ⟨0, 0, 0⟩)) unreachablePacket 4 56 _ _ _ _ 0
    ⟨by decide, by decide, by decide⟩ (by rfl)
    (.quoted ⟨0xc0000201, 9, 0⟩ ⟨0xc6336405, 9, 0⟩ ⟨0xc0000201, 9, 0⟩ ⟨0x0a000002, 9, 0⟩
      ⟨3, 0, 0⟩ ⟨3, 0, 0⟩ ⟨3, 0, 0⟩ ⟨3, 0, 0⟩ ⟨0xc6336405, 7, 0⟩ ⟨0xc0000201, 7, 0⟩
      ⟨0x0a000002, 7, 0⟩ ⟨0xc0000201, 7, 0⟩ (.udp ⟨0x1234⟩) (.udp ⟨53⟩) (.udp ⟨4000⟩) (.udp ⟨53⟩)
      (by decide) (.udp ⟨0x1234⟩ ⟨53⟩ ⟨4000⟩ ⟨53⟩))
    ⟨by decide, by decide, by decide⟩
  have hrun : (tupleCommit 0 none
      [.ip ⟨0xc0000201, 9, 0⟩, .icmp ⟨3, 0, 0⟩, .ip ⟨0x0a000002, 7, 0⟩, .udp ⟨4000⟩]
      ⟨none, [.ip ⟨0x0a000002, 9, 0⟩, .icmp ⟨3, 0, 0⟩, .ip ⟨0xc0000201, 7, 0⟩, .udp ⟨53⟩]⟩
      ⟨none, [.ip ⟨0xc0000201, 9, 0⟩, .icmp ⟨3, 0, 0⟩, .ip ⟨0xc6336405, 7, 0⟩, .udp ⟨0x1234⟩]⟩
      ⟨none, [.ip ⟨0xc6336405, 9, 0⟩, .icmp ⟨3, 0, 0⟩, .ip ⟨0xc0000201, 7, 0⟩, .udp ⟨53⟩]⟩
      unreachablePacket 0 56).map (fun r => decide (Verifies (stretch r.1 (iphPayload r.1 0)
        (iphPayloadLen r.1 0).toNat))) = some false := by
    decide +kernel
  rw [hp', Option.map_some, decide_eq_true hverify.message] at hrun
  cases hrun

end Sweetspot
