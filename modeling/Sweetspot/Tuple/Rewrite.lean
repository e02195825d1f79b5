import Sweetspot.Tuple.Commit

/-!
# Header rewriting

What address translation does to a packet: the chains it was fetched into are replaced, and
`sw_tuple_commit` writes the replacement.

* `TransportFields`: where the two rewritten fields and the checksum of a transport header are.
* `HeaderRewritten`: the packet carries the new addresses and fields, nothing else but the two
  checksums moved, and each checksum covers the same sum as before.
* `headerRewritten_of_eq`: six writes into the buffer, with checksums that account for them, are
  such a rewrite.  This is the one place where the layout of the headers matters.
* `tupleCommit_headerRewritten`: `sw_tuple_commit` makes those six writes.
-/

namespace Sweetspot

open Octets

/-- The part of a transport header that is rewritten: two 16-bit fields and a checksum, as offsets
into the header.  They lie on word boundaries, apart from each other and in the first `size`
octets. -/
structure TransportFields where
  check : ℕ
  first : ℕ
  second : ℕ
  size : ℕ
  newFirst : UInt16
  newSecond : UInt16
  /-- Whether the checksum covers the pseudo-header as well. -/
  pseudo : Bool
  even : check % 2 = 0 ∧ first % 2 = 0 ∧ second % 2 = 0
  apart : first + 2 ≤ second ∧ (second + 2 ≤ check ∨ check + 2 ≤ first)
  inside : check + 2 ≤ size ∧ second + 2 ≤ size

def tcpFields (source dest : UInt16) : TransportFields :=
  ⟨16, 0, 2, 18, source, dest, true, by decide, by decide, by decide⟩

def udpFields (source dest : UInt16) : TransportFields :=
  ⟨6, 0, 2, 8, source, dest, true, by decide, by decide, by decide⟩

def icmpFields (id seq : UInt16) : TransportFields :=
  ⟨2, 4, 6, 8, id, seq, false, by decide, by decide, by decide⟩

/-- Of the two sides at most one has a value other than `old`, and `new` is that value. -/
def OneSide (old a b new : UInt16) : Prop := (a = new ∧ b = old) ∨ (a = old ∧ b = new)

/-- The transport nodes of the fetched chains and of the replacement, of one shape, and the fields
they rewrite.  `seg` and `len` are the IP payload. -/
inductive Replacement (packet : List UInt8) (seg : ℕ) (len : ℤ) :
    (orgA orgB a b : TupleNode) → TransportFields → Prop
  | tcp (orgA orgB a b : TupleTcp) (hdoff : (tcphDoff packet seg * 4 : ℕ) ≤ len) :
    Replacement packet seg len (.tcp orgA) (.tcp orgB) (.tcp a) (.tcp b)
      (tcpFields a.port b.port)
  | udp (orgA orgB a b : TupleUdp) (hcheck : get16 packet (seg + 6) ≠ 0) :
    Replacement packet seg len (.udp orgA) (.udp orgB) (.udp a) (.udp b)
      (udpFields a.port b.port)
  | icmp (orgA orgB a b : TupleIcmp) (id seq : UInt16)
    (horg : orgA.type = ICMP_ECHO ∨ orgA.type = ICMP_ECHOREPLY)
    (htype : a.type = ICMP_ECHO ∨ a.type = ICMP_ECHOREPLY)
    (hid : OneSide orgA.id a.id b.id id) (hseq : OneSide orgA.seq a.seq b.seq seq) :
    Replacement packet seg len (.icmp orgA) (.icmp orgB) (.icmp a) (.icmp b) (icmpFields id seq)

/-! ## What the checksums cover -/

def ipHeader (packet : List UInt8) : List UInt8 := stretch packet 0 (iphIhl packet 0 * 4)

/-- The pseudo-header of the packet, with `len` for its length field. -/
def pseudoHeader (packet : List UInt8) (len : UInt16) : List UInt8 :=
  octets32 (iphSaddr packet 0) ++ octets32 (iphDaddr packet 0) ++
    [0, get8 packet 9, UInt8.ofNat (len.toNat / 256), UInt8.ofNat (len.toNat % 256)]

/-- What the transport checksum covers when `n` octets of the payload belong to it. -/
def TransportFields.covered (f : TransportFields) (packet : List UInt8) (seg : ℕ) (len : UInt16)
    (n : ℕ) : List UInt8 :=
  (if f.pseudo then pseudoHeader packet len else []) ++ stretch packet seg n

/-- The sum is one of the two zeros of one's-complement arithmetic. -/
def Verifies (octets : List UInt8) : Prop := wordSum octets ≡ 0 [MOD 65535]

instance (octets : List UInt8) : Decidable (Verifies octets) :=
  inferInstanceAs (Decidable (_ ≡ _ [MOD _]))

/-- The packet `p'` is `p` with new addresses and new transport fields, and covers by its
checksums what `p` covers.  The transport sum is the same for every pseudo-header length and for
any part of the payload that has the rewritten fields in it. -/
structure HeaderRewritten (p p' : List UInt8) (saddr daddr : UInt32) (f : TransportFields) :
    Prop where
  length_eq : p'.length = p.length
  saddr_eq : iphSaddr p' 0 = saddr
  daddr_eq : iphDaddr p' 0 = daddr
  first_eq : get16 p' (iphPayload p 0 + f.first) = f.newFirst
  second_eq : get16 p' (iphPayload p 0 + f.second) = f.newSecond
  -- from 10 to 20 are the IP checksum and the addresses
  others_eq : ∀ i, (i < 10 ∨ 20 ≤ i) →
    (∀ j ∈ [f.check, f.first, f.second], i < iphPayload p 0 + j ∨ iphPayload p 0 + j + 2 ≤ i) →
    get8 p' i = get8 p i
  header_sum : wordSum (ipHeader p') ≡ wordSum (ipHeader p) [MOD 65535]
  transport_sum : ∀ len n, f.size ≤ n → (n : ℤ) ≤ iphPayloadLen p 0 →
    wordSum (f.covered p' (iphPayload p 0) len n) ≡
      wordSum (f.covered p (iphPayload p 0) len n) [MOD 65535]

/-! ## The six writes -/

/-- The buffer after the transport handler and then the IP handler. -/
def headerRewrite (p : List UInt8) (seg : ℕ) (saddr daddr : UInt32) (f : TransportFields)
    (cs ipCs : UInt16) : List UInt8 :=
  put16 (put32 (put32 (put16 (put16 (put16 p (seg + f.first) f.newFirst) (seg + f.second)
    f.newSecond) (seg + f.check) cs) 12 saddr) 16 daddr) 10 ipCs

section

variable {p : List UInt8} {seg : ℕ} {saddr daddr : UInt32} {f : TransportFields}
  {cs ipCs : UInt16}

@[simp] theorem length_headerRewrite :
    (headerRewrite p seg saddr daddr f cs ipCs).length = p.length := by
  simp [headerRewrite]

theorem get8_headerRewrite (hseg : 20 ≤ seg) (hbuf : seg + f.size ≤ p.length) {i : ℕ}
    (hi : i < 10 ∨ 20 ≤ i)
    (hj : ∀ j ∈ [f.check, f.first, f.second], i < seg + j ∨ seg + j + 2 ≤ i) :
    get8 (headerRewrite p seg saddr daddr f cs ipCs) i = get8 p i := by
  obtain ⟨hc, hs⟩ := f.inside
  obtain ⟨hfs, -⟩ := f.apart
  have hcheck := hj f.check (by simp)
  have hfirst := hj f.first (by simp)
  have hsecond := hj f.second (by simp)
  rw [headerRewrite, get8_put16_of_ne (by simp; omega) _ (by omega),
    get8_put32_of_ne (by simp; omega) _ (by omega), get8_put32_of_ne (by simp; omega) _ (by omega),
    get8_put16_of_ne (by simp; omega) _ hcheck, get8_put16_of_ne (by simp; omega) _ hsecond,
    get8_put16_of_ne (by omega) _ hfirst]

theorem iphSaddr_headerRewrite (hseg : 20 ≤ seg) (hbuf : seg + f.size ≤ p.length) :
    iphSaddr (headerRewrite p seg saddr daddr f cs ipCs) 0 = saddr := by
  rw [iphSaddr, headerRewrite, get32_put16_of_ne (by simp; omega) _ (by omega),
    get32_put32_of_ne (by simp; omega) _ (by omega), get32_put32_self (by simp; omega)]

theorem iphDaddr_headerRewrite (hseg : 20 ≤ seg) (hbuf : seg + f.size ≤ p.length) :
    iphDaddr (headerRewrite p seg saddr daddr f cs ipCs) 0 = daddr := by
  rw [iphDaddr, headerRewrite, get32_put16_of_ne (by simp; omega) _ (by omega),
    get32_put32_self (by simp; omega)]

theorem get16_first_headerRewrite (hseg : 20 ≤ seg) (hbuf : seg + f.size ≤ p.length) :
    get16 (headerRewrite p seg saddr daddr f cs ipCs) (seg + f.first) = f.newFirst := by
  obtain ⟨hc, hs⟩ := f.inside
  obtain ⟨hfs, hcheck⟩ := f.apart
  rw [headerRewrite, get16_put16_of_ne (by simp; omega) _ (by omega),
    get16_put32_of_ne (by simp; omega) _ (by omega),
    get16_put32_of_ne (by simp; omega) _ (by omega),
    get16_put16_of_ne (by simp; omega) _ (by omega),
    get16_put16_of_ne (by simp; omega) _ (by omega), get16_put16_self (by omega)]

theorem get16_second_headerRewrite (hseg : 20 ≤ seg) (hbuf : seg + f.size ≤ p.length) :
    get16 (headerRewrite p seg saddr daddr f cs ipCs) (seg + f.second) = f.newSecond := by
  obtain ⟨hc, hs⟩ := f.inside
  obtain ⟨hfs, hcheck⟩ := f.apart
  rw [headerRewrite, get16_put16_of_ne (by simp; omega) _ (by omega),
    get16_put32_of_ne (by simp; omega) _ (by omega),
    get16_put32_of_ne (by simp; omega) _ (by omega),
    get16_put16_of_ne (by simp; omega) _ (by omega), get16_put16_self (by simp; omega)]

/-- The IP header gains what the addresses and its checksum gained. -/
theorem stretchSum_header_headerRewrite (hseg : 20 ≤ seg) (hbuf : seg + f.size ≤ p.length) :
    stretchSum (headerRewrite p seg saddr daddr f cs ipCs) 0 seg =
      stretchSum p 0 seg + (saddr.toNat - (iphSaddr p 0).toNat) +
        (daddr.toNat - (iphDaddr p 0).toNat) + (ipCs.toNat - (iphCheck p 0).toNat) := by
  obtain ⟨hc, hs⟩ := f.inside
  obtain ⟨hfs, hcheck⟩ := f.apart
  rw [headerRewrite, stretchSum_put16 (by omega) (by omega) (by omega) (by simp; omega),
    stretchSum_put32 (by omega) (by omega) (by omega) (by simp; omega),
    stretchSum_put32 (by omega) (by omega) (by omega) (by simp; omega),
    stretchSum_put16_of_disjoint (by omega), stretchSum_put16_of_disjoint (by omega),
    stretchSum_put16_of_disjoint (by omega),
    -- what each write finds at its place is what the packet had there
    get32_put32_of_ne (by simp; omega) _ (by omega),
    get32_put16_of_ne (by simp; omega) _ (by omega),
    get32_put16_of_ne (by simp; omega) _ (by omega), get32_put16_of_ne (by omega) _ (by omega),
    get32_put16_of_ne (by simp; omega) _ (by omega),
    get32_put16_of_ne (by simp; omega) _ (by omega), get32_put16_of_ne (by omega) _ (by omega),
    get16_put32_of_ne (by simp; omega) _ (by omega),
    get16_put32_of_ne (by simp; omega) _ (by omega),
    get16_put16_of_ne (by simp; omega) _ (by omega),
    get16_put16_of_ne (by simp; omega) _ (by omega), get16_put16_of_ne (by omega) _ (by omega)]
  rfl

/-- The payload gains what its two fields and its checksum gained. -/
theorem stretchSum_payload_headerRewrite (hseg : 20 ≤ seg) {n : ℕ} (hn : f.size ≤ n)
    (hbuf : seg + n ≤ p.length) :
    stretchSum (headerRewrite p seg saddr daddr f cs ipCs) seg n =
      stretchSum p seg n + (f.newFirst.toNat - (get16 p (seg + f.first)).toNat) +
        (f.newSecond.toNat - (get16 p (seg + f.second)).toNat) +
        (cs.toNat - (get16 p (seg + f.check)).toNat) := by
  obtain ⟨hc, hs⟩ := f.inside
  obtain ⟨hfs, hcheck⟩ := f.apart
  obtain ⟨hce, hfe, hse⟩ := f.even
  rw [headerRewrite, stretchSum_put16_of_disjoint (by omega),
    stretchSum_put32_of_disjoint (by omega), stretchSum_put32_of_disjoint (by omega),
    stretchSum_put16 (by omega) (by omega) (by omega) (by simp; omega),
    stretchSum_put16 (by omega) (by omega) (by omega) (by simp; omega),
    stretchSum_put16 (by omega) (by omega) (by omega) (by omega),
    get16_put16_of_ne (by omega) _ (by omega), get16_put16_of_ne (by simp; omega) _ (by omega),
    get16_put16_of_ne (by omega) _ (by omega)]

theorem onesSum_pseudoHeader (p : List UInt8) (len : UInt16) :
    onesSum (pseudoHeader p len) = (iphSaddr p 0).toNat + (iphDaddr p 0).toNat +
      onesSum [0, get8 p 9, UInt8.ofNat (len.toNat / 256), UInt8.ofNat (len.toNat % 256)] := by
  rw [pseudoHeader, onesSum_append (by simp [length_octets32]),
    onesSum_append (by simp [length_octets32]), onesSum_octets32, onesSum_octets32]

theorem onesSum_covered (f : TransportFields) (p : List UInt8) (seg : ℕ) (len : UInt16) (n : ℕ) :
    onesSum (f.covered p seg len n) =
      (if f.pseudo then onesSum (pseudoHeader p len) else 0) + stretchSum p seg n := by
  rw [TransportFields.covered, onesSum_append]
  · cases f.pseudo <;> rfl
  · cases f.pseudo
    · rfl
    · simp [pseudoHeader, length_octets32]

/-- **Six writes whose checksums account for them are a rewrite.** -/
theorem headerRewritten_of_eq (hseg : seg = iphPayload p 0) (hihl : 20 ≤ iphIhl p 0 * 4)
    (hsize : (f.size : ℤ) ≤ iphPayloadLen p 0) (hbuf : seg + iphPayloadLen p 0 ≤ p.length)
    (hipCs : (ipCs.toNat : ZMod 65535) = (iphCheck p 0).toNat +
      ((iphSaddr p 0).toNat + (iphDaddr p 0).toNat) - (saddr.toNat + daddr.toNat))
    (hcs : (cs.toNat : ZMod 65535) = (get16 p (seg + f.check)).toNat +
      ((get16 p (seg + f.first)).toNat + (get16 p (seg + f.second)).toNat +
        if f.pseudo then ((iphSaddr p 0).toNat + (iphDaddr p 0).toNat : ZMod 65535) else 0) -
      (f.newFirst.toNat + f.newSecond.toNat +
        if f.pseudo then (saddr.toNat + daddr.toNat : ZMod 65535) else 0)) :
    HeaderRewritten p (headerRewrite p seg saddr daddr f cs ipCs) saddr daddr f := by
  have hseg20 : 20 ≤ seg := by
    rw [hseg, iphPayload]
    omega
  have hbuf' : seg + f.size ≤ p.length := by omega
  have hget : ∀ i < 10, get8 (headerRewrite p seg saddr daddr f cs ipCs) i = get8 p i := by
    intro i hi
    exact get8_headerRewrite hseg20 hbuf' (Or.inl hi) (fun j _ => Or.inl (by omega))
  have hihl' : iphIhl (headerRewrite p seg saddr daddr f cs ipCs) 0 * 4 = seg := by
    rw [iphIhl, hget 0 (by omega), hseg, iphPayload, Nat.zero_add]
    rfl
  refine ⟨length_headerRewrite, iphSaddr_headerRewrite hseg20 hbuf',
    iphDaddr_headerRewrite hseg20 hbuf', ?_, ?_, ?_, ?_, ?_⟩
  · rw [← hseg]
    exact get16_first_headerRewrite hseg20 hbuf'
  · rw [← hseg]
    exact get16_second_headerRewrite hseg20 hbuf'
  · intro i hi hj
    rw [← hseg] at hj
    exact get8_headerRewrite hseg20 hbuf' hi hj
  · rw [wordSum_modEq_iff, ipHeader, ipHeader, hihl', show iphIhl p 0 * 4 = seg by
      rw [hseg, iphPayload, Nat.zero_add]]
    show stretchSum _ 0 seg = stretchSum p 0 seg
    rw [stretchSum_header_headerRewrite hseg20 hbuf', hipCs]
    ring
  · intro len n hn hlen
    rw [wordSum_modEq_iff, ← hseg, onesSum_covered, onesSum_covered,
      stretchSum_payload_headerRewrite hseg20 hn (by omega), onesSum_pseudoHeader,
      onesSum_pseudoHeader, iphSaddr_headerRewrite hseg20 hbuf',
      iphDaddr_headerRewrite hseg20 hbuf', hget 9 (by omega), hcs]
    cases f.pseudo
    · simp only [Bool.false_eq_true, if_false]
      ring
    · simp only [if_true]
      ring

end

/-! ## The commit makes them -/

/-- Preferring the alternative picks the side that changed. -/
theorem OneSide.prefer {old a b new : UInt16} (h : OneSide old a b new) :
    (if old = a then b else a) = new := by
  rcases h with ⟨rfl, rfl⟩ | ⟨rfl, rfl⟩
  · by_cases hab : b = a <;> simp [hab]
  · rw [if_pos rfl]

section

variable {uninit : ℕ → TupleIcmp × TupleIcmp} {p : List UInt8} {fuel : ℕ} {length : ℤ}
  {orgA orgB a b : TupleIp} {xa xb ya yb : TupleNode} {f : TransportFields}

/-- The transport handler, called from the IP handler: three writes, the last one a checksum that
accounts for the fields and the addresses. -/
theorem tupleCommit_transport (scratch : UInt32) {protocol seg : ℕ}
    (hfetch : tupleFetch uninit p fuel protocol seg length = some (some ([xa], [xb])))
    (hrep : Replacement p seg length xa xb ya yb f) (hlength : 0 ≤ length)
    (hbuf : seg + length ≤ p.length) :
    (f.size : ℤ) ≤ length ∧ ∃ cs,
      tupleCommit scratch (some (.ip a)) [ya] ⟨some (.ip b), [yb]⟩ ⟨some (.ip orgA), [xa]⟩
          ⟨some (.ip orgB), [xb]⟩ p seg length =
        some (put16 (put16 (put16 p (seg + f.first) f.newFirst) (seg + f.second) f.newSecond)
          (seg + f.check) cs, 0) ∧
      (cs.toNat : ZMod 65535) = (get16 p (seg + f.check)).toNat +
        ((get16 p (seg + f.first)).toNat + (get16 p (seg + f.second)).toNat +
          if f.pseudo then (orgA.ip.toNat + orgB.ip.toNat : ZMod 65535) else 0) -
        (f.newFirst.toNat + f.newSecond.toNat +
          if f.pseudo then (a.ip.toNat + b.ip.toNat : ZMod 65535) else 0) := by
  have hprotocol := tupleFetch_protocol hfetch
  cases hrep with
  | tcp xa xb ya yb hdoff =>
    cases hprotocol
    obtain ⟨hlen, -, -⟩ := tupleFetch_tcp hfetch
    have hlen' : ¬ sizeLt length 20 := not_sizeLt_of_le hlen
    refine ⟨by simp only [tcpFields]; omega, ?_⟩
    obtain ⟨cs, hcs, hcast⟩ := @tcpCommit_eq (fun packet _ _ => some (packet, 0)) p p seg length 0
      scratch ya yb (some (.ip a)) (some (.ip b)) (some (.ip orgA)) (some (.ip orgB)) hlen' hdoff
      rfl (by omega) (by omega)
    refine ⟨cs, hcs, ?_⟩
    rw [hcast]
    simp only [pseudoSum, tcpFields, if_true, Nat.add_zero]
    ring
  | udp xa xb ya yb hcheck =>
    cases hprotocol
    obtain ⟨hlen, -, -⟩ := tupleFetch_udp hfetch
    have hlen' : 8 ≤ length := le_of_not_sizeLt hlen hlength
    refine ⟨by simp only [udpFields]; omega, ?_⟩
    obtain ⟨cs, hcs, hcast⟩ := @udpCommit_eq (fun packet _ _ => some (packet, 0)) p p seg length 0
      scratch ya yb (some (.ip a)) (some (.ip b)) (some (.ip orgA)) (some (.ip orgB)) hlen hcheck
      hcheck rfl (by omega) (by omega)
    refine ⟨cs, hcs, ?_⟩
    rw [hcast]
    simp only [pseudoSum, udpFields, if_true, Nat.add_zero]
    ring
  | icmp xa xb ya yb id seq horg htype hid hseq =>
    cases hprotocol
    obtain ⟨hlen, xa', xb', as, bs, hxa, hxb, hxatype, hxbtype, hecho⟩ := tupleFetch_icmp hfetch
    cases hxa
    rw [hxatype] at horg
    obtain ⟨-, -, hxid, -, hxseq, -⟩ := hecho horg
    rw [hxid] at hid
    rw [hxseq] at hseq
    have hlen' : 8 ≤ length := le_of_not_sizeLt hlen hlength
    refine ⟨by simp only [icmpFields]; omega, ?_⟩
    obtain ⟨cs, hcs, hcast⟩ := @icmpCommit_echo_eq (fun packet _ _ => some (packet, 0)) p p seg
      length 0 ya yb a b htype hlen rfl (by omega) (by omega)
    have hfirst : preferAlternative p (seg + 4) ya.id yb.id = put16 p (seg + 4) id := by
      rw [preferAlternative, hid.prefer]
    have hsecond : preferAlternative (put16 p (seg + 4) id) (seg + 6) ya.seq yb.seq =
        put16 (put16 p (seg + 4) id) (seg + 6) seq := by
      rw [preferAlternative, get16_put16_of_ne (by omega) _ (by omega), hseq.prefer]
    rw [hfirst, hsecond] at hcs
    rw [hid.prefer, hseq.prefer] at hcast
    refine ⟨cs, hcs, ?_⟩
    rw [hcast]
    simp only [icmpFields, Bool.false_eq_true, if_false, add_zero]

/-- **Header rewriting.**  A packet fetched as IP over TCP, UDP with a checksum, or an ICMP echo is
committed with replacement chains of the same shape: the commit succeeds, the packet carries the new
addresses and fields and is otherwise what it was, and what its checksums cover adds up to the same
as before, so that a checksum which verified still does. -/
theorem tupleCommit_headerRewritten (scratch : UInt32) (hbuf : length ≤ p.length)
    (hfetch : tupleFetch uninit p fuel IPPROTO_IP 0 length =
      some (some ([.ip orgA, xa], [.ip orgB, xb])))
    (hihl : 20 ≤ iphIhl p 0 * 4) (hpayload : 0 ≤ iphPayloadLen p 0)
    (hrep : Replacement p (iphPayload p 0) (iphPayloadLen p 0) xa xb ya yb f) :
    ∃ p', tupleCommit scratch none [.ip a, ya] ⟨none, [.ip b, yb]⟩ ⟨none, [.ip orgA, xa]⟩
        ⟨none, [.ip orgB, xb]⟩ p 0 length = some (p', 0) ∧
      HeaderRewritten p p' a.ip b.ip f ∧
      (Verifies (ipHeader p) → Verifies (ipHeader p')) ∧
      ∀ len n, f.size ≤ n → (n : ℤ) ≤ iphPayloadLen p 0 →
        Verifies (f.covered p (iphPayload p 0) len n) →
        Verifies (f.covered p' (iphPayload p 0) len n) := by
  obtain ⟨-, hlen, htot, as, bs, ha, hb, hcases⟩ := tupleFetch_ip hfetch
  cases ha
  cases hb
  -- both chains go on, so this is no later fragment
  obtain ⟨-, fuel', hfetch'⟩ := hcases.resolve_left (by simp)
  have hseg : ((iphPayload p 0 : ℕ) : ℤ) + iphPayloadLen p 0 = iphTotLen p 0 := by
    rw [iphPayload_add_payloadLen, Nat.cast_zero, zero_add]
  obtain ⟨hsize, cs, hcs, hcast⟩ := @tupleCommit_transport _ p fuel' _
    ⟨iphSaddr p 0, iphId p 0, iphFragOff p 0⟩ ⟨iphDaddr p 0, iphId p 0, iphFragOff p 0⟩ a b xa xb
    ya yb f scratch _ _ hfetch' hrep hpayload (by omega)
  have hbuf20 : 0 + 20 ≤ p.length := by
    simp only [iphPayload] at hseg
    omega
  obtain ⟨ipCs, hipCs, hipCast⟩ := @ipCommit_eq _ p _ 0 length 0 a b hlen htot hcs hbuf20
    (by simp only [length_put16]; exact hbuf20)
  have hrewritten := @headerRewritten_of_eq p (iphPayload p 0) a.ip b.ip f cs ipCs rfl hihl hsize
    (by omega) hipCast hcast
  refine ⟨headerRewrite p (iphPayload p 0) a.ip b.ip f cs ipCs, hipCs, hrewritten, ?_, ?_⟩
  · intro hverifies
    exact hrewritten.header_sum.trans hverifies
  · intro len n hn hlen' hverifies
    exact (hrewritten.transport_sum len n hn hlen').trans hverifies

end

/-- 10.0.0.1 asks 192.0.2.1 something over UDP. -/
def udpPacket : List UInt8 :=
  [0x45, 0, 0, 28, 0, 1, 0, 0, 64, 17, 0xae, 0xce, 10, 0, 0, 1, 192, 0, 2, 1,
    0x0f, 0xa0, 0, 53, 0, 8, 0x24, 0x07]

theorem tupleCommit_headerRewritten_udpPacket :
    ∃ p', tupleCommit 7 none [.ip ⟨0xcb007107, 1, 0⟩, .udp ⟨4660⟩]
        ⟨none, [.ip ⟨0xc0000201, 1, 0⟩, .udp ⟨53⟩]⟩ ⟨none, [.ip ⟨0x0a000001, 1, 0⟩, .udp ⟨4000⟩]⟩
        ⟨none, [.ip ⟨0xc0000201, 1, 0⟩, .udp ⟨53⟩]⟩ udpPacket 0 28 = some (p', 0) ∧
      HeaderRewritten udpPacket p' 0xcb007107 0xc0000201 (udpFields 4660 53) ∧
      (Verifies (ipHeader udpPacket) → Verifies (ipHeader p')) ∧
      ∀ len (n : ℕ), 8 ≤ n → (n : ℤ) ≤ iphPayloadLen udpPacket 0 →
        Verifies ((udpFields 4660 53).covered udpPacket (iphPayload udpPacket 0) len n) →
        Verifies ((udpFields 4660 53).covered p' (iphPayload udpPacket 0) len n) :=
  @tupleCommit_headerRewritten (fun _ => (⟨0, 0, 0⟩, ⟨0, 0, 0⟩)) udpPacket 2 28
    ⟨0x0a000001, 1, 0⟩ ⟨0xc0000201, 1, 0⟩ ⟨0xcb007107, 1, 0⟩ ⟨0xc0000201, 1, 0⟩ (.udp ⟨4000⟩)
    (.udp ⟨53⟩) (.udp ⟨4660⟩) (.udp ⟨53⟩) (udpFields 4660 53) 7 (by decide) (by decide)
    (by decide) (by decide) (.udp ⟨4000⟩ ⟨53⟩ ⟨4660⟩ ⟨53⟩ (by decide))

end Sweetspot
