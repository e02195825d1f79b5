import Sweetspot.Tuple.FullSum

/-!
# A checksum of zero

A UDP datagram whose checksum field is zero carries none, which is why a checksum that comes out
zero is to be sent as `0xffff`.  Neither build does that.  When does a datagram that came with a
checksum leave without one?

* `fullIncrementLoop_eq_zero_iff`: an accumulator is zero only if nothing was put in.
* `pseudoIncrement_ne_zero`, `checksumIncrementFull_ne_ones`: something always is, so of the two
  zeros of one's-complement arithmetic both builds write the wrong one.
* `Replaced.AdjustsToZero`, `Replaced.SumsToZero`: the changes, or the new sum, have that residue.
* `udpChecksum_ne_zero_iff`: the field is zero exactly then.
-/

namespace Sweetspot

open Octets

/-! ## Accumulators that are not zero -/

/-- The carry leaves zero only where both summands are. -/
theorem end_around_eq_zero_iff (x w : ℕ) :
    (if (x + w) / 65536 ≠ 0 then (x + w) % 65536 + 1 else x + w) = 0 ↔ x = 0 ∧ w = 0 := by
  split
  · constructor
    · intro h
      cases h
    · omega
  · omega

theorem word_eq_zero_iff (b b' : UInt8) : b.toNat * 256 + b'.toNat = 0 ↔ b = 0 ∧ b' = 0 := by
  rw [← UInt8.toNat_inj, ← UInt8.toNat_inj, UInt8.toNat_zero]
  omega

/-- **An accumulator is zero** only if it was and only zeros were put in. -/
theorem fullIncrementLoop_eq_zero_iff (x : ℕ) (packet : List UInt8) :
    fullIncrementLoop x packet = 0 ↔ x = 0 ∧ ∀ b ∈ packet, b = 0 := by
  induction packet using List.twoStepInduction generalizing x with
  | nil => simp [fullIncrementLoop]
  | singleton b =>
    rw [fullIncrementLoop, end_around_eq_zero_iff, List.forall_mem_singleton,
      ← UInt8.toNat_inj, UInt8.toNat_zero]
    omega
  | cons_cons b b' bs ih _ =>
    rw [fullIncrementLoop, ih, end_around_eq_zero_iff, word_eq_zero_iff, List.forall_mem_cons,
      List.forall_mem_cons, and_assoc, and_assoc]

theorem toNat_fullIncrement {x : ℕ} (hx : x ≤ 65535) (packet : List UInt8) :
    (UInt16.ofNat (fullIncrementLoop x packet)).toNat = fullIncrementLoop x packet := by
  have hrange := (fullIncrementLoop_spec x packet hx).1
  rw [UInt16.toNat_ofNat', Nat.mod_eq_of_lt (by omega)]

/-- A sum that had something put in is not complemented to `0xffff`. -/
theorem checksumIncrementFull_ne_ones {x : UInt16} {packet : List UInt8}
    (h : x ≠ 0 ∨ ∃ b ∈ packet, b ≠ 0) : checksumIncrementFull x true packet ≠ 0xffff := by
  have hx := x.toNat_lt
  have hrange := (fullIncrementLoop_spec x.toNat packet (by omega)).1
  have hne : fullIncrementLoop x.toNat packet ≠ 0 := by
    rw [ne_eq, fullIncrementLoop_eq_zero_iff]
    rintro ⟨hzero, hall⟩
    rcases h with hx' | ⟨b, hb, hb'⟩
    · exact hx' (UInt16.toNat_inj.1 hzero)
    · exact hb' (hall b hb)
  have hones : (0xffff : UInt16).toNat = 65535 := rfl
  rw [ne_eq, ← UInt16.toNat_inj, hones]
  show (UInt16.ofNat (65535 - fullIncrementLoop x.toNat packet)).toNat ≠ 65535
  rw [UInt16.toNat_ofNat', Nat.mod_eq_of_lt (by omega)]
  omega

theorem checksumIncrementFull_ne_zero {x : UInt16} {packet : List UInt8}
    (h : x ≠ 0 ∨ ∃ b ∈ packet, b ≠ 0) : checksumIncrementFull x false packet ≠ 0 := by
  have hx := x.toNat_lt
  rw [ne_eq, ← UInt16.toNat_inj]
  show (UInt16.ofNat (fullIncrementLoop x.toNat packet)).toNat ≠ 0
  rw [toNat_fullIncrement (by omega), ne_eq, fullIncrementLoop_eq_zero_iff]
  rintro ⟨hzero, hall⟩
  rcases h with hx' | ⟨b, hb, hb'⟩
  · exact hx' (UInt16.toNat_inj.1 hzero)
  · exact hb' (hall b hb)

/-! ## The pseudo-headers -/

theorem decrementLoop_append (x : ℤ) {bs : List UInt8} (cs : List UInt8)
    (heven : bs.length % 2 = 0) :
    decrementLoop x (bs ++ cs) = decrementLoop (decrementLoop x bs) cs := by
  induction bs using List.twoStepInduction generalizing x with
  | nil => rfl
  | singleton b => simp at heven
  | cons_cons b b' bs ih _ =>
    exact ih _ (by simp only [List.length_cons] at heven; omega)

/-- The borrow turns zero into the other zero. -/
theorem decrementLoop_zeros {x : ℤ} (hx : 0 ≤ x ∧ x ≤ 65535) :
    0 < decrementLoop x [0, 0, 0, 0] ∧ decrementLoop x [0, 0, 0, 0] ≤ 65535 := by
  have hword : ((0 : UInt8).toNat * 256 + (0 : UInt8).toNat : ℕ) = 0 := rfl
  simp only [decrementLoop, hword, Nat.cast_zero, sub_zero]
  rcases eq_or_lt_of_le hx.1 with rfl | hpos
  · decide
  · rw [if_neg (not_le.2 hpos), if_neg (not_le.2 hpos)]
    exact ⟨hpos, hx.2⟩

theorem octets32_eq_zero {v : UInt32} (h : ∀ b ∈ octets32 v, b = 0) : v = 0 := by
  have hoctets : octets32 v = octets32 0 := by
    rw [List.eq_replicate_of_mem h, length_octets32]
    rfl
  rw [← get32_put32_self (p := [0, 0, 0, 0]) (i := 0) (by decide) v]
  show get32 (octets32 v) 0 = 0
  rw [hoctets]
  rfl

/-- **A pseudo-header taken out and another one put in** do not leave zero: the octets of the stack
behind them are the same. -/
theorem pseudoIncrement_ne_zero {scratch : UInt32} {v w x : UInt16} {a b orgA orgB : TupleIp}
    (hw : pseudoDecrement scratch v (some (.ip orgA)) (some (.ip orgB)) = some w)
    (hx : pseudoIncrement scratch w (some (.ip a)) (some (.ip b)) = some x) : x ≠ 0 := by
  have heven : ∀ saddr daddr, (pseudoHdr scratch saddr daddr).length % 2 = 0 := by
    simp [pseudoHdr, length_octets32]
  rw [pseudoIncrement, checksumIncrementFull_eq _ _ (heven _ _), Option.some.injEq] at hx
  rw [← hx]
  refine checksumIncrementFull_ne_zero ?_
  by_cases hscratch : scratch = 0
  · -- the last thing taken out were zeros
    left
    rw [hscratch] at hw
    have hfront : (octets32 orgA.ip ++ octets32 orgB.ip).length % 2 = 0 := by
      simp [length_octets32]
    have hrange := (decrementLoop_spec v.toNat (octets32 orgA.ip ++ octets32 orgB.ip)
      (by have := v.toNat_lt; omega) hfront).1
    have hlast := decrementLoop_zeros hrange
    have hw' : w = UInt16.ofNat (decrementLoop (decrementLoop v.toNat
        (octets32 orgA.ip ++ octets32 orgB.ip)) [0, 0, 0, 0]).toNat := by
      rw [pseudoDecrement, checksumDecrement, if_neg (by simp [pseudoHdr, length_octets32])] at hw
      rw [← Option.some.inj hw, pseudoHdr, decrementLoop_append _ _ hfront]
      rfl
    rw [ne_eq, ← UInt16.toNat_inj, hw', UInt16.toNat_ofNat', Nat.mod_eq_of_lt (by omega),
      UInt16.toNat_zero]
    omega
  · right
    by_contra hall
    push Not at hall
    exact hscratch (octets32_eq_zero fun o ho => hall o (List.mem_append_right _ ho))

section

variable {packet packet' : List UInt8} {off : ℕ} {length : ℤ} {scratch : UInt32}
  {a b orgA orgB : TupleIp} {prvA prvB : TupleUdp} {orgXa orgXb : TupleUdp}

/-- The default build never writes `0xffff` into the field. -/
theorem udpCommit_ne_ones (hlen : ¬ sizeLt length 8) (hcheck : get16 packet (off + 6) ≠ 0)
    (hbuf : off + 8 ≤ packet.length)
    (h : tupleCommit scratch (some (.ip a)) [.udp prvA] ⟨some (.ip b), [.udp prvB]⟩
      ⟨some (.ip orgA), [.udp orgXa]⟩ ⟨some (.ip orgB), [.udp orgXb]⟩ packet off length =
        some (packet', 0)) : get16 packet' (off + 6) ≠ 0xffff := by
  obtain ⟨v, w, x, cs, hv, hw, hx, hcs, -⟩ := @portSums_spec packet packet off scratch
    (get16 packet (off + 6)) prvA.port prvB.port (some (.ip a)) (some (.ip b)) (some (.ip orgA))
    (some (.ip orgB)) (by omega) (by omega)
  have hretest : get16 (put16 (put16 packet off prvA.port) (off + 2) prvB.port) (off + 6) ≠ 0 := by
    rw [get16_put16_of_ne (by simp only [length_put16]; omega) _ (by omega),
      get16_put16_of_ne (by omega) _ (by omega)]
    exact hcheck
  change udpCommit scratch (fun packet _ _ => some (packet, 0)) prvA prvB (some (.ip a))
    (some (.ip b)) (some (.ip orgA)) (some (.ip orgB)) packet off length = some (packet', 0) at h
  simp only [udpCommit, if_neg hlen, if_pos hcheck, hv, hw, Option.bind_some, if_pos hretest, hx,
    hcs, Option.some.injEq, Prod.mk.injEq, and_true] at h
  have heven : (stretch (put16 (put16 packet off prvA.port) (off + 2) prvB.port) off 4).length % 2 =
      0 := by
    rw [length_stretch (by simp only [length_put16]; omega)]
  rw [checksumIncrementFull_eq _ _ heven, Option.some.injEq] at hcs
  rw [← h, get16_put16_self (by simp only [length_put16]; omega), ← hcs]
  exact checksumIncrementFull_ne_ones (Or.inl (pseudoIncrement_ne_zero hw hx))

/-- Neither does the other one. -/
theorem udpCommitFull_ne_ones (hlen : ¬ sizeLt length 8) (hcheck : get16 packet (off + 6) ≠ 0)
    (hbuf : off + 8 ≤ packet.length)
    (h : tupleCommitFull (some (.ip a)) [.udp prvA] ⟨some (.ip b), [.udp prvB]⟩
      ⟨some (.ip orgA), [.udp orgXa]⟩ ⟨some (.ip orgB), [.udp orgXb]⟩ packet off length =
        some (packet', 0)) : get16 packet' (off + 6) ≠ 0xffff := by
  have hretest : get16 (put16 (put16 packet off prvA.port) (off + 2) prvB.port) (off + 6) ≠ 0 := by
    rw [get16_put16_of_ne (by simp only [length_put16]; omega) _ (by omega),
      get16_put16_of_ne (by omega) _ (by omega)]
    exact hcheck
  change udpCommitFull (fun packet _ _ => some (packet, 0)) prvA prvB (some (.ip a))
    (some (.ip b)) packet off length = some (packet', 0) at h
  simp only [udpCommitFull, if_neg hlen, Option.bind_some, if_pos hretest, Option.some.injEq,
    Prod.mk.injEq, and_true] at h
  rw [← h, get16_put16_self (by simp only [length_put16]; omega)]
  -- the protocol number of the pseudo-header
  refine checksumIncrementFull_ne_ones (Or.inl (checksumIncrementFull_ne_zero (Or.inr ?_)))
  exact ⟨17, by simp [pseudoHdrFull, IPPROTO_UDP], by decide⟩

end

/-! ## Which datagrams lose their checksum -/

/-- A checksum that is not `0xffff` is zero just if its residue is. -/
theorem ne_zero_iff_of_ne_ones {cs : UInt16} (h : cs ≠ 0xffff) :
    cs ≠ 0 ↔ (cs.toNat : ZMod 65535) ≠ 0 := by
  have hones : (0xffff : UInt16).toNat = 65535 := rfl
  have hcs := cs.toNat_lt
  rw [ne_eq, ← UInt16.toNat_inj, hones] at h
  rw [ne_eq, ne_eq, not_iff_not, ← UInt16.toNat_inj, UInt16.toNat_zero,
    ZMod.natCast_eq_zero_iff]
  omega

/-- The datagram of the packet `p` and what its addresses and ports are replaced by. -/
structure Replaced where
  p : List UInt8
  a : TupleIp
  b : TupleIp
  ya : TupleUdp
  yb : TupleUdp

namespace Replaced

variable (r : Replaced)

/-- What the new addresses and ports add to the sum is what the old checksum and the old addresses
and ports add to it. -/
def AdjustsToZero : Prop :=
  (get16 r.p (iphPayload r.p 0 + 6)).toNat + ((get16 r.p (iphPayload r.p 0)).toNat +
    (get16 r.p (iphPayload r.p 0 + 2)).toNat + ((iphSaddr r.p 0).toNat + (iphDaddr r.p 0).toNat)) ≡
  r.ya.port.toNat + r.yb.port.toNat + (r.a.ip.toNat + r.b.ip.toNat) [MOD 65535]

/-- The pseudo-header and the datagram, made ready, sum up to a zero. -/
def SumsToZero : Prop :=
  Verifies (pseudoHdrFull r.a.ip r.b.ip IPPROTO_UDP (iphPayloadLen r.p 0) ++
    stretch (cleared r.p (iphPayload r.p 0) (udpFields r.ya.port r.yb.port)) (iphPayload r.p 0)
      (iphPayloadLen r.p 0).toNat)

theorem adjustsToZero_iff : r.AdjustsToZero ↔
    ((get16 r.p (iphPayload r.p 0 + 6)).toNat + ((get16 r.p (iphPayload r.p 0)).toNat +
      (get16 r.p (iphPayload r.p 0 + 2)).toNat +
      ((iphSaddr r.p 0).toNat + (iphDaddr r.p 0).toNat)) : ZMod 65535) =
    r.ya.port.toNat + r.yb.port.toNat + (r.a.ip.toNat + r.b.ip.toNat) := by
  rw [AdjustsToZero, ← ZMod.natCast_eq_natCast_iff]
  push_cast
  rfl

theorem sumsToZero_iff : r.SumsToZero ↔
    onesSum (pseudoHdrFull r.a.ip r.b.ip IPPROTO_UDP (iphPayloadLen r.p 0)) +
      stretchSum (cleared r.p (iphPayload r.p 0) (udpFields r.ya.port r.yb.port))
        (iphPayload r.p 0) (iphPayloadLen r.p 0).toNat = 0 := by
  rw [SumsToZero, Verifies, ← ZMod.natCast_eq_natCast_iff, wordSum_cast,
    onesSum_append (by simp [pseudoHdrFull, length_octets32]), Nat.cast_zero]
  rfl

end Replaced

section

variable {uninit : ℕ → TupleIcmp × TupleIcmp} {r : Replaced} {fuel : ℕ} {length : ℤ}
  {orgA orgB : TupleIp} {xa xb : TupleUdp}

/-- **Checksummed UDP stays checksummed** in the default build unless the changes bring the checksum
to zero, and in the other one unless the new datagram sums up to zero. -/
theorem udpChecksum_ne_zero_iff (scratch : UInt32) (hbuf : length ≤ r.p.length)
    (hfetch : tupleFetch uninit r.p fuel IPPROTO_IP 0 length =
      some (some ([.ip orgA, .udp xa], [.ip orgB, .udp xb])))
    (hihl : 20 ≤ iphIhl r.p 0 * 4) (hpayload : 0 ≤ iphPayloadLen r.p 0)
    (hcheck : get16 r.p (iphPayload r.p 0 + 6) ≠ 0) :
    ∃ p₁ p₂,
      tupleCommit scratch none [.ip r.a, .udp r.ya] ⟨none, [.ip r.b, .udp r.yb]⟩
        ⟨none, [.ip orgA, .udp xa]⟩ ⟨none, [.ip orgB, .udp xb]⟩ r.p 0 length = some (p₁, 0) ∧
      tupleCommitFull none [.ip r.a, .udp r.ya] ⟨none, [.ip r.b, .udp r.yb]⟩
        ⟨none, [.ip orgA, .udp xa]⟩ ⟨none, [.ip orgB, .udp xb]⟩ r.p 0 length = some (p₂, 0) ∧
      (get16 p₁ (iphPayload r.p 0 + 6) ≠ 0 ↔ ¬ r.AdjustsToZero) ∧
      (get16 p₂ (iphPayload r.p 0 + 6) ≠ 0 ↔ ¬ r.SumsToZero) := by
  have hrep : Replacement r.p (iphPayload r.p 0) (iphPayloadLen r.p 0) (.udp xa) (.udp xb)
      (.udp r.ya) (.udp r.yb) (udpFields r.ya.port r.yb.port) := .udp xa xb r.ya r.yb hcheck
  obtain ⟨hsize, cs, cs', p₁, p₂, hcs, hcs', hcast, hcast', h₁, h₂, hget, hget', -⟩ :=
    exists_tupleCommit_builds (a := r.a) (b := r.b) scratch hbuf hfetch hihl hrep rfl hpayload
  obtain ⟨-, -, htot, as, bs, ha, hb, hcases⟩ := tupleFetch_ip hfetch
  cases ha
  cases hb
  obtain ⟨-, fuel', hfetch'⟩ := hcases.resolve_left (by simp)
  have hprotocol : iphProtocol r.p 0 = IPPROTO_UDP := (tupleFetch_protocol hfetch').symm
  have hlen8 : ¬ sizeLt (iphPayloadLen r.p 0) 8 := by
    rw [hprotocol] at hfetch'
    exact (tupleFetch_udp hfetch').1
  have hseg : ((iphPayload r.p 0 : ℕ) : ℤ) + iphPayloadLen r.p 0 = iphTotLen r.p 0 := by
    rw [iphPayload_add_payloadLen, Nat.cast_zero, zero_add]
  have hsize8 : 8 ≤ iphPayloadLen r.p 0 := hsize
  simp only [udpFields, Nat.add_zero] at hcs hcs' hcast hget hget'
  have hwritten : ∀ v, get16 (put16 (put16 (put16 r.p (iphPayload r.p 0) r.ya.port)
      (iphPayload r.p 0 + 2) r.yb.port) (iphPayload r.p 0 + 6) v) (iphPayload r.p 0 + 6) = v :=
    fun v => get16_put16_self (by simp only [length_put16]; omega) v
  have hones : cs ≠ 0xffff := by
    have hne := udpCommit_ne_ones hlen8 hcheck (by omega) hcs
    rwa [hwritten] at hne
  have hones' : cs' ≠ 0xffff := by
    have hne := udpCommitFull_ne_ones hlen8 hcheck (by omega) hcs'
    rwa [hwritten] at hne
  refine ⟨p₁, p₂, h₁, h₂, ?_, ?_⟩
  · rw [hget, ne_zero_iff_of_ne_ones hones, r.adjustsToZero_iff, hcast, ne_eq, sub_eq_zero]
  · rw [hget', ne_zero_iff_of_ne_ones hones', r.sumsToZero_iff, hcast', hprotocol, ne_eq,
      neg_eq_zero]

end

/-- The query of 10.0.0.1 is to leave from another address and port. -/
def queryFrom (ip : UInt32) (port : UInt16) : Replaced :=
  ⟨udpPacket, ⟨ip, 1, 0⟩, ⟨0xc0000201, 1, 0⟩, ⟨port⟩, ⟨53⟩⟩

theorem udpChecksum_ne_zero_iff_query :
    ∃ p₁ p₂,
      tupleCommit 7 none [.ip ⟨0xcb007107, 1, 0⟩, .udp ⟨4660⟩]
        ⟨none, [.ip ⟨0xc0000201, 1, 0⟩, .udp ⟨53⟩]⟩ ⟨none, [.ip ⟨0x0a000001, 1, 0⟩, .udp ⟨4000⟩]⟩
        ⟨none, [.ip ⟨0xc0000201, 1, 0⟩, .udp ⟨53⟩]⟩ udpPacket 0 28 = some (p₁, 0) ∧
      tupleCommitFull none [.ip ⟨0xcb007107, 1, 0⟩, .udp ⟨4660⟩]
        ⟨none, [.ip ⟨0xc0000201, 1, 0⟩, .udp ⟨53⟩]⟩ ⟨none, [.ip ⟨0x0a000001, 1, 0⟩, .udp ⟨4000⟩]⟩
        ⟨none, [.ip ⟨0xc0000201, 1, 0⟩, .udp ⟨53⟩]⟩ udpPacket 0 28 = some (p₂, 0) ∧
      (get16 p₁ (iphPayload udpPacket 0 + 6) ≠ 0 ↔ ¬ (queryFrom 0xcb007107 4660).AdjustsToZero) ∧
      (get16 p₂ (iphPayload udpPacket 0 + 6) ≠ 0 ↔ ¬ (queryFrom 0xcb007107 4660).SumsToZero) :=
  @udpChecksum_ne_zero_iff (fun _ => (⟨0, 0, 0⟩, ⟨0, 0, 0⟩)) (queryFrom 0xcb007107 4660) 2 28
    ⟨0x0a000001, 1, 0⟩ ⟨0xc0000201, 1, 0⟩ ⟨4000⟩ ⟨53⟩ 7 (by decide) (by decide) (by decide)
    (by decide) (by decide)

/-- The same query from another address and port comes with a checksum that is right, and leaves
without one. -/
theorem udpChecksum_zero_query :
    Verifies ((udpFields 4000 53).covered udpPacket (iphPayload udpPacket 0) 8 8) ∧
    get16 udpPacket (iphPayload udpPacket 0 + 6) ≠ 0 ∧
    (tupleCommit 7 none [.ip ⟨0xcb006007, 1, 0⟩, .udp ⟨4768⟩]
        ⟨none, [.ip ⟨0xc0000201, 1, 0⟩, .udp ⟨53⟩]⟩ ⟨none, [.ip ⟨0x0a000001, 1, 0⟩, .udp ⟨4000⟩]⟩
        ⟨none, [.ip ⟨0xc0000201, 1, 0⟩, .udp ⟨53⟩]⟩ udpPacket 0 28).map
      (fun committed => get16 committed.1 (iphPayload udpPacket 0 + 6)) = some 0 ∧
    (tupleCommitFull none [.ip ⟨0xcb006007, 1, 0⟩, .udp ⟨4768⟩]
        ⟨none, [.ip ⟨0xc0000201, 1, 0⟩, .udp ⟨53⟩]⟩ ⟨none, [.ip ⟨0x0a000001, 1, 0⟩, .udp ⟨4000⟩]⟩
        ⟨none, [.ip ⟨0xc0000201, 1, 0⟩, .udp ⟨53⟩]⟩ udpPacket 0 28).map
      (fun committed => get16 committed.1 (iphPayload udpPacket 0 + 6)) = some 0 := by
  decide +kernel

end Sweetspot
