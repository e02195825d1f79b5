import Sweetspot.Tuple.Touched
import Mathlib.Logic.Relation

/-!
# Which packets are parsed within their bounds

A length travels with every header, and the tests of it are against unsigned sizes: a header that
claims to be longer than its packet leaves a negative length, which passes.  Other tests come late
or are missing.

* `Reached`: the headers that `sw_tuple_fetch` comes to.
* `FetchGap`, `CommitGap`: a header of which octets are touched that the buffer does not have, by
  the test that is missing.
* `inside_tupleFetchT_iff`, `inside_tupleCommitT_iff`: there is no other way out of the buffer.
-/

namespace Sweetspot

open Octets

/-! ## Headers that are reached -/

/-- A call of `sw_tuple_fetch`: the protocol, the offset of `packet` in the buffer and the length
that travels with it. -/
structure Header where
  protocol : ℕ
  off : ℕ
  length : ℤ

/-- The message types whose body the ICMP handler takes for an IP packet. -/
def IcmpQuotes (type : UInt8) : Prop :=
  ¬ (type = ICMP_ECHO ∨ type = ICMP_ECHOREPLY) ∧
    ¬ (type = ICMP_TIMESTAMP ∨ type = ICMP_TIMESTAMPREPLY ∨ type = ICMP_REDIRECT) ∧
    type ≠ ICMP_TIME_EXCEEDED

/-- The handler of the first header goes on to the second. -/
inductive Carries (packet : List UInt8) : Header → Header → Prop
  | payload {off : ℕ} {length : ℤ} (hversion : iphVersion packet off = 4) (hlen : 20 ≤ length)
    (htot : iphTotLen packet off ≤ length)
    (hfrag : (iphFragOff packet off).toNat % 0x2000 = 0) :
    Carries packet ⟨IPPROTO_IP, off, length⟩
      ⟨iphProtocol packet off, iphPayload packet off, iphPayloadLen packet off⟩
  | quoted {off : ℕ} {length : ℤ} (hlen : ¬ sizeLt length 8)
    (htype : IcmpQuotes (get8 packet off)) :
    Carries packet ⟨IPPROTO_ICMP, off, length⟩ ⟨IPPROTO_IP, off + 8, length - 8⟩

/-- The headers a fetch of the whole buffer comes to. -/
def Reached (packet : List UInt8) : Header → Prop :=
  Relation.ReflTransGen (Carries packet) ⟨IPPROTO_IP, 0, packet.length⟩

/-- The headers a fetch of the first `length` octets comes to. -/
def ReachedIn (buffer : List UInt8) (length : ℤ) : Header → Prop :=
  Relation.ReflTransGen (Carries buffer) ⟨IPPROTO_IP, 0, length⟩

/-- A header that is read where the buffer does not have it, by the test that is missing: the
version is read before any length is looked at, the total length where the length is negative and
passes for a large one (or is about to be logged), a UDP or ICMP header likewise, and the echo
header that a time exceeded message quotes is not looked for at all. -/
inductive FetchGap (packet : List UInt8) (debug : Bool) : Header → Prop
  | version {off : ℕ} {length : ℤ} (hlen : length ≤ 0) (hbuf : packet.length < off + 1) :
    FetchGap packet debug ⟨IPPROTO_IP, off, length⟩
  | totLen {off : ℕ} {length : ℤ} (hversion : iphVersion packet off = 4)
    (hlen : length < 0 ∨ debug = true ∧ length < 4) (hbuf : packet.length < off + 4) :
    FetchGap packet debug ⟨IPPROTO_IP, off, length⟩
  | udp {off : ℕ} {length : ℤ} (hlen : length < 0) (hbuf : packet.length < off + 4) :
    FetchGap packet debug ⟨IPPROTO_UDP, off, length⟩
  | icmp {off : ℕ} {length : ℤ} (hlen : length < 0) (hbuf : packet.length < off + 1) :
    FetchGap packet debug ⟨IPPROTO_ICMP, off, length⟩
  | echo {off : ℕ} {length : ℤ} (hlen : length < 0)
    (htype : get8 packet off = ICMP_ECHO ∨ get8 packet off = ICMP_ECHOREPLY)
    (hbuf : packet.length < off + 8) : FetchGap packet debug ⟨IPPROTO_ICMP, off, length⟩
  | exceeded {off : ℕ} {length : ℤ} (hlen : length < 0 ∨ 8 ≤ length)
    (htype : get8 packet off = ICMP_TIME_EXCEEDED) (hbuf : packet.length < off + 36) :
    FetchGap packet debug ⟨IPPROTO_ICMP, off, length⟩

/-! ## What the fetch touches -/

/-- The length that travels with a header never says more than there was at first. -/
theorem ReachedIn.bound {p : List UInt8} {length : ℤ} {h : Header}
    (hreach : ReachedIn p length h) : (h.off : ℤ) + h.length ≤ length := by
  induction hreach with
  | refl => simp
  | tail _ hstep ih =>
    cases hstep with
    | payload hversion hlen htot hfrag =>
      simp only [iphPayload, iphPayloadLen] at ih ⊢
      push_cast
      omega
    | quoted hlen htype =>
      simp only at ih ⊢
      push_cast
      omega

theorem Reached.bound {p : List UInt8} {h : Header} (hreach : Reached p h) :
    (h.off : ℤ) + h.length ≤ p.length :=
  ReachedIn.bound hreach

section

variable {p : List UInt8} {debug : Bool} {uninit : ℕ → TupleIcmp × TupleIcmp} {fuel off : ℕ}
  {length : ℤ} {fetch : ℕ → ℕ → ℤ → Traced Fetched}

theorem fetchGap_ip_iff : FetchGap p debug ⟨IPPROTO_IP, off, length⟩ ↔
    (length ≤ 0 ∧ p.length < off + 1) ∨
      (iphVersion p off = 4 ∧ (length < 0 ∨ debug = true ∧ length < 4) ∧
        p.length < off + 4) := by
  constructor
  · intro h
    cases h with
    | version hlen hbuf => exact Or.inl ⟨hlen, hbuf⟩
    | totLen hversion hlen hbuf => exact Or.inr ⟨hversion, hlen, hbuf⟩
  · rintro (⟨hlen, hbuf⟩ | ⟨hversion, hlen, hbuf⟩)
    · exact .version hlen hbuf
    · exact .totLen hversion hlen hbuf

theorem fetchGap_udp_iff : FetchGap p debug ⟨IPPROTO_UDP, off, length⟩ ↔
    length < 0 ∧ p.length < off + 4 := by
  constructor
  · intro h
    cases h with
    | udp hlen hbuf => exact ⟨hlen, hbuf⟩
  · exact fun ⟨hlen, hbuf⟩ => .udp hlen hbuf

theorem fetchGap_icmp_iff : FetchGap p debug ⟨IPPROTO_ICMP, off, length⟩ ↔
    (length < 0 ∧ p.length < off + 1) ∨
      (length < 0 ∧ (get8 p off = ICMP_ECHO ∨ get8 p off = ICMP_ECHOREPLY) ∧
        p.length < off + 8) ∨
      ((length < 0 ∨ 8 ≤ length) ∧ get8 p off = ICMP_TIME_EXCEEDED ∧ p.length < off + 36) := by
  constructor
  · intro h
    cases h with
    | icmp hlen hbuf => exact Or.inl ⟨hlen, hbuf⟩
    | echo hlen htype hbuf => exact Or.inr (Or.inl ⟨hlen, htype, hbuf⟩)
    | exceeded hlen htype hbuf => exact Or.inr (Or.inr ⟨hlen, htype, hbuf⟩)
  · rintro (⟨hlen, hbuf⟩ | ⟨hlen, htype, hbuf⟩ | ⟨hlen, htype, hbuf⟩)
    · exact .icmp hlen hbuf
    · exact .echo hlen htype hbuf
    · exact .exceeded hlen htype hbuf

theorem forall_carries_ip {P : Header → Prop} :
    (∀ h, Carries p ⟨IPPROTO_IP, off, length⟩ h → P h) ↔
      (iphVersion p off = 4 → 20 ≤ length → (iphTotLen p off : ℤ) ≤ length →
        (iphFragOff p off).toNat % 0x2000 = 0 →
        P ⟨iphProtocol p off, iphPayload p off, iphPayloadLen p off⟩) := by
  constructor
  · exact fun hall hversion hlen htot hfrag => hall _ (.payload hversion hlen htot hfrag)
  · intro hnext h hstep
    cases hstep with
    | payload hversion hlen htot hfrag => exact hnext hversion hlen htot hfrag

theorem forall_carries_icmp {P : Header → Prop} :
    (∀ h, Carries p ⟨IPPROTO_ICMP, off, length⟩ h → P h) ↔
      (¬ sizeLt length 8 → IcmpQuotes (get8 p off) → P ⟨IPPROTO_IP, off + 8, length - 8⟩) := by
  constructor
  · exact fun hall hlen htype => hall _ (.quoted hlen htype)
  · intro hnext h hstep
    cases hstep with
    | quoted hlen htype => exact hnext hlen htype

/-- **What the IP handler touches** is in the buffer unless the header is a gap, and then goes on
with what the header carries. -/
theorem inside_ipFetchT (hbound : off + length ≤ p.length) :
    (ipFetchT debug fetch p off length).Inside p.length ↔
      ¬ FetchGap p debug ⟨IPPROTO_IP, off, length⟩ ∧
        ∀ h', Carries p ⟨IPPROTO_IP, off, length⟩ h' →
          (fetch h'.protocol h'.off h'.length).Inside p.length := by
  rw [fetchGap_ip_iff, forall_carries_ip]
  simp only [ipFetchT, Traced.inside_ite, Traced.inside_bind, Traced.inside_read8,
    Traced.inside_read16, Traced.inside_read32, Traced.inside_touch, Traced.inside_pure, and_true,
    implies_true, true_and, ne_eq, not_not]
  simp only [iphVersion, iphTotLen, iphFragOff, iphProtocol, sizeLt]
  generalize (fetch (get8 p (off + 9)).toNat (iphPayload p off) (iphPayloadLen p off)).Inside
    p.length = inner
  by_cases hversion : (get8 p off).toNat / 16 = 4
  · by_cases hlen : 20 ≤ length
    · grind
    · grind
  · grind

theorem inside_tcpFetchT (hbound : off + length ≤ p.length) :
    (tcpFetchT p off length).Inside p.length := by
  simp only [tcpFetchT, Traced.inside_ite, Traced.inside_bind, Traced.inside_read16,
    Traced.inside_touch, Traced.inside_pure, and_true, implies_true, true_and]
  intro hlen
  push Not at hlen
  omega

theorem inside_udpFetchT (hbound : off + length ≤ p.length) :
    (udpFetchT p off length).Inside p.length ↔ ¬ FetchGap p debug ⟨IPPROTO_UDP, off, length⟩ := by
  rw [fetchGap_udp_iff]
  simp only [udpFetchT, Traced.inside_ite, Traced.inside_bind, Traced.inside_read16,
    Traced.inside_pure, and_true, implies_true, true_and]
  simp only [sizeLt]
  omega

/-- **What the ICMP handler touches.** -/
theorem inside_icmpFetchT (hbound : off + length ≤ p.length) :
    (icmpFetchT uninit fetch p off length).Inside p.length ↔
      ¬ FetchGap p debug ⟨IPPROTO_ICMP, off, length⟩ ∧
        ∀ h', Carries p ⟨IPPROTO_ICMP, off, length⟩ h' →
          (fetch h'.protocol h'.off h'.length).Inside p.length := by
  rw [fetchGap_icmp_iff, forall_carries_icmp]
  simp only [icmpFetchT, Traced.inside_ite, Traced.inside_bind, Traced.inside_read8,
    Traced.inside_read16, Traced.inside_pure, and_true, implies_true, true_and]
  simp only [IcmpQuotes, sizeLt]
  generalize (fetch IPPROTO_IP (off + 8) (length - 8)).Inside p.length = inner
  generalize get8 p off = type
  grind [ICMP_ECHO, ICMP_ECHOREPLY, ICMP_TIMESTAMP, ICMP_TIMESTAMPREPLY, ICMP_REDIRECT,
    ICMP_TIME_EXCEEDED]

/-- One call of `sw_tuple_fetch`, and the calls it makes. -/
theorem inside_tupleFetchT_succ {h : Header} (hbound : h.off + h.length ≤ p.length) :
    (tupleFetchT debug uninit p (fuel + 1) h.protocol h.off h.length).Inside p.length ↔
      ¬ FetchGap p debug h ∧ ∀ h', Carries p h h' →
        (tupleFetchT debug uninit p fuel h'.protocol h'.off h'.length).Inside p.length := by
  obtain ⟨protocol, off, length⟩ := h
  by_cases hip : protocol = IPPROTO_IP
  · subst hip
    exact inside_ipFetchT hbound
  by_cases hicmp : protocol = IPPROTO_ICMP
  · subst hicmp
    exact inside_icmpFetchT hbound
  -- the other handlers call nobody
  have hnext : ∀ h', ¬ Carries p ⟨protocol, off, length⟩ h' := by
    intro h' hstep
    cases hstep with
    | payload => exact hip rfl
    | quoted => exact hicmp rfl
  simp only [hnext, false_imp_iff, implies_true, and_true]
  by_cases htcp : protocol = IPPROTO_TCP
  · subst htcp
    refine iff_of_true (inside_tcpFetchT hbound) ?_
    intro hgap
    cases hgap
  by_cases hudp : protocol = IPPROTO_UDP
  · subst hudp
    exact inside_udpFetchT hbound
  refine iff_of_true ?_ ?_
  · simp only [tupleFetchT, if_neg hip, if_neg htcp, if_neg hudp, if_neg hicmp, Traced.inside_pure]
  · intro hgap
    cases hgap with
    | version => exact hip rfl
    | totLen => exact hip rfl
    | udp => exact hudp rfl
    | icmp => exact hicmp rfl
    | echo => exact hicmp rfl
    | exceeded => exact hicmp rfl

/-- **What a fetch touches**, however far it runs, is in the buffer exactly if no header it comes to
is a gap. -/
theorem inside_tupleFetchT_iff :
    (∀ fuel, (tupleFetchT debug uninit p fuel IPPROTO_IP 0 p.length).Inside p.length) ↔
      ∀ h, Reached p h → ¬ FetchGap p debug h := by
  constructor
  · intro hinside h hreach
    have hall : ∀ fuel,
        (tupleFetchT debug uninit p fuel h.protocol h.off h.length).Inside p.length := by
      induction hreach with
      | refl => exact hinside
      | tail hreach hstep ih =>
        intro fuel
        exact ((inside_tupleFetchT_succ (Reached.bound hreach)).mp (ih (fuel + 1))).2 _ hstep
    exact ((inside_tupleFetchT_succ hreach.bound).mp (hall 1)).1
  · intro hgap fuel
    have hall : ∀ fuel h, Reached p h →
        (tupleFetchT debug uninit p fuel h.protocol h.off h.length).Inside p.length := by
      intro fuel
      induction fuel with
      | zero => exact fun _ _ => (Traced.inside_pure _).mpr trivial
      | succ fuel ih =>
        intro h hreach
        refine (inside_tupleFetchT_succ hreach.bound).mpr ⟨hgap h hreach, fun h' hstep => ?_⟩
        exact ih h' (hreach.tail hstep)
    exact hall fuel ⟨IPPROTO_IP, 0, p.length⟩ Relation.ReflTransGen.refl

end

/-! ## What the commit touches -/

/-- Two chains of one shape: the protocols agree. -/
def SameProtocols (a b : Chain) : Prop := List.Forall₂ (fun x y => x.protocol = y.protocol) a b

/-- A node that is committed where the buffer does not have its header: a UDP or an ICMP header with
a negative length, and the octets a time exceeded message is taken to quote. -/
inductive CommitGap (packet : List UInt8) : Chain → ℕ → ℤ → Prop
  | udp {prv : TupleUdp} {as : Chain} {off : ℕ} {length : ℤ} (hlen : length < 0)
    (hbuf : packet.length < off + 8) : CommitGap packet (.udp prv :: as) off length
  | icmp {prv : TupleIcmp} {as : Chain} {off : ℕ} {length : ℤ} (hlen : length < 0)
    (htype : prv.type ≠ ICMP_TIME_EXCEEDED) (hbuf : packet.length < off + 8) :
    CommitGap packet (.icmp prv :: as) off length
  | exceeded {prv : TupleIcmp} {as : Chain} {off : ℕ} {length : ℤ}
    (hlen : length < 0 ∨ 8 ≤ length) (htype : prv.type = ICMP_TIME_EXCEEDED)
    (hbuf : packet.length < off + 36) : CommitGap packet (.icmp prv :: as) off length
  | payload {prv : TupleIp} {as : Chain} {off : ℕ} {length : ℤ}
    (h : CommitGap packet as (iphPayload packet off) (iphPayloadLen packet off)) :
    CommitGap packet (.ip prv :: as) off length
  | quoted {prv : TupleIcmp} {as : Chain} {off : ℕ} {length : ℤ} (hstop : ¬ IcmpStops prv.type)
    (h : CommitGap packet as (off + 8) (length - 8)) :
    CommitGap packet (.icmp prv :: as) off length

section

variable {p : List UInt8} {scratch : UInt32} {nested : NestedCommitT} {off : ℕ} {length : ℤ}
  {prevA prevB prevOrgA prevOrgB : Option TupleNode}

/-- **The IP handler** touches its own header and what the nested commit touches. -/
theorem inside_ipCommitT {prvA prvB : TupleIp} (hlen : 20 ≤ length)
    (htot : (iphTotLen p off : ℤ) ≤ length) (hbound : off + length ≤ p.length) :
    (ipCommitT nested prvA prvB p off length).Inside p.length ↔
      (nested p (iphPayload p off) (iphPayloadLen p off)).Inside p.length := by
  have hlen' : ¬ sizeLt length 20 := not_sizeLt_of_le hlen
  have htot' : ¬ length < (get16 p (off + 2)).toNat := not_lt.mpr htot
  obtain ⟨v, hv, -⟩ :=
    @checksumDecrement_stretch (get16 p (off + 10)) p (off + 12) 8 (by omega) rfl
  simp only [ipCommitT, if_neg hlen', Traced.inside_bind, Traced.inside_read16, if_neg htot',
    Traced.inside_readStretch, hv, Traced.inside_touch]
  constructor
  · exact fun h => h.2.2.2.2.1
  · intro hnested
    refine ⟨by omega, by omega, by omega, by omega, hnested, ?_⟩
    rcases (nested p (iphPayload p off) (iphPayloadLen p off)).value with _ | ⟨q, rc⟩
    · exact (Traced.inside_pure _).mpr trivial
    simp only [Traced.inside_bind, Traced.inside_write32, Traced.inside_readStretch]
    refine ⟨by omega, by omega, by omega, ?_⟩
    split
    · exact (Traced.inside_pure _).mpr trivial
    · simp only [Traced.inside_bind, Traced.inside_write16, Traced.inside_pure, and_true]
      omega

/-- **The TCP handler**, at the end of the chains, touches its own header, all of which has been
tested for. -/
theorem inside_tcpCommitT {prvA prvB : TupleTcp} (hlen : 20 ≤ length)
    (hbound : off + length ≤ p.length) :
    (tcpCommitT scratch (fun packet _ _ => pure (some (packet, 0))) prvA prvB prevA prevB prevOrgA
      prevOrgB p off length).Inside p.length := by
  simp only [tcpCommitT, Traced.inside_bind, Traced.inside_touch, Traced.inside_ite,
    Traced.inside_pure, Traced.inside_read16, Traced.inside_readStretch, implies_true, true_and]
  refine ⟨by omega, fun _ => ⟨by omega, by omega, ?_⟩⟩
  split
  · exact (Traced.inside_pure _).mpr trivial
  split
  · exact (Traced.inside_pure _).mpr trivial
  simp only [Traced.inside_bind, Traced.inside_pure, Traced.value_pure, Traced.inside_write16,
    true_and]
  refine ⟨by omega, by omega, ?_⟩
  split
  · exact (Traced.inside_pure _).mpr trivial
  simp only [Traced.inside_bind, Traced.inside_readStretch]
  refine ⟨by omega, ?_⟩
  split
  · exact (Traced.inside_pure _).mpr trivial
  · simp only [Traced.inside_bind, Traced.inside_write16, Traced.inside_pure, and_true]
    omega

/-- **The UDP handler**, at the end of the chains, touches all of its header. -/
theorem inside_udpCommitT {prvA prvB : TupleUdp} (hlen : ¬ sizeLt length 8) :
    (udpCommitT scratch (fun packet _ _ => pure (some (packet, 0))) prvA prvB prevA prevB prevOrgA
      prevOrgB p off length).Inside p.length ↔ off + 8 ≤ p.length := by
  simp only [udpCommitT, if_neg hlen, Traced.inside_bind, udpTakeOutT, Traced.inside_read16,
    Traced.inside_ite, Traced.inside_readStretch, Traced.inside_pure, and_true, implies_true]
  constructor
  · exact fun h => by omega
  · intro hbuf
    refine ⟨⟨by omega, fun _ => by omega⟩, ?_⟩
    split
    · exact (Traced.inside_pure _).mpr trivial
    simp only [Traced.inside_bind, Traced.inside_pure, Traced.value_pure, Traced.inside_write16,
      Traced.inside_read16, Traced.inside_ite, Traced.inside_readStretch, true_and, implies_true,
      and_true]
    refine ⟨by omega, by omega, by omega, fun _ => ⟨by omega, ?_⟩⟩
    split
    · exact (Traced.inside_pure _).mpr trivial
    · simp only [Traced.inside_bind, Traced.inside_write16, Traced.inside_pure, and_true]
      omega

theorem inside_icmpTakeOutT {type : UInt8} :
    (icmpTakeOutT type p off).Inside p.length ↔
      (type ≠ ICMP_TIME_EXCEEDED → off + 8 ≤ p.length) := by
  simp only [icmpTakeOutT, Traced.inside_ite, Traced.inside_bind, Traced.inside_read16,
    Traced.inside_readStretch, Traced.inside_pure, and_true, implies_true]
  constructor
  · exact fun h htype => by
      have := h htype
      omega
  · exact fun h htype => by
      have := h htype
      omega

theorem inside_echoWritesT {prvA prvB : TupleIcmp} {q : List UInt8} {n : ℕ} (hbuf : off + 8 ≤ n) :
    (echoWritesT prvA prvB q off).Inside n := by
  simp only [echoWritesT, preferAlternativeT, Traced.inside_ite, Traced.inside_bind,
    Traced.inside_read16, Traced.inside_write16, Traced.inside_pure, implies_true, and_true]
  omega

/-- **The ICMP handler** touches its header, what the nested commit touches unless it stops before
that, and for a time exceeded message the header behind the quoted one. -/
theorem inside_icmpCommitT {prvA prvB : TupleIcmp} {prv2A prv2B : TupleIp}
    (hlen : ¬ sizeLt length 8)
    (hnested : ∃ r, (nested p (off + 8) (length - 8)).value = some r) :
    (icmpCommitT nested prvA prvB (some (.ip prv2A)) (some (.ip prv2B)) p off length).Inside
        p.length ↔
      (prvA.type ≠ ICMP_TIME_EXCEEDED → off + 8 ≤ p.length) ∧
        (prvA.type = ICMP_TIME_EXCEEDED → off + 36 ≤ p.length) ∧
        (¬ IcmpStops prvA.type → (nested p (off + 8) (length - 8)).Inside p.length) := by
  obtain ⟨⟨q, rc⟩, hr⟩ := hnested
  simp only [icmpCommitT, if_neg hlen, Traced.inside_bind, inside_icmpTakeOutT]
  refine and_congr_right fun hheader => ?_
  -- the four octets behind the checksum are there, so taking them out succeeds
  obtain ⟨cs, hcs⟩ : ∃ cs, (icmpTakeOutT prvA.type p off).value = some cs := by
    simp only [icmpTakeOutT, Traced.value_ite, Traced.value_bind, Traced.value_pure]
    by_cases htype : prvA.type = ICMP_TIME_EXCEEDED
    · exact ⟨0, by rw [if_neg (not_not.mpr htype)]⟩
    · have hbuf := hheader htype
      obtain ⟨v, hv, -⟩ :=
        @checksumDecrement_stretch (get16 p (off + 2)) p (off + 4) 4 (by omega) rfl
      exact ⟨v, by rw [if_pos htype, hv]⟩
  rw [hcs]
  simp only
  by_cases hstop : IcmpStops prvA.type
  · have hexceeded : prvA.type ≠ ICMP_TIME_EXCEEDED := by
      rcases hstop with h | h | h <;> rw [h] <;> decide
    rw [if_pos (show prvA.type = ICMP_TIMESTAMP ∨ prvA.type = ICMP_TIMESTAMPREPLY ∨
      prvA.type = ICMP_REDIRECT from hstop)]
    simp [hstop, hexceeded]
  rw [if_neg (show ¬ (prvA.type = ICMP_TIMESTAMP ∨ prvA.type = ICMP_TIMESTAMPREPLY ∨
    prvA.type = ICMP_REDIRECT) from hstop)]
  simp only [Traced.inside_bind, hr, hstop, not_false_eq_true, true_imp_iff]
  rw [and_comm]
  refine and_congr_left fun _ => ?_
  by_cases htype : prvA.type = ICMP_TIME_EXCEEDED
  · rw [if_pos htype]
    simp only [Traced.inside_bind, Traced.inside_read16, Traced.inside_readStretch, htype,
      true_imp_iff]
    constructor
    · exact fun h => by omega
    · intro hbuf
      refine ⟨by omega, by omega, ?_⟩
      split
      · exact (Traced.inside_pure _).mpr trivial
      simp only [Traced.inside_bind, Traced.inside_write32, preferAlternativeT,
        Traced.inside_read16, Traced.inside_write16, Traced.inside_readStretch]
      refine ⟨by omega, ⟨by omega, by omega⟩, ⟨by omega, by omega⟩, by omega, ?_⟩
      split
      · exact (Traced.inside_pure _).mpr trivial
      · simp only [Traced.inside_bind, Traced.inside_write16, Traced.inside_pure, and_true]
        omega
  · have hbuf := hheader htype
    rw [if_neg htype]
    simp only [Traced.inside_bind, Traced.inside_readStretch, htype, false_imp_iff, iff_true]
    refine ⟨inside_echoWritesT hbuf, by omega, ?_⟩
    split
    · exact (Traced.inside_pure _).mpr trivial
    · simp only [Traced.inside_bind, Traced.inside_write16, Traced.inside_pure, and_true]
      omega

end

/-! ## The whole commit -/

section

variable {p : List UInt8} {nested : NestedCommit} {off : ℕ} {length : ℤ}

/-- A handler returns if the nested commit does. -/
theorem ipCommit_isSome {prvA prvB : TupleIp}
    (h : ∃ r, nested p (iphPayload p off) (iphPayloadLen p off) = some r) :
    ∃ r, ipCommit nested prvA prvB p off length = some r := by
  obtain ⟨r, hr⟩ := h
  rw [ipCommit, ipCommitWith, hr]
  split
  · exact ⟨_, rfl⟩
  split
  · exact ⟨_, rfl⟩
  simp only [Option.bind_some]
  split <;> exact ⟨_, rfl⟩

theorem tcpCommit_isSome {scratch : UInt32} {prvA prvB : TupleTcp}
    {prevA prevB prevOrgA prevOrgB : Option TupleNode} :
    ∃ r, tcpCommit scratch (fun packet _ _ => some (packet, 0)) prvA prvB prevA prevB prevOrgA
      prevOrgB p off length = some r := by
  simp only [tcpCommit, Option.bind_some]
  split
  · exact ⟨_, rfl⟩
  split
  · exact ⟨_, rfl⟩
  split
  · exact ⟨_, rfl⟩
  split
  · exact ⟨_, rfl⟩
  split <;> exact ⟨_, rfl⟩

theorem udpCommit_isSome {scratch : UInt32} {prvA prvB : TupleUdp}
    {prevA prevB prevOrgA prevOrgB : Option TupleNode} :
    ∃ r, udpCommit scratch (fun packet _ _ => some (packet, 0)) prvA prvB prevA prevB prevOrgA
      prevOrgB p off length = some r := by
  simp only [udpCommit, Option.bind_some]
  split
  · exact ⟨_, rfl⟩
  split
  · exact ⟨_, rfl⟩
  split
  · split <;> exact ⟨_, rfl⟩
  · exact ⟨_, rfl⟩

theorem icmpCommit_isSome {prvA prvB : TupleIcmp} {prv2A prv2B : TupleIp}
    (h : ∃ r, nested p (off + 8) (length - 8) = some r) :
    ∃ r, icmpCommit nested prvA prvB (some (.ip prv2A)) (some (.ip prv2B)) p off length =
      some r := by
  obtain ⟨r, hr⟩ := h
  simp only [icmpCommit, icmpCommitWith, hr, Option.bind_some]
  split
  · exact ⟨_, rfl⟩
  split
  · exact ⟨_, rfl⟩
  split
  · exact ⟨_, rfl⟩
  split
  · split
    · exact ⟨_, rfl⟩
    · split <;> exact ⟨_, rfl⟩
  · split <;> exact ⟨_, rfl⟩

end

/-- What is shown of a commit of the chain `as`: it returns, and it stays in the buffer exactly if
no node is a gap. -/
structure CommitInside (p : List UInt8) (x : Traced Committed) (as : Chain) (off : ℕ) (length : ℤ) :
    Prop where
  returns : ∃ r, x.value = some r
  inside_iff : x.Inside p.length ↔ ¬ CommitGap p as off length

namespace CommitInside

variable {p : List UInt8} {scratch : UInt32} {nested : NestedCommitT} {as : Chain} {off : ℕ}
  {length : ℤ} {prevA prevB prevOrgA prevOrgB : Option TupleNode}

theorem nil : CommitInside p (pure (some (p, 0))) [] off length := by
  refine ⟨⟨_, rfl⟩, iff_of_true ((Traced.inside_pure _).mpr trivial) ?_⟩
  intro hgap
  cases hgap

theorem ip {prvA prvB : TupleIp} (hlen : 20 ≤ length) (htot : (iphTotLen p off : ℤ) ≤ length)
    (hbound : off + length ≤ p.length)
    (h : CommitInside p (nested p (iphPayload p off) (iphPayloadLen p off)) as (iphPayload p off)
      (iphPayloadLen p off)) :
    CommitInside p (ipCommitT nested prvA prvB p off length) (.ip prvA :: as) off length := by
  constructor
  · rw [value_ipCommitT]
    exact ipCommit_isSome h.returns
  · rw [inside_ipCommitT hlen htot hbound, h.inside_iff]
    refine not_congr ⟨fun hgap => .payload hgap, fun hgap => ?_⟩
    cases hgap with
    | payload hgap => exact hgap

theorem tcp {prvA prvB : TupleTcp} (hlen : 20 ≤ length) (hbound : off + length ≤ p.length) :
    CommitInside p (tcpCommitT scratch (fun packet _ _ => pure (some (packet, 0))) prvA prvB prevA
      prevB prevOrgA prevOrgB p off length) [.tcp prvA] off length := by
  constructor
  · rw [value_tcpCommitT]
    exact tcpCommit_isSome
  · refine iff_of_true (inside_tcpCommitT hlen hbound) ?_
    intro hgap
    cases hgap

theorem udp {prvA prvB : TupleUdp} (hlen : ¬ sizeLt length 8) (hbound : off + length ≤ p.length) :
    CommitInside p (udpCommitT scratch (fun packet _ _ => pure (some (packet, 0))) prvA prvB prevA
      prevB prevOrgA prevOrgB p off length) [.udp prvA] off length := by
  constructor
  · rw [value_udpCommitT]
    exact udpCommit_isSome
  · refine (inside_udpCommitT hlen).trans ⟨fun hbuf hgap => ?_, fun hgap => ?_⟩
    · cases hgap with
      | udp hneg hgap => omega
    · by_contra hbuf
      refine hgap (.udp ?_ (by omega))
      by_contra hneg
      exact hlen ⟨by omega, by omega⟩

theorem icmp {prvA prvB : TupleIcmp} {prv2A prv2B : TupleIp} (hlen : ¬ sizeLt length 8)
    (hbound : off + length ≤ p.length)
    (h : CommitInside p (nested p (off + 8) (length - 8)) as (off + 8) (length - 8)) :
    CommitInside p (icmpCommitT nested prvA prvB (some (.ip prv2A)) (some (.ip prv2B)) p off length)
      (.icmp prvA :: as) off length := by
  constructor
  · rw [value_icmpCommitT]
    exact icmpCommit_isSome h.returns
  · rw [inside_icmpCommitT hlen h.returns, h.inside_iff]
    have hlen' : length < 0 ∨ 8 ≤ length := by
      by_contra h
      exact hlen ⟨by omega, by omega⟩
    constructor
    · rintro ⟨hheader, hexceeded, hnested⟩ hgap
      cases hgap with
      | icmp hneg htype hbuf =>
        have := hheader htype
        omega
      | exceeded _ htype hbuf =>
        have := hexceeded htype
        omega
      | quoted hstop hgap => exact hnested hstop hgap
    · intro hgap
      refine ⟨fun htype => ?_, fun htype => ?_, fun hstop h => hgap (.quoted hstop h)⟩
      · by_contra hbuf
        refine hgap (.icmp ?_ htype (by omega))
        omega
      · by_contra hbuf
        exact hgap (.exceeded hlen' htype (by omega))

end CommitInside

section

variable {uninit : ℕ → TupleIcmp × TupleIcmp} {p : List UInt8} {scratch : UInt32}

/-- **What a commit touches**: chains of the shape of the fetched ones are committed within the
buffer exactly if no node is a gap. -/
theorem inside_tupleCommitT {as bs xs ys : Chain} {prevA prevB : Option TupleNode}
    {orgA orgB : TuplePtr} {fuel protocol off : ℕ} {length : ℤ}
    (hfetch : tupleFetch uninit p fuel protocol off length = some (some (xs, ys)))
    (ha : SameProtocols xs as) (hb : SameProtocols ys bs) (hbound : off + length ≤ p.length)
    (hprev : protocol = IPPROTO_ICMP → ∃ a b, prevA = some (.ip a) ∧ prevB = some (.ip b)) :
    CommitInside p (tupleCommitT scratch prevA as ⟨prevB, bs⟩ orgA orgB p off length) as off
      length := by
  induction as generalizing bs xs ys prevA prevB orgA orgB fuel protocol off length with
  | nil => exact .nil
  | cons x as ih =>
    cases ha with
    | @cons x' _ xs' _ hx ha =>
    have hprotocol := (tupleFetch_protocol hfetch).symm.trans hx
    subst hprotocol
    cases x with
    | ip prvA =>
      obtain ⟨-, hlen, htot, xs'', ys', hxs, rfl, hcases⟩ := tupleFetch_ip hfetch
      cases hxs
      cases hb with
      | @cons _ y _ bs hy hb =>
      cases y <;> cases hy
      rename_i prvB
      have hlen20 : 20 ≤ length := le_of_not_sizeLt hlen (le_trans (by omega) htot)
      refine CommitInside.ip hlen20 htot hbound ?_
      rcases hcases with ⟨-, rfl, -⟩ | ⟨-, fuel', hfetch'⟩
      · -- nothing is fetched behind a later fragment
        cases ha
        exact .nil
      · refine ih hfetch' ha hb ?_ (fun _ => ⟨prvA, prvB, rfl, rfl⟩)
        simp only [iphPayload, iphPayloadLen]
        push_cast
        omega
    | tcp prvA =>
      obtain ⟨hlen, hxs, rfl⟩ := tupleFetch_tcp hfetch
      cases hxs
      cases ha
      cases hb with
      | @cons _ y _ bs hy hb =>
      cases hb
      cases y <;> cases hy
      exact .tcp hlen hbound
    | udp prvA =>
      obtain ⟨hlen, hxs, rfl⟩ := tupleFetch_udp hfetch
      cases hxs
      cases ha
      cases hb with
      | @cons _ y _ bs hy hb =>
      cases hb
      cases y <;> cases hy
      exact .udp hlen hbound
    | icmp prvA =>
      obtain ⟨a, b, rfl, rfl⟩ := hprev rfl
      obtain ⟨hlen, xa, xb, xs'', ys', hxs, rfl, -⟩ := tupleFetch_icmp hfetch
      cases hxs
      cases hb with
      | @cons _ y _ bs hy hb =>
      cases y <;> cases hy
      refine @CommitInside.icmp p _ as off length prvA _ a b hlen hbound ?_
      by_cases has : xs' = []
      · subst has
        cases ha
        exact .nil
      · obtain ⟨fuel', hfetch'⟩ := tupleFetch_icmp_next hfetch has
        exact ih hfetch' ha hb (by push_cast; omega) (fun h => by cases h)

end

/-- **Parsing stays inside the packet**, and so does the commit that follows, if and only if no
header the fetch comes to is a gap and, where the fetch returns chains of this shape, no node of the
replacement is one. -/
theorem packet_inside_iff (debug : Bool) (uninit : ℕ → TupleIcmp × TupleIcmp) (scratch : UInt32)
    (p : List UInt8) (a b : Chain) :
    ((∀ fuel, (tupleFetchT debug uninit p fuel IPPROTO_IP 0 p.length).Inside p.length) ∧
      ∀ fuel orgA orgB,
        tupleFetch uninit p fuel IPPROTO_IP 0 p.length = some (some (orgA, orgB)) →
        SameProtocols orgA a → SameProtocols orgB b →
        (tupleCommitT scratch none a ⟨none, b⟩ ⟨none, orgA⟩ ⟨none, orgB⟩ p 0 p.length).Inside
          p.length) ↔
    (∀ h, Reached p h → ¬ FetchGap p debug h) ∧
      ∀ fuel orgA orgB,
        tupleFetch uninit p fuel IPPROTO_IP 0 p.length = some (some (orgA, orgB)) →
        SameProtocols orgA a → SameProtocols orgB b → ¬ CommitGap p a 0 p.length := by
  have hcommit : ∀ {fuel orgA orgB},
      tupleFetch uninit p fuel IPPROTO_IP 0 p.length = some (some (orgA, orgB)) →
      SameProtocols orgA a → SameProtocols orgB b →
      ((tupleCommitT scratch none a ⟨none, b⟩ ⟨none, orgA⟩ ⟨none, orgB⟩ p 0 p.length).Inside
        p.length ↔ ¬ CommitGap p a 0 p.length) :=
    fun hfetch ha hb =>
      (inside_tupleCommitT hfetch ha hb (by simp) (fun h => by cases h)).inside_iff
  refine and_congr inside_tupleFetchT_iff ?_
  constructor
  · intro h fuel orgA orgB hfetch ha hb
    exact (hcommit hfetch ha hb).mp (h fuel orgA orgB hfetch ha hb)
  · intro h fuel orgA orgB hfetch ha hb
    exact (hcommit hfetch ha hb).mpr (h fuel orgA orgB hfetch ha hb)

/-- Twenty octets that claim a header of sixty, with UDP behind it. -/
def longHeaderPacket : List UInt8 :=
  [0x4f, 0, 0, 20, 0, 1, 0, 0, 64, 17, 0xa4, 0xd6, 10, 0, 0, 1, 192, 0, 2, 1]

/-- Parsing does not always stay inside the packet: here the ports are read at offset 60. -/
theorem packet_inside_longHeaderPacket :
    ¬ ∀ (debug : Bool) (uninit : ℕ → TupleIcmp × TupleIcmp) (scratch : UInt32) (p : List UInt8)
      (a b : Chain), 1 ≤ p.length →
      (∀ fuel, (tupleFetchT debug uninit p fuel IPPROTO_IP 0 p.length).Inside p.length) ∧
        ∀ fuel orgA orgB,
          tupleFetch uninit p fuel IPPROTO_IP 0 p.length = some (some (orgA, orgB)) →
          SameProtocols orgA a → SameProtocols orgB b →
          (tupleCommitT scratch none a ⟨none, b⟩ ⟨none, orgA⟩ ⟨none, orgB⟩ p 0 p.length).Inside
            p.length := by
  intro h
  have hinside := (h false (fun _ => (⟨0, 0, 0⟩, ⟨0, 0, 0⟩)) 0 longHeaderPacket [] []
    (by decide)).1 2
  have hread : (60, 2) ∈ (tupleFetchT false (fun _ => (⟨0, 0, 0⟩, ⟨0, 0, 0⟩)) longHeaderPacket 2
      IPPROTO_IP 0 longHeaderPacket.length).touched := by
    decide
  exact absurd (hinside _ hread) (by decide)

end Sweetspot
