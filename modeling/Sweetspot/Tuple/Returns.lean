import Sweetspot.Lib.Fuel
import Sweetspot.Tuple.Bounds

/-!
# Which packets are parsed at all

A handler goes on to the header behind its own, at a higher offset, or for an IP header without a
length at the same one.

* `SelfCarried`: a header is its own payload.
* `tupleFetch_returns_iff`: the fetch does not return for those packets, and for all others it does.
* `tupleCommit_isSome`: the commit of chains that were fetched always does, and
  `length_tupleCommit`: it keeps the length of the packet.
-/

namespace Sweetspot

open Octets

/-- The fetch comes to an IP header that says it is no octets long and carries IP, and goes on to
the very same header. -/
def SelfCarried (buffer : List UInt8) (length : ℤ) : Prop :=
  ∃ h, ReachedIn buffer length h ∧ Carries buffer h h

section

variable {uninit : ℕ → TupleIcmp × TupleIcmp} {p : List UInt8} {h h' : Header}

/-- The IP handler puts its nodes in front of what the payload gives. -/
theorem tupleFetch_payload {off : ℕ} {length : ℤ} (hversion : iphVersion p off = 4)
    (hlen : 20 ≤ length) (htot : iphTotLen p off ≤ length)
    (hfrag : (iphFragOff p off).toNat % 0x2000 = 0) (fuel : ℕ) :
    tupleFetch uninit p (fuel + 1) IPPROTO_IP off length =
      (tupleFetch uninit p fuel (iphProtocol p off) (iphPayload p off) (iphPayloadLen p off)).push
        (.ip ⟨iphSaddr p off, iphId p off, iphFragOff p off⟩)
        (.ip ⟨iphDaddr p off, iphId p off, iphFragOff p off⟩) := by
  have hlen' : ¬ (sizeLt length 20 ∨ length < iphTotLen p off) :=
    not_or.mpr ⟨not_sizeLt_of_le hlen, not_lt.mpr htot⟩
  rw [tupleFetch, if_pos rfl, ipFetch, if_neg (not_not.mpr hversion), if_neg hlen']
  exact if_neg (not_not.mpr hfrag)

/-- An IP header that passes the tests is fetched, with what its payload gives behind it unless it
is a later fragment. -/
theorem exists_tupleFetch_ip {off : ℕ} {length : ℤ} {as bs : Chain}
    (hversion : iphVersion p off = 4) (hlen : 20 ≤ length) (htot : iphTotLen p off ≤ length)
    (hrest : ((iphFragOff p off).toNat % 0x2000 ≠ 0 ∧ as = [] ∧ bs = []) ∨
      ((iphFragOff p off).toNat % 0x2000 = 0 ∧
        ∃ fuel, tupleFetch uninit p fuel (iphProtocol p off) (iphPayload p off)
          (iphPayloadLen p off) = some (some (as, bs)))) :
    ∃ fuel, tupleFetch uninit p fuel IPPROTO_IP off length =
      some (some (.ip ⟨iphSaddr p off, iphId p off, iphFragOff p off⟩ :: as,
        .ip ⟨iphDaddr p off, iphId p off, iphFragOff p off⟩ :: bs)) := by
  rcases hrest with ⟨hfrag, rfl, rfl⟩ | ⟨hfrag, fuel, hnext⟩
  · refine ⟨1, ?_⟩
    have hlen' : ¬ (sizeLt length 20 ∨ length < iphTotLen p off) :=
      not_or.mpr ⟨not_sizeLt_of_le hlen, not_lt.mpr htot⟩
    rw [tupleFetch, if_pos rfl, ipFetch, if_neg (not_not.mpr hversion), if_neg hlen']
    exact if_pos hfrag
  · refine ⟨fuel + 1, ?_⟩
    rw [tupleFetch_payload hversion hlen htot hfrag, hnext]
    rfl

/-- The ICMP handler puts its nodes in front of what the quoted packet gives. -/
theorem tupleFetch_quoted {off : ℕ} {length : ℤ} (hlen : ¬ sizeLt length 8)
    (htype : IcmpQuotes (get8 p off)) (fuel : ℕ) :
    tupleFetch uninit p (fuel + 1) IPPROTO_ICMP off length =
      (tupleFetch uninit p fuel IPPROTO_IP (off + 8) (length - 8)).push
        (.icmp { (uninit off).1 with type := get8 p off })
        (.icmp { (uninit off).2 with type := get8 p off }) := by
  obtain ⟨hecho, hstop, hexceeded⟩ := htype
  have hfetch : tupleFetch uninit p (fuel + 1) IPPROTO_ICMP off length =
      icmpFetch uninit (tupleFetch uninit p fuel) p off length := rfl
  rw [hfetch, icmpFetch, if_neg hlen]
  simp only [if_neg hecho, if_neg hstop, if_neg hexceeded]

/-- The message types with an echo header, of their own or a quoted one, to take id and sequence
from. -/
def IcmpEchoes (type : UInt8) : Prop :=
  type = ICMP_ECHO ∨ type = ICMP_ECHOREPLY ∨ type = ICMP_TIME_EXCEEDED

/-- Where id and sequence are taken from: the echo header itself, or the one that a time exceeded
message quotes. -/
def echoOff (type : UInt8) (off : ℕ) : ℕ := if type = ICMP_TIME_EXCEEDED then off + 32 else off + 4

/-- An echo header ends the chains, and both nodes are written in full. -/
theorem tupleFetch_echoes {off : ℕ} {length : ℤ} (hlen : ¬ sizeLt length 8)
    (htype : IcmpEchoes (get8 p off)) (uninit : ℕ → TupleIcmp × TupleIcmp) (fuel : ℕ) :
    let prv : TupleIcmp := ⟨get8 p off, get16 p (echoOff (get8 p off) off),
      get16 p (echoOff (get8 p off) off + 2)⟩
    tupleFetch uninit p (fuel + 1) IPPROTO_ICMP off length =
      some (some ([.icmp prv], [.icmp prv])) := by
  have hfetch : tupleFetch uninit p (fuel + 1) IPPROTO_ICMP off length =
      icmpFetch uninit (tupleFetch uninit p fuel) p off length := rfl
  rw [hfetch, icmpFetch, if_neg hlen]
  by_cases hecho : get8 p off = ICMP_ECHO ∨ get8 p off = ICMP_ECHOREPLY
  · have hexceeded : get8 p off ≠ ICMP_TIME_EXCEEDED := by
      rcases hecho with h | h <;> rw [h] <;> decide
    simp only [if_pos hecho, echoOff, if_neg hexceeded]
  · have hexceeded : get8 p off = ICMP_TIME_EXCEEDED := by
      rcases htype with h | h | h
      · exact absurd (Or.inl h) hecho
      · exact absurd (Or.inr h) hecho
      · exact h
    simp only [if_neg hecho, echoOff, if_pos hexceeded]
    rw [if_neg (by rw [hexceeded]; decide)]

/-- The other messages that are not parsed further end the chains as well, with what the fresh
memory held for id and sequence. -/
theorem tupleFetch_stops {off : ℕ} {length : ℤ} (hlen : ¬ sizeLt length 8)
    (hquotes : ¬ IcmpQuotes (get8 p off)) (hechoes : ¬ IcmpEchoes (get8 p off)) (fuel : ℕ) :
    tupleFetch uninit p (fuel + 1) IPPROTO_ICMP off length =
      some (some ([.icmp { (uninit off).1 with type := get8 p off }],
        [.icmp { (uninit off).2 with type := get8 p off }])) := by
  have hfetch : tupleFetch uninit p (fuel + 1) IPPROTO_ICMP off length =
      icmpFetch uninit (tupleFetch uninit p fuel) p off length := rfl
  have hecho : ¬ (get8 p off = ICMP_ECHO ∨ get8 p off = ICMP_ECHOREPLY) :=
    fun h => hechoes (or_assoc.mp (Or.inl h))
  have hstop : get8 p off = ICMP_TIMESTAMP ∨ get8 p off = ICMP_TIMESTAMPREPLY ∨
      get8 p off = ICMP_REDIRECT := by
    by_contra hstop
    exact hquotes ⟨hecho, hstop, fun h => hechoes (Or.inr (Or.inr h))⟩
  rw [hfetch, icmpFetch, if_neg hlen]
  simp only [if_neg hecho, if_pos hstop]

/-- Only the body of a message that quotes is parsed. -/
theorem icmpQuotes_of_next {fuel off : ℕ} {length : ℤ} {x : TupleNode} {as b : Chain}
    (hfetch : tupleFetch uninit p fuel IPPROTO_ICMP off length = some (some (x :: as, b)))
    (has : as ≠ []) : IcmpQuotes (get8 p off) := by
  have hlen := (tupleFetch_icmp hfetch).1
  by_contra hquotes
  cases fuel with
  | zero => cases hfetch
  | succ fuel =>
    by_cases hechoes : IcmpEchoes (get8 p off)
    · rw [tupleFetch_echoes hlen hechoes] at hfetch
      cases hfetch
      exact has rfl
    · rw [tupleFetch_stops hlen hquotes hechoes] at hfetch
      cases hfetch
      exact has rfl

/-- A handler that goes on puts its nodes in front of what it gets. -/
theorem tupleFetch_of_carries (hnext : Carries p h h') :
    ∃ a b, ∀ fuel, tupleFetch uninit p (fuel + 1) h.protocol h.off h.length =
      (tupleFetch uninit p fuel h'.protocol h'.off h'.length).push a b := by
  cases hnext with
  | payload hversion hlen htot hfrag =>
    exact ⟨_, _, tupleFetch_payload hversion hlen htot hfrag⟩
  | quoted hlen htype => exact ⟨_, _, tupleFetch_quoted hlen htype⟩

/-- A handler that does not go on returns. -/
theorem tupleFetch_of_not_carries (hend : ∀ h', ¬ Carries p h h') :
    ∃ r, ∀ fuel, tupleFetch uninit p (fuel + 1) h.protocol h.off h.length = some r := by
  obtain ⟨protocol, off, length⟩ := h
  by_cases hip : protocol = IPPROTO_IP
  · subst hip
    simp only [tupleFetch, if_pos, ipFetch]
    by_cases hversion : iphVersion p off = 4
    · by_cases hlen : sizeLt length 20 ∨ length < iphTotLen p off
      · exact ⟨none, fun _ => by rw [if_neg (not_not.mpr hversion), if_pos hlen]⟩
      · by_cases hfrag : (iphFragOff p off).toNat % 0x2000 = 0
        · push Not at hlen
          have hlen20 : 20 ≤ length := le_of_not_sizeLt hlen.1 (le_trans (by omega) hlen.2)
          exact absurd (.payload hversion hlen20 hlen.2 hfrag) (hend _)
        · refine ⟨some ([.ip ⟨iphSaddr p off, iphId p off, iphFragOff p off⟩],
            [.ip ⟨iphDaddr p off, iphId p off, iphFragOff p off⟩]), fun _ => ?_⟩
          rw [if_neg (not_not.mpr hversion), if_neg hlen, if_pos hfrag]
    · exact ⟨none, fun _ => by rw [if_pos hversion]⟩
  by_cases htcp : protocol = IPPROTO_TCP
  · subst htcp
    by_cases hlen : sizeLt length 20 ∨ length < 20
    · exact ⟨_, fun _ => if_pos hlen⟩
    · exact ⟨_, fun _ => if_neg hlen⟩
  by_cases hudp : protocol = IPPROTO_UDP
  · subst hudp
    by_cases hlen : sizeLt length 8
    · exact ⟨_, fun _ => if_pos hlen⟩
    · exact ⟨_, fun _ => if_neg hlen⟩
  by_cases hicmp : protocol = IPPROTO_ICMP
  · subst hicmp
    by_cases hlen : sizeLt length 8
    · exact ⟨none, fun _ => if_pos hlen⟩
    have hquotes : ¬ IcmpQuotes (get8 p off) := fun htype => hend _ (.quoted hlen htype)
    by_cases hechoes : IcmpEchoes (get8 p off)
    · exact ⟨_, tupleFetch_echoes hlen hechoes uninit⟩
    · exact ⟨_, tupleFetch_stops hlen hquotes hechoes⟩
  · refine ⟨none, fun fuel => ?_⟩
    rw [tupleFetch, if_neg hip, if_neg htcp, if_neg hudp, if_neg hicmp]

/-- One call of `sw_tuple_fetch`. -/
theorem fuelled_tupleFetch (uninit : ℕ → TupleIcmp × TupleIcmp) (p : List UInt8) :
    Fuelled (fun fuel h => tupleFetch uninit p fuel h.protocol h.off h.length) (Carries p) where
  zero _ := rfl
  stop _ hend := tupleFetch_of_not_carries hend
  call h h' hnext := by
    obtain ⟨a, b, hpush⟩ := @tupleFetch_of_carries uninit _ _ _ hnext
    exact ⟨_, hpush⟩

/-- Headers by the offset, and at one offset an IP header before what it carries. -/
def Header.rank (p : List UInt8) (h : Header) : ℕ :=
  3 * (p.length - h.off) +
    if h.protocol = IPPROTO_IP then if h.length = iphTotLen p h.off then 1 else 2 else 0

/-- A header behind another is of lower rank. -/
theorem Header.rank_lt_of_off_lt (hbuf : h.off < p.length) (hoff : h.off < h'.off) :
    h'.rank p < h.rank p := by
  have hle : h'.rank p ≤ 3 * (p.length - h'.off) + 2 := by
    unfold Header.rank
    split_ifs <;> omega
  have hge : 3 * (p.length - h.off) ≤ h.rank p := Nat.le_add_right _ _
  omega

theorem off_lt_of_get8_ne_zero {off : ℕ} (h : get8 p off ≠ 0) : off < p.length := by
  by_contra hlt
  exact h (by simp [get8, not_lt.1 hlt])

/-- A header that carries another is in the buffer. -/
theorem Carries.off_lt (hnext : Carries p h h') : h.off < p.length := by
  cases hnext with
  | payload hversion =>
    refine off_lt_of_get8_ne_zero fun hzero => ?_
    simp [iphVersion, hzero] at hversion
  | quoted hlen htype => exact off_lt_of_get8_ne_zero fun hzero => htype.1 (Or.inr hzero)

theorem Carries.rank_lt (hnext : Carries p h h') : h' = h ∨ h'.rank p < h.rank p := by
  have hoff := hnext.off_lt
  cases hnext with
  | @payload off length hversion hlen htot hfrag =>
    by_cases hihl : iphIhl p off = 0
    · -- at the same offset: another protocol, or the header with its own length
      simp only [Header.rank, iphPayload, iphPayloadLen, hihl, zero_mul, add_zero,
        CharP.cast_eq_zero, sub_zero, Header.mk.injEq, true_and]
      by_cases hip : iphProtocol p off = IPPROTO_IP
      · by_cases hsame : length = iphTotLen p off
        · exact Or.inl ⟨hip, hsame.symm⟩
        · right
          simp only [if_pos hip, if_neg hsame, if_true]
          omega
      · right
        simp only [if_neg hip]
        split_ifs <;> omega
    · right
      refine Header.rank_lt_of_off_lt hoff ?_
      simp only [iphPayload]
      omega
  | quoted hlen htype =>
    exact Or.inr (Header.rank_lt_of_off_lt hoff (Nat.lt_add_of_pos_right (by omega)))

/-- A header that carries itself has its twenty octets. -/
theorem Carries.twenty_le (hnext : Carries p h h') (hself : h' = h) : 20 ≤ h.length := by
  cases hnext with
  | payload _ hlen => exact hlen
  | @quoted off =>
    have hoff : off + 8 = off := congrArg Header.off hself
    omega

theorem SelfCarried.twenty_le {length : ℤ} (hself : SelfCarried p length) : 20 ≤ length := by
  obtain ⟨h, hreach, hcarries⟩ := hself
  have hlen := hcarries.twenty_le rfl
  have hbound := hreach.bound
  omega

/-- A fetch returns one thing. -/
theorem tupleFetch_unique {protocol off fuel fuel' : ℕ} {length : ℤ} {r r' : Option (Chain × Chain)}
    (hr : tupleFetch uninit p fuel protocol off length = some r)
    (hr' : tupleFetch uninit p fuel' protocol off length = some r') : r = r' :=
  (fuelled_tupleFetch uninit p).unique (s := ⟨protocol, off, length⟩) hr hr'

end

/-- **A fetch returns** unless it comes to a header that carries itself. -/
theorem tupleFetch_returns_iff (uninit : ℕ → TupleIcmp × TupleIcmp) (p : List UInt8)
    (length : ℤ) :
    (∃ fuel r, tupleFetch uninit p fuel IPPROTO_IP 0 length = some r) ↔ ¬ SelfCarried p length :=
  (fuelled_tupleFetch uninit p).returns_iff (Header.rank p) (fun _ _ => Carries.rank_lt)
    ⟨IPPROTO_IP, 0, length⟩

/-! ## Commits -/

/-- **A commit returns**: the chains are of the shape of those that were fetched. -/
theorem tupleCommit_isSome {uninit : ℕ → TupleIcmp × TupleIcmp} {p : List UInt8} {fuel : ℕ}
    {length : ℤ} {xs ys as bs : Chain} (scratch : UInt32) (hbuf : length ≤ p.length)
    (hfetch : tupleFetch uninit p fuel IPPROTO_IP 0 length = some (some (xs, ys)))
    (ha : SameProtocols xs as) (hb : SameProtocols ys bs) (orgA orgB : TuplePtr) :
    ∃ r, tupleCommit scratch none as ⟨none, bs⟩ orgA orgB p 0 length = some r := by
  rw [← value_tupleCommitT]
  exact (inside_tupleCommitT hfetch ha hb (by simpa using hbuf) (fun h => by cases h)).returns

/-- A commit that keeps the length of the buffer. -/
def KeepsLength (commit : NestedCommit) : Prop :=
  ∀ packet off length packet' rc, commit packet off length = some (packet', rc) →
    packet'.length = packet.length

section

variable {nested : NestedCommit}

/-- What is written behind the nested commit keeps the length. -/
theorem KeepsLength.bind (hnested : KeepsLength nested) {packet packet' : List UInt8} {off : ℕ}
    {length rc : ℤ} {write : List UInt8 × ℤ → Committed}
    (h : (nested packet off length).bind write = some (packet', rc))
    (hwrite : ∀ packet₁ rc₁, write (packet₁, rc₁) = some (packet', rc) →
      packet'.length = packet₁.length) : packet'.length = packet.length := by
  obtain ⟨⟨packet₁, rc₁⟩, hrec, hrest⟩ := Option.bind_eq_some_iff.1 h
  rw [hwrite _ _ hrest, hnested _ _ _ _ _ hrec]

theorem length_preferAlternative (packet : List UInt8) (i : ℕ) (a b : UInt16) :
    (preferAlternative packet i a b).length = packet.length :=
  length_put16 _ _ _

theorem keepsLength_ipCommit (hnested : KeepsLength nested) (prvA prvB : TupleIp) :
    KeepsLength (ipCommit nested prvA prvB) := by
  intro packet off length packet' rc h
  unfold ipCommit ipCommitWith at h
  split at h
  · cases h
    rfl
  split at h
  · cases h
    rfl
  refine hnested.bind h fun packet₁ rc₁ hwrite => ?_
  dsimp only at hwrite
  split at hwrite
  · cases hwrite
    simp
  · cases hwrite
    simp

theorem keepsLength_tcpCommit (hnested : KeepsLength nested) (scratch : UInt32)
    (prvA prvB : TupleTcp) (prevA prevB prevOrgA prevOrgB : Option TupleNode) :
    KeepsLength (tcpCommit scratch nested prvA prvB prevA prevB prevOrgA prevOrgB) := by
  intro packet off length packet' rc h
  unfold tcpCommit at h
  dsimp only at h
  split at h
  · cases h
    rfl
  split at h
  · cases h
    rfl
  split at h
  · cases h
    rfl
  refine hnested.bind h fun packet₁ rc₁ hwrite => ?_
  dsimp only at hwrite
  split at hwrite
  · cases hwrite
    simp
  split at hwrite
  · cases hwrite
    simp
  · cases hwrite
    simp

theorem keepsLength_udpCommit (hnested : KeepsLength nested) (scratch : UInt32)
    (prvA prvB : TupleUdp) (prevA prevB prevOrgA prevOrgB : Option TupleNode) :
    KeepsLength (udpCommit scratch nested prvA prvB prevA prevB prevOrgA prevOrgB) := by
  intro packet off length packet' rc h
  unfold udpCommit at h
  split at h
  · cases h
    rfl
  split at h
  · cases h
    rfl
  refine hnested.bind h fun packet₁ rc₁ hwrite => ?_
  dsimp only at hwrite
  split at hwrite
  · split at hwrite
    · cases hwrite
      simp
    · cases hwrite
      simp
  · cases hwrite
    simp

theorem keepsLength_icmpCommit (hnested : KeepsLength nested) (prvA prvB : TupleIcmp)
    (prevA prevB : Option TupleNode) :
    KeepsLength (icmpCommit nested prvA prvB prevA prevB) := by
  intro packet off length packet' rc h
  unfold icmpCommit icmpCommitWith at h
  split at h
  · split at h
    · cases h
      rfl
    split at h
    · cases h
      rfl
    split at h
    · cases h
      rfl
    refine hnested.bind h fun packet₁ rc₁ hwrite => ?_
    dsimp only at hwrite
    split at hwrite
    · split at hwrite
      · cases hwrite
        rfl
      split at hwrite
      · cases hwrite
        simp [length_preferAlternative]
      · cases hwrite
        simp [length_preferAlternative]
    · split at hwrite
      · cases hwrite
        split <;> simp [length_preferAlternative]
      · cases hwrite
        split <;> simp [length_preferAlternative]
  · cases h

end

/-- **A commit keeps the length.** -/
theorem length_tupleCommit {scratch : UInt32} {prevA : Option TupleNode} {as : Chain}
    {b orgA orgB : TuplePtr} : KeepsLength (tupleCommit scratch prevA as b orgA orgB) := by
  induction as generalizing prevA b orgA orgB with
  | nil =>
    intro packet off length packet' rc h
    cases h
    rfl
  | cons x as ih =>
    intro packet off length packet' rc h
    rw [tupleCommit] at h
    split at h
    · cases h
      rfl
    · dsimp only at h
      split at h
      · exact keepsLength_ipCommit ih _ _ _ _ _ _ _ h
      · exact keepsLength_tcpCommit ih _ _ _ _ _ _ _ _ _ _ _ _ h
      · exact keepsLength_udpCommit ih _ _ _ _ _ _ _ _ _ _ _ _ h
      · exact keepsLength_icmpCommit ih _ _ _ _ _ _ _ _ _ h
      · cases h
        rfl

end Sweetspot
