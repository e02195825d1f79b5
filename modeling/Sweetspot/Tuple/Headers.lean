import Sweetspot.Tuple.Returns

/-!
# What a fetch depends on

A handler reads its own header and no other octet, and uses the fresh memory only where it leaves a
field of an ICMP node unwritten.  Two fetches that agree on that for every header they come to give
the same chains.

* `tupleFetch_congr`: the two fetches from any header.
* `tupleFetch_eq_of_sameHeader`: the two fetches of whole packets, whatever follows their headers.
-/

namespace Sweetspot

open Octets

/-- The octets of a header that the fetch looks at: those before the length of a UDP header, and
those of a time exceeded message up to the sequence number that it quotes. -/
def Header.size (packet : List UInt8) (h : Header) : ℕ :=
  if h.protocol = IPPROTO_UDP then 4
  else if h.protocol = IPPROTO_ICMP then
    if get8 packet h.off = ICMP_TIME_EXCEEDED then 36 else 8
  else 20

theorem Header.size_pos (packet : List UInt8) (h : Header) : 0 < h.size packet := by
  rw [Header.size]
  split_ifs <;> omega

theorem Header.size_icmp (p : List UInt8) (off : ℕ) (length : ℤ) :
    (⟨IPPROTO_ICMP, off, length⟩ : Header).size p =
      if get8 p off = ICMP_TIME_EXCEEDED then 36 else 8 := by
  have hudp : IPPROTO_ICMP ≠ IPPROTO_UDP := by decide
  simp only [Header.size, if_neg hudp, if_true]

/-- The handler of the header reads the same in both packets and memories. -/
structure SameHeader (uninit uninit' : ℕ → TupleIcmp × TupleIcmp) (p q : List UInt8) (h : Header) :
    Prop where
  octets : SameOctets p q h.off (h.size p)
  memory : h.protocol = IPPROTO_ICMP → IcmpEchoes (get8 p h.off) ∨ uninit h.off = uninit' h.off

section

variable {uninit uninit' : ℕ → TupleIcmp × TupleIcmp} {p q : List UInt8} {off : ℕ} {length : ℤ}
  {fetch fetch' : ℕ → ℕ → ℤ → Fetched}

/-! ## The handlers -/

theorem iph_congr (h : SameOctets p q off 20) :
    iphVersion p off = iphVersion q off ∧ iphIhl p off = iphIhl q off ∧
      iphTotLen p off = iphTotLen q off ∧ iphId p off = iphId q off ∧
      iphFragOff p off = iphFragOff q off ∧ iphProtocol p off = iphProtocol q off ∧
      iphSaddr p off = iphSaddr q off ∧ iphDaddr p off = iphDaddr q off := by
  have hfirst : get8 p off = get8 q off := h 0 (by omega)
  refine ⟨?_, ?_, ?_, ?_, ?_, ?_, ?_, ?_⟩
  · rw [iphVersion, iphVersion, hfirst]
  · rw [iphIhl, iphIhl, hfirst]
  · rw [iphTotLen, iphTotLen, h.get16 (by omega)]
  · exact h.get16 (by omega)
  · exact h.get16 (by omega)
  · rw [iphProtocol, iphProtocol, h 9 (by omega)]
  · exact h.get32 (by omega)
  · exact h.get32 (by omega)

theorem ipFetch_congr (h : SameOctets p q off 20)
    (hnext : ∀ h', Carries p ⟨IPPROTO_IP, off, length⟩ h' →
      fetch h'.protocol h'.off h'.length = fetch' h'.protocol h'.off h'.length) :
    ipFetch fetch p off length = ipFetch fetch' q off length := by
  obtain ⟨hversion, hihl, htotLen, hid, hfragOff, hprotocol, hsaddr, hdaddr⟩ := iph_congr h
  simp only [ipFetch, iphPayload, iphPayloadLen, ← hversion, ← hihl, ← htotLen, ← hid, ← hfragOff,
    ← hprotocol, ← hsaddr, ← hdaddr]
  by_cases hv : iphVersion p off = 4
  · by_cases hl : sizeLt length 20 ∨ length < iphTotLen p off
    · rw [if_pos hl, if_pos hl]
    · by_cases hf : (iphFragOff p off).toNat % 0x2000 = 0
      · push Not at hl
        have hlen : 20 ≤ length := le_of_not_sizeLt hl.1 (le_trans (by omega) hl.2)
        have heq := forall_carries_ip.mp hnext hv hlen hl.2 hf
        simp only [iphPayload, iphPayloadLen] at heq
        rw [heq]
      · rw [if_pos hf, if_pos hf]
  · rw [if_pos hv, if_pos hv]

theorem tcpFetch_congr (h : SameOctets p q off 20) (length : ℤ) :
    tcpFetch p off length = tcpFetch q off length := by
  have hsource : get16 p off = get16 q off := h.get16 (k := 0) (by omega)
  rw [tcpFetch, tcpFetch, tcphFlags, tcphFlags, hsource, h.get16 (by omega), h 13 (by omega)]

theorem udpFetch_congr (h : SameOctets p q off 4) (length : ℤ) :
    udpFetch p off length = udpFetch q off length := by
  have hsource : get16 p off = get16 q off := h.get16 (k := 0) (by omega)
  rw [udpFetch, udpFetch, hsource, h.get16 (by omega)]

theorem icmpFetch_congr (h : SameHeader uninit uninit' p q ⟨IPPROTO_ICMP, off, length⟩)
    (hnext : ∀ h', Carries p ⟨IPPROTO_ICMP, off, length⟩ h' →
      fetch h'.protocol h'.off h'.length = fetch' h'.protocol h'.off h'.length) :
    icmpFetch uninit fetch p off length = icmpFetch uninit' fetch' q off length := by
  have hsize : 8 ≤ (⟨IPPROTO_ICMP, off, length⟩ : Header).size p := by
    rw [Header.size_icmp]
    split_ifs <;> omega
  have htype : get8 p off = get8 q off := h.octets 0 (by omega)
  rw [icmpFetch, icmpFetch, ← htype]
  by_cases hlen : sizeLt length 8
  · rw [if_pos hlen, if_pos hlen]
  rw [if_neg hlen, if_neg hlen]
  by_cases hecho : get8 p off = ICMP_ECHO ∨ get8 p off = ICMP_ECHOREPLY
  · have hid : get16 p (off + 4) = get16 q (off + 4) := h.octets.get16 (by omega)
    have hseq : get16 p (off + 6) = get16 q (off + 6) := h.octets.get16 (by omega)
    simp only [if_pos hecho, hid, hseq]
  simp only [if_neg hecho]
  by_cases hexceeded : get8 p off = ICMP_TIME_EXCEEDED
  · have hsize36 : (⟨IPPROTO_ICMP, off, length⟩ : Header).size p = 36 := by
      rw [Header.size_icmp, if_pos hexceeded]
    have hid : get16 p (off + 32) = get16 q (off + 32) := h.octets.get16 (by omega)
    have hseq : get16 p (off + 34) = get16 q (off + 34) := h.octets.get16 (by omega)
    have hstop : ¬ (get8 p off = ICMP_TIMESTAMP ∨ get8 p off = ICMP_TIMESTAMPREPLY ∨
        get8 p off = ICMP_REDIRECT) := by
      rw [hexceeded]
      decide
    simp only [if_neg hstop, if_pos hexceeded, hid, hseq]
  -- the memory shows
  have hmemory : uninit off = uninit' off := by
    rcases h.memory rfl with (htype | htype | htype) | hmemory
    · exact absurd (Or.inl htype) hecho
    · exact absurd (Or.inr htype) hecho
    · exact absurd htype hexceeded
    · exact hmemory
  simp only [hmemory, if_neg hexceeded]
  by_cases hstop : get8 p off = ICMP_TIMESTAMP ∨ get8 p off = ICMP_TIMESTAMPREPLY ∨
      get8 p off = ICMP_REDIRECT
  · rw [if_pos hstop, if_pos hstop]
  · rw [if_neg hstop, if_neg hstop, forall_carries_icmp.mp hnext hlen ⟨hecho, hstop, hexceeded⟩]

/-! ## The fetch -/

theorem Carries.off_le {h h' : Header} (hnext : Carries p h h') : h.off ≤ h'.off := by
  cases hnext with
  | payload => exact Nat.le_add_right _ _
  | quoted => exact Nat.le_add_right _ _

theorem off_le_of_reach {h h' : Header} (hreach : Relation.ReflTransGen (Carries p) h h') :
    h.off ≤ h'.off := by
  induction hreach with
  | refl => exact le_refl _
  | tail _ hnext ih => exact ih.trans hnext.off_le

/-- **A fetch depends on the headers it comes to**, and on the memory only where one of them leaves
fields of its nodes unwritten. -/
theorem tupleFetch_congr {h : Header}
    (hsame : ∀ h', Relation.ReflTransGen (Carries p) h h' → SameHeader uninit uninit' p q h')
    (fuel : ℕ) : tupleFetch uninit p fuel h.protocol h.off h.length =
      tupleFetch uninit' q fuel h.protocol h.off h.length := by
  induction fuel generalizing h with
  | zero => rfl
  | succ fuel ih =>
    obtain ⟨protocol, off, length⟩ := h
    have hhead := hsame _ .refl
    have hnext : ∀ h', Carries p ⟨protocol, off, length⟩ h' →
        tupleFetch uninit p fuel h'.protocol h'.off h'.length =
          tupleFetch uninit' q fuel h'.protocol h'.off h'.length := fun h' hcarries =>
      ih fun h'' hreach => hsame h'' (.head hcarries hreach)
    by_cases hip : protocol = IPPROTO_IP
    · subst hip
      exact ipFetch_congr hhead.octets hnext
    by_cases htcp : protocol = IPPROTO_TCP
    · subst htcp
      exact tcpFetch_congr hhead.octets length
    by_cases hudp : protocol = IPPROTO_UDP
    · subst hudp
      exact udpFetch_congr hhead.octets length
    by_cases hicmp : protocol = IPPROTO_ICMP
    · subst hicmp
      exact icmpFetch_congr hhead hnext
    · simp only [tupleFetch, if_neg hip, if_neg htcp, if_neg hudp, if_neg hicmp]

/-- A fetch reads nothing before the header it starts from. -/
theorem tupleFetch_congr_from (hget : ∀ i, off ≤ i → get8 p i = get8 q i) (fuel protocol : ℕ)
    (length : ℤ) : tupleFetch uninit p fuel protocol off length =
      tupleFetch uninit q fuel protocol off length := by
  refine tupleFetch_congr (h := ⟨protocol, off, length⟩) (fun h' hreach => ⟨?_, ?_⟩) fuel
  · intro k _
    have := off_le_of_reach hreach
    exact hget _ (by simp only at this; omega)
  · exact fun _ => Or.inr rfl

/-- The length of the buffer decides whether an IP header is accepted, and nothing else. -/
theorem tupleFetch_ip_length {fuel fuel' : ℕ} {length' : ℤ} {c d : Chain × Chain}
    (hc : tupleFetch uninit p fuel IPPROTO_IP off length = some (some c))
    (hd : tupleFetch uninit p fuel' IPPROTO_IP off length' = some (some d)) : c = d := by
  obtain ⟨-, -, -, as, bs, ha, hb, hrest⟩ := tupleFetch_ip hc
  obtain ⟨-, -, -, as', bs', ha', hb', hrest'⟩ := tupleFetch_ip hd
  have htails : (as, bs) = (as', bs') := by
    rcases hrest with ⟨hfrag, rfl, rfl⟩ | ⟨hfrag, fuel₁, hnext⟩
    · rcases hrest' with ⟨-, rfl, rfl⟩ | ⟨hfirst, -⟩
      · rfl
      · exact absurd hfirst hfrag
    · rcases hrest' with ⟨hlater, -⟩ | ⟨-, fuel₂, hnext'⟩
      · exact absurd hfrag hlater
      · exact Option.some.inj (tupleFetch_unique hnext hnext')
  cases htails
  exact Prod.ext (ha.trans ha'.symm) (hb.trans hb'.symm)

/-- **Two accepted packets with the same headers give the same chains**, if the memory does not
show. -/
theorem tupleFetch_eq_of_sameHeader {fuel fuel' : ℕ} {length' : ℤ} {c d : Chain × Chain}
    (hsame : ∀ h, ReachedIn p length h → SameHeader uninit uninit' p q h)
    (hc : tupleFetch uninit p fuel IPPROTO_IP 0 length = some (some c))
    (hd : tupleFetch uninit' q fuel' IPPROTO_IP 0 length' = some (some d)) : c = d := by
  have hcongr := tupleFetch_congr (h := ⟨IPPROTO_IP, 0, length⟩) hsame fuel
  exact tupleFetch_ip_length (hcongr.symm.trans hc) hd

/-- What the header goes on to does not depend on anything else either. -/
theorem Carries.congr {h h' : Header} (hsame : SameOctets p q h.off (h.size p))
    (hnext : Carries p h h') : Carries q h h' := by
  cases hnext with
  | @payload off length hversion hlen htot hfrag =>
    obtain ⟨hversion', hihl, htotLen, -, hfragOff, hprotocol, -, -⟩ := iph_congr hsame
    have hpayload : iphPayload p off = iphPayload q off := by rw [iphPayload, iphPayload, hihl]
    have hpayloadLen : iphPayloadLen p off = iphPayloadLen q off := by
      rw [iphPayloadLen, iphPayloadLen, htotLen, hihl]
    rw [hprotocol, hpayload, hpayloadLen]
    exact .payload (hversion' ▸ hversion) hlen (htotLen ▸ htot) (hfragOff ▸ hfrag)
  | @quoted off length hlen htype =>
    have hfirst : get8 p off = get8 q off := hsame 0 (Header.size_pos _ _)
    exact .quoted hlen (hfirst ▸ htype)

end

end Sweetspot
