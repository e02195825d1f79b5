import Sweetspot.Snat.Source
import Sweetspot.Tuple.Hash

/-!
# What old memory does to a tuple

The receive buffer is never cleared, so behind a packet are octets of older ones, and a header that
the packet is too short for is read from there.  The tuples of an ICMP header are built in memory
that is not cleared either, and their id and sequence are written only if the message has an echo
header to take them from.  Comparisons and hashes look at both fields whatever the message is.  So
when do two packets with the same headers have the same tuples, and with them the same source NAT
relation?

* `Determined`: whatever the memory held, equal headers give chains that compare and hash the same.
* `isSome_tupleFetch`: which packets are accepted does not depend on the memory of the tuples.
* `HeaderKnown`, `determined_iff`: an accepted packet determines its chains exactly if the headers
  the fetch comes to are in the packet, and those of ICMP have an echo header.
-/

namespace Sweetspot

open Octets

/-- `sw_tuple_fetch` accepts the packet, with these or those octets behind it in the buffer. -/
def PacketAccepted (packet : List UInt8) : Prop :=
  ∃ uninit behind fuel c,
    tupleFetch uninit (packet ++ behind) fuel IPPROTO_IP 0 packet.length = some (some c)

/-- The headers the first packet is parsed by stand in the second as well, as far as they are in the
packets at all. -/
def SameHeaders (p q : List UInt8) : Prop :=
  ∀ behind h, ReachedIn (p ++ behind) p.length h →
    ∀ k < h.size (p ++ behind), p[h.off + k]? = q[h.off + k]?

/-- No comparison and no hash tells the chains apart. -/
structure Alike (a b : Chain) : Prop where
  tupleCmp : tupleCmp a b = 0
  natTupleCmp : natTupleCmp a b = 0
  tupleHash : tupleHash a = tupleHash b
  natTupleHash : natTupleHash a = natTupleHash b

theorem Alike.refl (a : Chain) : Alike a a :=
  ⟨(tupleCmp_eq_zero_iff a a).mpr rfl, natTupleCmp_self a, rfl, rfl⟩

/-- The chains of the packet, and what source NAT makes of them, depend on its headers only: not on
what is behind them in the buffer, nor on the memory of the tuples. -/
def Determined (packet : List UInt8) : Prop :=
  ∀ (q : List UInt8), SameHeaders packet q →
    ∀ (behind behind' : List UInt8) (uninit uninit' : ℕ → TupleIcmp × TupleIcmp) (fuel fuel' : ℕ)
      (a b a' b' : Chain),
      tupleFetch uninit (packet ++ behind) fuel IPPROTO_IP 0 packet.length = some (some (a, b)) →
      tupleFetch uninit' (q ++ behind') fuel' IPPROTO_IP 0 q.length = some (some (a', b')) →
      Alike a a' ∧ Alike b b' ∧ ∀ (s : NatSrc) (now : ℤ), s.natSrcDo now a = s.natSrcDo now a'

/-- The header is in the packet as far as it is read, and if it is of ICMP, it has an echo header to
take id and sequence from. -/
structure HeaderKnown (packet behind : List UInt8) (h : Header) : Prop where
  inside : h.off + h.size (packet ++ behind) ≤ packet.length
  echoes : h.protocol = IPPROTO_ICMP → IcmpEchoes (get8 packet h.off)

section

variable {uninit uninit' : ℕ → TupleIcmp × TupleIcmp} {p : List UInt8}

/-! ## Acceptance -/

theorem Fetched.map_isSome_push (x y : TupleNode) (r : Fetched) :
    (r.push x y).map Option.isSome = r.map Option.isSome := by
  cases r with
  | none => rfl
  | some r => cases r <;> rfl

/-- **The memory does not matter to acceptance.** -/
theorem isSome_tupleFetch (uninit uninit' : ℕ → TupleIcmp × TupleIcmp) (p : List UInt8)
    (fuel protocol off : ℕ) (length : ℤ) :
    (tupleFetch uninit p fuel protocol off length).map Option.isSome =
      (tupleFetch uninit' p fuel protocol off length).map Option.isSome := by
  induction fuel generalizing protocol off length with
  | zero => rfl
  | succ fuel ih =>
    simp only [tupleFetch]
    split_ifs with hip htcp hudp hicmp
    · simp only [ipFetch]
      split_ifs
      · rfl
      · rfl
      · rfl
      · rw [Fetched.map_isSome_push, Fetched.map_isSome_push, ih]
    · rfl
    · rfl
    · simp only [icmpFetch]
      split_ifs
      · rfl
      · rfl
      · rfl
      · rfl
      · rw [Fetched.map_isSome_push, Fetched.map_isSome_push, ih]
    · rfl

/-- A packet that is accepted is accepted whatever the memory of the tuples held. -/
theorem exists_tupleFetch_of_accepted {fuel : ℕ} {length : ℤ} {c : Chain × Chain}
    (hfetch : tupleFetch uninit p fuel IPPROTO_IP 0 length = some (some c))
    (uninit' : ℕ → TupleIcmp × TupleIcmp) :
    ∃ a b, tupleFetch uninit' p fuel IPPROTO_IP 0 length = some (some (a, b)) := by
  have hsome := isSome_tupleFetch uninit uninit' p fuel IPPROTO_IP 0 length
  rw [hfetch] at hsome
  cases hr : tupleFetch uninit' p fuel IPPROTO_IP 0 length with
  | none =>
    rw [hr] at hsome
    cases hsome
  | some r =>
    cases r with
    | none =>
      rw [hr] at hsome
      cases hsome
    | some d => exact ⟨d.1, d.2, rfl⟩

/-- So are the headers it comes to. -/
theorem exists_tupleFetch_of_reach {h₀ h : Header}
    (hreach : Relation.ReflTransGen (Carries p) h₀ h) {fuel : ℕ} {a b : Chain}
    (hfetch : tupleFetch uninit p fuel h₀.protocol h₀.off h₀.length = some (some (a, b))) :
    ∃ fuel as bs, tupleFetch uninit p fuel h.protocol h.off h.length = some (some (as, bs)) := by
  induction hreach using Relation.ReflTransGen.head_induction_on generalizing fuel a b with
  | refl => exact ⟨fuel, a, b, hfetch⟩
  | head hcarries _ ih =>
    cases fuel with
    | zero => cases hfetch
    | succ fuel =>
      obtain ⟨x, y, hpush⟩ := @tupleFetch_of_carries uninit p _ _ hcarries
      rw [hpush, Fetched.push_eq_some] at hfetch
      obtain ⟨as, bs, hnext, -, -⟩ := hfetch
      exact ih hnext

/-! ## Where the memory shows -/

theorem tupleCmp_tail {x y : TupleNode} {as bs : Chain} (h : tupleCmp (x :: as) (y :: bs) = 0) :
    tupleCmp as bs = 0 := by
  rw [tupleCmp_eq_zero_iff] at h ⊢
  cases x <;> cases y <;> simp_all [tupleImage]

/-- Without an echo header the node of an ICMP header is the fresh memory with the type written. -/
theorem exists_left_of_tupleFetch {off fuel : ℕ} {length : ℤ} {a b : Chain}
    (hechoes : ¬ IcmpEchoes (get8 p off))
    (hfetch : tupleFetch uninit p fuel IPPROTO_ICMP off length = some (some (a, b))) :
    ∃ as, a = .icmp { (uninit off).1 with type := get8 p off } :: as := by
  have hlen := (tupleFetch_icmp hfetch).1
  cases fuel with
  | zero => cases hfetch
  | succ fuel =>
    by_cases hquotes : IcmpQuotes (get8 p off)
    · rw [tupleFetch_quoted hlen hquotes, Fetched.push_eq_some] at hfetch
      obtain ⟨as, -, -, ha, -⟩ := hfetch
      exact ⟨as, ha⟩
    · rw [tupleFetch_stops hlen hquotes hechoes] at hfetch
      cases hfetch
      exact ⟨[], rfl⟩

/-- **An id the memory left is compared**, wherever in the chain it is. -/
theorem tupleCmp_ne_zero_of_left {h₀ h : Header}
    (hreach : Relation.ReflTransGen (Carries p) h₀ h) (hprotocol : h.protocol = IPPROTO_ICMP)
    (hechoes : ¬ IcmpEchoes (get8 p h.off)) (hid : (uninit h.off).1.id ≠ (uninit' h.off).1.id)
    {fuel fuel' : ℕ} {a b a' b' : Chain}
    (hfetch : tupleFetch uninit p fuel h₀.protocol h₀.off h₀.length = some (some (a, b)))
    (hfetch' : tupleFetch uninit' p fuel' h₀.protocol h₀.off h₀.length = some (some (a', b'))) :
    tupleCmp a a' ≠ 0 := by
  induction hreach using Relation.ReflTransGen.head_induction_on generalizing fuel fuel' a b a' b'
    with
  | refl =>
    rw [hprotocol] at hfetch hfetch'
    obtain ⟨as, rfl⟩ := exists_left_of_tupleFetch hechoes hfetch
    obtain ⟨as', rfl⟩ := exists_left_of_tupleFetch hechoes hfetch'
    simp [tupleCmp, hid]
  | head hcarries _ ih =>
    cases fuel with
    | zero => cases hfetch
    | succ fuel =>
      cases fuel' with
      | zero => cases hfetch'
      | succ fuel' =>
        obtain ⟨x, y, hpush⟩ := @tupleFetch_of_carries uninit p _ _ hcarries
        obtain ⟨x', y', hpush'⟩ := @tupleFetch_of_carries uninit' p _ _ hcarries
        rw [hpush, Fetched.push_eq_some] at hfetch
        rw [hpush', Fetched.push_eq_some] at hfetch'
        obtain ⟨as, bs, hnext, rfl, -⟩ := hfetch
        obtain ⟨as', bs', hnext', rfl, -⟩ := hfetch'
        exact fun hcmp => ih hnext hnext' (tupleCmp_tail hcmp)

/-! ## Where the buffer shows -/

/-- The handler of the first header goes on to the second, whatever is behind the packet. -/
def CarriesWithin (packet : List UInt8) (h h' : Header) : Prop :=
  ∀ behind, Carries (packet ++ behind) h h'

section

variable {packet behind behind' : List UInt8} {h₀ h : Header} {as bs as' bs' : Chain}
  {fuel fuel' : ℕ}

/-- Two fetches that differ in what they make of one header differ in their chains. -/
theorem exists_tupleFetch_of_within
    (hreach : Relation.ReflTransGen (CarriesWithin packet) h₀ h)
    (hfetch : tupleFetch uninit (packet ++ behind) fuel h.protocol h.off h.length =
      some (some (as, bs)))
    (hfetch' : tupleFetch uninit' (packet ++ behind') fuel' h.protocol h.off h.length =
      some (some (as', bs'))) :
    ∃ fuel fuel' a b a' b',
      tupleFetch uninit (packet ++ behind) fuel h₀.protocol h₀.off h₀.length =
        some (some (a, b)) ∧
      tupleFetch uninit' (packet ++ behind') fuel' h₀.protocol h₀.off h₀.length =
        some (some (a', b')) ∧
      (tupleCmp b b' = 0 → tupleCmp bs bs' = 0) := by
  induction hreach using Relation.ReflTransGen.head_induction_on with
  | refl => exact ⟨fuel, fuel', as, bs, as', bs', hfetch, hfetch', id⟩
  | head hcarries _ ih =>
    obtain ⟨fuel, fuel', a, b, a', b', hnext, hnext', hcmp⟩ := ih
    obtain ⟨x, y, hpush⟩ := @tupleFetch_of_carries uninit _ _ _ (hcarries behind)
    obtain ⟨x', y', hpush'⟩ := @tupleFetch_of_carries uninit' _ _ _ (hcarries behind')
    refine ⟨fuel + 1, fuel' + 1, x :: a, y :: b, x' :: a', y' :: b', ?_, ?_, ?_⟩
    · rw [hpush, hnext]
      rfl
    · rw [hpush', hnext']
      rfl
    · exact fun h => hcmp (tupleCmp_tail h)

/-- A UDP header that is not in the packet has this or that port. -/
theorem exists_behind_udp {off : ℕ} {length : ℤ} (hlen : ¬ sizeLt length 8)
    (hout : packet.length < off + 4) : ∃ behind behind' as bs as' bs',
      tupleFetch uninit (packet ++ behind) 1 IPPROTO_UDP off length = some (some (as, bs)) ∧
      tupleFetch uninit (packet ++ behind') 1 IPPROTO_UDP off length = some (some (as', bs')) ∧
      tupleCmp bs bs' ≠ 0 := by
  have hfetch : ∀ p : List UInt8, tupleFetch uninit p 1 IPPROTO_UDP off length =
      some (some ([.udp ⟨get16 p off⟩], [.udp ⟨get16 p (off + 2)⟩])) := fun p => if_neg hlen
  refine ⟨List.replicate (off + 4) 0, List.replicate (off + 4) 8, _, _, _, _, hfetch _, hfetch _,
    ?_⟩
  have hport : get16 (packet ++ List.replicate (off + 4) 0) (off + 2) ≠
      get16 (packet ++ List.replicate (off + 4) 8) (off + 2) := by
    refine get16_ne_of_get8_ne ?_
    rw [get8_append_replicate (by omega) (by omega), get8_append_replicate (by omega) (by omega)]
    decide
  simp [tupleCmp, hport]

/-- An ICMP header that is not in the packet has this or that type, or sequence number. -/
theorem exists_behind_icmp {off : ℕ} {length : ℤ} (hlen : ¬ sizeLt length 8)
    (hechoes : off < packet.length → IcmpEchoes (get8 packet off))
    (hout : packet.length < off + (⟨IPPROTO_ICMP, off, length⟩ : Header).size (packet ++ behind)) :
    ∃ behind behind' as bs as' bs',
      tupleFetch uninit (packet ++ behind) 1 IPPROTO_ICMP off length = some (some (as, bs)) ∧
      tupleFetch uninit (packet ++ behind') 1 IPPROTO_ICMP off length = some (some (as', bs')) ∧
      tupleCmp bs bs' ≠ 0 := by
  have hzero : ∀ i, packet.length ≤ i → i < off + 36 →
      get8 (packet ++ List.replicate (off + 36) 0) i = 0 :=
    fun i hle hlt => get8_append_replicate hle (by omega) 0
  have height : ∀ i, packet.length ≤ i → i < off + 36 →
      get8 (packet ++ List.replicate (off + 36) 8) i = 8 :=
    fun i hle hlt => get8_append_replicate hle (by omega) 8
  have htypes : IcmpEchoes (get8 (packet ++ List.replicate (off + 36) 0) off) ∧
      IcmpEchoes (get8 (packet ++ List.replicate (off + 36) 8) off) := by
    by_cases hoff : off < packet.length
    · rw [get8_append hoff, get8_append hoff]
      exact ⟨hechoes hoff, hechoes hoff⟩
    · rw [hzero off (by omega) (by omega), height off (by omega) (by omega)]
      exact ⟨.inr (.inl rfl), .inl rfl⟩
  refine ⟨_, _, _, _, _, _, tupleFetch_echoes hlen htypes.1 uninit 0,
    tupleFetch_echoes hlen htypes.2 uninit 0, ?_⟩
  by_cases hoff : off < packet.length
  · -- the sequence number
    have hseq : get16 (packet ++ List.replicate (off + 36) 0)
          (echoOff (get8 packet off) off + 2) ≠
        get16 (packet ++ List.replicate (off + 36) 8) (echoOff (get8 packet off) off + 2) := by
      rw [Header.size_icmp, get8_append hoff] at hout
      refine get16_ne_of_get8_ne ?_
      unfold echoOff
      split_ifs at hout ⊢ with htype
      · rw [hzero _ (by omega) (by omega), height _ (by omega) (by omega)]
        decide
      · rw [hzero _ (by omega) (by omega), height _ (by omega) (by omega)]
        decide
    simp only [get8_append hoff]
    simp [tupleCmp, hseq]
  · simp only [hzero off (by omega) (by omega), height off (by omega) (by omega)]
    simp [tupleCmp]

/-- **A header that is accepted and not in the packet** is another one with other octets behind the
packet. -/
theorem exists_behind {behind₀ : List UInt8}
    (hfetch : tupleFetch uninit (packet ++ behind₀) fuel h.protocol h.off h.length =
      some (some (as, bs)))
    (hbound : (h.off : ℤ) + h.length ≤ packet.length)
    (hechoes : h.protocol = IPPROTO_ICMP → h.off < packet.length →
      IcmpEchoes (get8 packet h.off))
    (hout : packet.length < h.off + h.size (packet ++ behind)) :
    ∃ behind behind' as bs as' bs',
      tupleFetch uninit (packet ++ behind) 1 h.protocol h.off h.length = some (some (as, bs)) ∧
      tupleFetch uninit (packet ++ behind') 1 h.protocol h.off h.length =
        some (some (as', bs')) ∧
      tupleCmp bs bs' ≠ 0 := by
  obtain ⟨protocol, off, length⟩ := h
  simp only at hfetch hbound hechoes hout ⊢
  -- the other lengths are tested
  have hlong : protocol ≠ IPPROTO_UDP → protocol ≠ IPPROTO_ICMP → ¬ 20 ≤ length := by
    intro hudp hicmp hlen
    simp only [Header.size, if_neg hudp, if_neg hicmp] at hout
    omega
  by_cases hip : protocol = IPPROTO_IP
  · subst hip
    obtain ⟨-, hsize, htot, -⟩ := tupleFetch_ip hfetch
    have hlen : 20 ≤ length := le_of_not_sizeLt hsize (le_trans (by omega) htot)
    exact absurd hlen (hlong (by decide) (by decide))
  by_cases htcp : protocol = IPPROTO_TCP
  · subst htcp
    exact absurd (tupleFetch_tcp hfetch).1 (hlong (by decide) (by decide))
  by_cases hudp : protocol = IPPROTO_UDP
  · subst hudp
    simp only [Header.size, if_true] at hout
    exact exists_behind_udp (tupleFetch_udp hfetch).1 hout
  by_cases hicmp : protocol = IPPROTO_ICMP
  · subst hicmp
    exact exists_behind_icmp (tupleFetch_icmp hfetch).1 (hechoes rfl) hout
  · cases fuel with
    | zero => cases hfetch
    | succ fuel => simp [tupleFetch, hip, htcp, hudp, hicmp] at hfetch

end

end

/-! ## The packets that determine their chains -/

section

variable {packet : List UInt8} {h : Header}

/-- A header that is come to whatever is behind the packet is known, if the packet determines its
chains. -/
theorem headerKnown_of_determined (hdet : Determined packet) (haccepted : PacketAccepted packet)
    (hwithin : Relation.ReflTransGen (CarriesWithin packet) ⟨IPPROTO_IP, 0, packet.length⟩ h)
    (behind : List UInt8) : HeaderKnown packet behind h := by
  obtain ⟨uninit, behind₀, fuel, c, hfetch⟩ := haccepted
  have hsame : SameHeaders packet packet := fun _ _ _ _ _ => rfl
  have hreach : ReachedIn (packet ++ behind₀) packet.length h :=
    Relation.ReflTransGen.mono (fun _ _ hcarries => hcarries behind₀) _ _ hwithin
  have hechoes : h.protocol = IPPROTO_ICMP → h.off < packet.length →
      IcmpEchoes (get8 packet h.off) := by
    intro hprotocol hoff
    by_contra hechoes
    rw [← get8_append hoff behind₀] at hechoes
    -- two memories of the tuples
    obtain ⟨a, b, hzero⟩ := exists_tupleFetch_of_accepted hfetch fun _ => (⟨0, 0, 0⟩, ⟨0, 0, 0⟩)
    obtain ⟨a', b', hone⟩ := exists_tupleFetch_of_accepted hfetch fun _ => (⟨0, 1, 0⟩, ⟨0, 1, 0⟩)
    have halike := (hdet packet hsame _ _ _ _ _ _ _ _ _ _ hzero hone).1
    refine tupleCmp_ne_zero_of_left hreach hprotocol hechoes ?_ hzero hone halike.tupleCmp
    decide
  have hinside : h.off + h.size (packet ++ behind) ≤ packet.length := by
    by_contra hout
    obtain ⟨behind₁, behind₂, as, bs, as', bs', hfetch₁, hfetch₂, hne⟩ :
        ∃ behind₁ behind₂ as bs as' bs',
          tupleFetch uninit (packet ++ behind₁) 1 h.protocol h.off h.length =
            some (some (as, bs)) ∧
          tupleFetch uninit (packet ++ behind₂) 1 h.protocol h.off h.length =
            some (some (as', bs')) ∧ tupleCmp bs bs' ≠ 0 := by
      obtain ⟨fuel', as, bs, hsub⟩ := exists_tupleFetch_of_reach hreach hfetch
      exact exists_behind hsub hreach.bound hechoes (not_le.1 hout)
    obtain ⟨fuel₁, fuel₂, a, b, a', b', hall₁, hall₂, hcmp⟩ :=
      exists_tupleFetch_of_within hwithin hfetch₁ hfetch₂
    exact hne (hcmp (hdet packet hsame _ _ _ _ _ _ _ _ _ _ hall₁ hall₂).2.1.tupleCmp)
  refine ⟨hinside, fun hprotocol => hechoes hprotocol ?_⟩
  have hsize := h.size_pos (packet ++ behind)
  omega

/-- **A packet determines its chains** exactly if every header of it is known. -/
theorem determined_iff (haccepted : PacketAccepted packet) :
    Determined packet ↔ ∀ behind h, ReachedIn (packet ++ behind) packet.length h →
      HeaderKnown packet behind h := by
  constructor
  · intro hdet behind h hreach
    -- the headers before a known one are come to whatever is behind the packet
    have hwithin :
        Relation.ReflTransGen (CarriesWithin packet) ⟨IPPROTO_IP, 0, packet.length⟩ h := by
      induction hreach with
      | refl => exact .refl
      | tail _ hcarries ih =>
        have hknown := headerKnown_of_determined hdet haccepted ih behind
        exact ih.tail fun behind' => hcarries.congr (sameOctets_append hknown.inside _ _)
    exact headerKnown_of_determined hdet haccepted hwithin behind
  · intro hknown q hsame behind behind' uninit uninit' fuel fuel' a b a' b' hfetch hfetch'
    have hheaders : ∀ h, ReachedIn (packet ++ behind) packet.length h →
        SameHeader uninit uninit' (packet ++ behind) (q ++ behind') h := by
      intro h hreach
      obtain ⟨hinside, hechoes⟩ := hknown behind h hreach
      refine ⟨fun k hk => ?_, fun hprotocol => Or.inl ?_⟩
      · exact get8_append_eq_of_getElem? (by omega) (hsame behind h hreach k hk) _ _
      · have hsize := h.size_pos (packet ++ behind)
        rw [get8_append (by omega)]
        exact hechoes hprotocol
    cases tupleFetch_eq_of_sameHeader hheaders hfetch hfetch'
    exact ⟨Alike.refl a, Alike.refl b, fun _ _ => rfl⟩

end

theorem determined_iff_portUnreachable : PacketAccepted (portUnreachable 7) ∧
    (Determined (portUnreachable 7) ↔ ∀ behind h,
      ReachedIn (portUnreachable 7 ++ behind) (portUnreachable 7).length h →
        HeaderKnown (portUnreachable 7) behind h) := by
  have haccepted : PacketAccepted (portUnreachable 7) :=
    ⟨fun _ => (⟨0, 0, 0⟩, ⟨0, 0, 0⟩), [], 4, portUnreachableChains 7 0, by decide +kernel⟩
  exact ⟨haccepted, determined_iff haccepted⟩

/-- Not every accepted packet determines its chains: a port unreachable message does not. -/
theorem determined_portUnreachable : ¬ ∀ packet, PacketAccepted packet → Determined packet := by
  intro h
  have hzero : tupleFetch (fun _ => (⟨0, 0, 0⟩, ⟨0, 0, 0⟩)) (portUnreachable 7 ++ []) 4 IPPROTO_IP 0
      (portUnreachable 7).length = some (some (portUnreachableChains 7 0)) := by
    decide +kernel
  have hone : tupleFetch (fun _ => (⟨0, 1, 0⟩, ⟨0, 1, 0⟩)) (portUnreachable 7 ++ []) 4 IPPROTO_IP 0
      (portUnreachable 7).length = some (some (portUnreachableChains 7 1)) := by
    decide +kernel
  have halike := h (portUnreachable 7) ⟨_, _, _, _, hzero⟩ (portUnreachable 7)
    (fun _ _ _ _ _ => rfl) _ _ _ _ _ _ _ _ _ _ hzero hone
  exact absurd halike.1.tupleCmp (by decide)

end Sweetspot
