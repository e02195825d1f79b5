import Sweetspot.Relay.Handlers
import Sweetspot.Snat.Binding
import Sweetspot.Tuple.Bounds

/-!
# What the NAT tables hold

Whatever the relays do, the chains of a relation are of one shape, and the private one begins with
an IP header: it was fetched from a packet.

* `SameProtocols`: chains that `sw_nat_tuple_cmp` calls equal are of one shape, and so are a chain
  and what source or destination NAT makes of it.
* `Congruent`: the invariant.
* `NatMoves`: what a handler can do to the tables.
* `RelayStep`, `congruent_of_run`: the invariant holds of every state reached.
-/

namespace Sweetspot

/-! ## Chains of one shape -/

theorem sameProtocols_iff (a b : Chain) :
    SameProtocols a b ↔ a.map TupleNode.protocol = b.map TupleNode.protocol := by
  rw [← List.forall₂_eq_eq_eq, List.forall₂_map_left_iff, List.forall₂_map_right_iff]
  rfl

namespace SameProtocols

variable {a b c : Chain}

@[refl] theorem refl (a : Chain) : SameProtocols a a := (sameProtocols_iff a a).2 rfl

@[symm] theorem symm (h : SameProtocols a b) : SameProtocols b a :=
  (sameProtocols_iff b a).2 ((sameProtocols_iff a b).1 h).symm

@[trans] theorem trans (hab : SameProtocols a b) (hbc : SameProtocols b c) : SameProtocols a c :=
  (sameProtocols_iff a c).2 (((sameProtocols_iff a b).1 hab).trans ((sameProtocols_iff b c).1 hbc))

end SameProtocols

theorem map_protocol_tupleImage (a : Chain) :
    (tupleImage a).map TupleNode.protocol = a.map TupleNode.protocol := by
  induction a with
  | nil => rfl
  | cons x as ih => cases x <;> simp [tupleImage, ih, TupleNode.protocol]

theorem map_protocol_natTupleImage (a : Chain) :
    (natTupleImage a).map TupleNode.protocol = a.map TupleNode.protocol := by
  induction a with
  | nil => rfl
  | cons x as ih =>
    cases x <;> simp [natTupleImage, ih, map_protocol_tupleImage, TupleNode.protocol]

/-- Chains that compare equal are of one shape. -/
theorem sameProtocols_of_natTupleCmp {a b : Chain} (h : natTupleCmp a b = 0) :
    SameProtocols a b := by
  rw [natTupleCmp_eq_zero_iff] at h
  rw [sameProtocols_iff, ← map_protocol_natTupleImage a, h, map_protocol_natTupleImage]

/-- Destination NAT keeps the shape. -/
theorem sameProtocols_natDstEndpointAssign (ip : UInt32) (port : UInt16) (a : Chain) :
    SameProtocols a (natDstEndpointAssign ip port a) := by
  induction a with
  | nil => exact .nil
  | cons x as ih => cases x <;> exact .cons rfl ih

/-- Source NAT keeps the shape. -/
theorem sameProtocols_endpointAssign {as bs pub : Chain} {prvIp : UInt32} {e : Endpoints}
    (h : (endpointAssign as bs prvIp e).2 = some pub) : SameProtocols as pub := by
  fun_induction endpointAssign as bs prvIp e generalizing pub with
  | case1 => cases h
  | case2 _ _ _ _ _ _ _ _ _ _ hrest ih =>
    rw [hrest] at ih
    obtain ⟨rest, hsome, rfl⟩ := Option.map_eq_some_iff.1 h
    exact .cons rfl (ih hsome)
  | case3 => cases h
  | case4 _ _ _ _ _ _ _ _ _ _ hrest ih =>
    rw [hrest] at ih
    obtain ⟨rest, hsome, rfl⟩ := Option.map_eq_some_iff.1 h
    exact .cons rfl (ih hsome)
  | case5 => cases h
  | case6 _ _ _ _ _ _ _ _ _ _ hrest ih =>
    rw [hrest] at ih
    obtain ⟨rest, hsome, rfl⟩ := Option.map_eq_some_iff.1 h
    exact .cons rfl (ih hsome)
  | case7 => cases h
  | case8 _ _ _ _ _ _ _ _ _ _ hrest ih =>
    rw [hrest] at ih
    obtain ⟨rest, hsome, rfl⟩ := Option.map_eq_some_iff.1 h
    exact .cons rfl (ih hsome)
  | case9 =>
    cases h
    exact .nil
  | case10 =>
    cases h
    exact .refl _
  | case11 => cases h

/-- The chain begins with an IP header. -/
def BeginsIp (a : Chain) : Prop := ∃ prv as, a = .ip prv :: as

/-- Fetched chains begin with IP headers: that of the source and that of the destination. -/
theorem fetched_begin {uninit : ℕ → TupleIcmp × TupleIcmp} {packet : List UInt8} {fuel : ℕ}
    {length : ℤ} {src dst : Chain}
    (h : tupleFetch uninit packet fuel IPPROTO_IP 0 length = some (some (src, dst))) :
    (∃ prv as, src = .ip prv :: as ∧ prv.ip = iphSaddr packet 0) ∧
      ∃ prv as, dst = .ip prv :: as ∧ prv.ip = iphDaddr packet 0 := by
  obtain ⟨-, -, -, as, bs, rfl, rfl, -⟩ := tupleFetch_ip h
  exact ⟨⟨_, _, rfl, rfl⟩, _, _, rfl, rfl⟩

/-- The header of a packet that is fetched is its own. -/
theorem Leftover.iphSaddr_buffer (left : Leftover) {packet : List UInt8} {fuel : ℕ}
    {src dst : Chain} (h : tupleFetch left.icmp (left.buffer packet) fuel IPPROTO_IP 0
      packet.length = some (some (src, dst))) :
    iphSaddr (left.buffer packet) 0 = iphSaddr packet 0 := by
  have hlength := le_of_not_sizeLt (tupleFetch_ip h).2.1 (by omega)
  exact (left.sameOctets_buffer packet).get32 (by omega)

/-! ## The invariant -/

/-- The chains of a relation of the source NAT. -/
structure Relation.Fits (r : Relation) : Prop where
  beginsIp : BeginsIp r.prv
  shape : SameProtocols r.prv r.pub

theorem Relation.Fits.touch {r : Relation} (h : r.Fits) (rid : ℕ) (now : ℤ) :
    (r.touch rid now).Fits := by
  refine ⟨?_, ?_⟩
  · rw [Relation.touch_prv]
    exact h.beginsIp
  · rw [Relation.touch_prv, Relation.touch_pub]
    exact h.shape

namespace NatSrc

/-- Every relation of the two tables fits. -/
structure Congruent (s : NatSrc) : Prop where
  prvFits : ∀ r ∈ s.prvHash, r.Fits
  pubFits : ∀ r ∈ s.pubHash, r.Fits

theorem sameProtocols_assignAttempts {attempts : ℕ} {s : NatSrc} {now : ℤ} {prv pub : Chain}
    {reused : Option ℕ} (h : (assignAttempts attempts s now prv).2 = some (pub, reused)) :
    SameProtocols prv pub := by
  induction attempts generalizing s with
  | zero => cases h
  | succ attempts ih =>
    have hshape : ∀ {pub}, (s.assign prv).2 = some pub → SameProtocols prv pub := fun hsome =>
      sameProtocols_endpointAssign hsome
    rcases hassign : s.assign prv with ⟨s₁, _ | pub'⟩
    · rw [assignAttempts_succ_of_none hassign] at h
      cases h
    · rw [assignAttempts_succ hassign] at h
      rw [hassign] at hshape
      split at h
      · cases h
        exact hshape rfl
      · split at h
        · exact ih h
        · cases h
          exact hshape rfl

/-- The public tuple has the shape of the private one. -/
theorem sameProtocols_natSrcDo {s : NatSrc} {now : ℤ} {prv pub : Chain} (hs : s.Congruent)
    (h : (s.natSrcDo now prv).2 = some pub) : SameProtocols prv pub := by
  cases hnew : s.prvHash.retrieve prv with
  | some r =>
    simp only [natSrcDo, prvLookup, hnew] at h
    cases h
    have hcmp : natTupleCmp r.prv prv = 0 := KeyedTable.comp_of_retrieve hnew
    exact (sameProtocols_of_natTupleCmp hcmp).symm.trans
      (hs.prvFits r (KeyedTable.mem_of_retrieve hnew)).shape
  | none =>
    rw [natSrcDo_of_new hnew] at h
    rcases hattempt : assignAttempts ASSIGN_RETRY_MAX s now prv with ⟨s₁, _ | ⟨pub', reused⟩⟩
    · rw [hattempt] at h
      cases h
    · rw [hattempt] at h
      cases h
      exact sameProtocols_assignAttempts (congrArg Prod.snd hattempt)

/-- The private tuple found behind a public one has its shape, and begins with an IP header. -/
theorem fits_natSrcUndo {s : NatSrc} {pub prv : Chain} (hs : s.Congruent)
    (h : s.natSrcUndo pub = some prv) : BeginsIp prv ∧ SameProtocols pub prv := by
  obtain ⟨r, hfound, rfl⟩ := Option.map_eq_some_iff.1 h
  have hr := hs.pubFits r (KeyedTable.mem_of_retrieve hfound)
  have hcmp : natTupleCmp r.pub pub = 0 := KeyedTable.comp_of_retrieve hfound
  exact ⟨hr.beginsIp, (sameProtocols_of_natTupleCmp hcmp).symm.trans hr.shape.symm⟩

/-- Source NAT keeps the invariant. -/
theorem Congruent.natSrcDo {s : NatSrc} (hs : s.Congruent) (now : ℤ) {prv : Chain}
    (hprv : BeginsIp prv) : (s.natSrcDo now prv).1.Congruent := by
  have hshape : ∀ {pub}, (s.natSrcDo now prv).2 = some pub → SameProtocols prv pub :=
    fun h => sameProtocols_natSrcDo hs h
  have hcases := natSrcDo_cases s now prv
  generalize s.natSrcDo now prv = res at hshape hcases ⊢
  obtain ⟨s', out⟩ := res
  cases hcases with
  | refreshed hheld hs' =>
    subst hs'
    refine ⟨?_, ?_⟩
    · intro x hx
      obtain ⟨r, hr, rfl⟩ := mem_touch_prvHash.1 hx
      exact (hs.prvFits r hr).touch _ _
    · intro x hx
      obtain ⟨r, hr, rfl⟩ := mem_touch_pubHash.1 hx
      exact (hs.pubFits r hr).touch _ _
  | failed h₁ h₂ h₃ => exact ⟨by rw [h₁]; exact hs.prvFits, by rw [h₂]; exact hs.pubFits⟩
  | @inserted r hnew hrid hrprv hrnow hfree h₁ h₂ h₃ =>
    have hfits : r.Fits := ⟨hrprv ▸ hprv, hrprv ▸ hshape rfl⟩
    refine ⟨?_, ?_⟩
    · rw [h₁]
      exact KeyedTable.forall_insert hs.prvFits hfits
    · rw [h₂]
      exact KeyedTable.forall_insert hs.pubFits hfits
  | @preempted r old hnew hrid hrprv hrnow hheld hage h₁ h₂ h₃ =>
    have hfits : r.Fits := ⟨hrprv ▸ hprv, hrprv ▸ hshape rfl⟩
    refine ⟨?_, ?_⟩
    · rw [h₁]
      exact KeyedTable.forall_insert (KeyedTable.forall_delete hs.prvFits _) hfits
    · rw [h₂]
      exact KeyedTable.forall_insert (KeyedTable.forall_delete hs.pubFits _) hfits

/-- So does an expiry pass. -/
theorem Congruent.natSrcRelExpire {s : NatSrc} (hs : s.Congruent) (now : ℤ)
    (order : List Relation) : (s.natSrcRelExpire now order).Congruent where
  prvFits r hr := hs.prvFits r (mem_natSrcRelExpire_prvHash.1 hr).1
  pubFits r hr := hs.pubFits r (mem_natSrcRelExpire_pubHash.1 hr).1

end NatSrc

/-- The chains of a relation of the destination NAT. -/
def NatDst.Congruent (s : NatDst) : Prop := ∀ r ∈ s.natHash, SameProtocols r.dst r.nat

namespace NatDst

theorem Congruent.recycle {s : NatDst} (hs : s.Congruent) : s.recycle.Congruent := by
  unfold NatDst.recycle
  split
  · exact hs
  · exact KeyedTable.forall_delete hs _

/-- Destination NAT keeps the invariant. -/
theorem Congruent.natDstDo {s : NatDst} (hs : s.Congruent) {src dst nat : Chain}
    (hshape : SameProtocols dst nat) : (s.natDstDo src dst nat).1.Congruent := by
  rcases natDstDo_cases s src dst nat with ⟨r, -, hsame⟩ | ⟨-, -, hnat⟩
  · rw [hsame]
    exact hs
  · unfold NatDst.Congruent
    rw [hnat]
    exact KeyedTable.forall_insert hs.recycle hshape

/-- What is found behind the source of a reply has its shape. -/
theorem sameProtocols_natDstUndo {s : NatDst} {nat dst org : Chain} (hs : s.Congruent)
    (h : s.natDstUndo nat dst = some org) : SameProtocols nat org := by
  obtain ⟨r, hfound, rfl⟩ := Option.map_eq_some_iff.1 h
  have hr := hs r (KeyedTable.mem_of_retrieve hfound)
  have hcmp := ((natRevComparator_comp _ _).1 (KeyedTable.comp_of_retrieve hfound)).2
  exact (sameProtocols_of_natTupleCmp hcmp).symm.trans hr.symm

end NatDst

namespace Relay

/-- **The invariant** of the NAT tables. -/
structure Congruent (s : Relay) : Prop where
  src : s.natSrc.Congruent
  dst : s.natDst.Congruent

/-- The NAT tables are as they were. -/
structure NatKept (s s' : Relay) : Prop where
  prvHash : s'.prvHash = s.prvHash
  pubHash : s'.pubHash = s.pubHash
  natDst : s'.natDst = s.natDst

theorem NatKept.trans {s s' s'' : Relay} (h : s.NatKept s') (h' : s'.NatKept s'') :
    s.NatKept s'' :=
  ⟨h'.prvHash.trans h.prvHash, h'.pubHash.trans h.pubHash, h'.natDst.trans h.natDst⟩

theorem Congruent.kept {s s' : Relay} (hs : s.Congruent) (h : s.NatKept s') : s'.Congruent where
  src := by
    refine ⟨?_, ?_⟩
    · show ∀ r ∈ s'.prvHash, r.Fits
      rw [h.prvHash]
      exact hs.src.prvFits
    · show ∀ r ∈ s'.pubHash, r.Fits
      rw [h.pubHash]
      exact hs.src.pubFits
  dst := by
    rw [h.natDst]
    exact hs.dst

theorem Congruent.setNatSrc {s : Relay} (hs : s.Congruent) {n : NatSrc} (hn : n.Congruent) :
    (s.setNatSrc n).Congruent where
  src := ⟨hn.prvFits, hn.pubFits⟩
  dst := hs.dst

theorem Congruent.setNatDst {s : Relay} (hs : s.Congruent) {n : NatDst} (hn : n.Congruent) :
    ({ s with natDst := n } : Relay).Congruent where
  src := hs.src
  dst := hn

end Relay

/-! ## The handlers keep it -/

section

variable {cfg : Config} {left : Leftover} {now : Timeval} {s : Relay} {packet : List UInt8}

theorem relayFilterMatch_natKept (mode : MatchMode) (src dst : Chain) :
    s.NatKept (relayFilterMatch cfg now s mode src dst).1 := by
  unfold relayFilterMatch
  split <;> exact ⟨rfl, rfl, rfl⟩

theorem relayGauge_natKept (tupleChain : Chain) (length : ℕ) (dir : GaugeDir) :
    s.NatKept (relayGauge cfg left now s tupleChain length dir) := by
  unfold relayGauge
  split <;> exact ⟨rfl, rfl, rfl⟩

theorem shapeAndSend_natKept (queueId : QueueId) (direction : ShapeDir) (tupleChain : Chain)
    (rate : ℤ) :
    s.NatKept (shapeAndSend now s queueId direction tupleChain rate packet).relay := by
  unfold shapeAndSend
  split
  · exact ⟨rfl, rfl, rfl⟩
  · dsimp only
    split_ifs
    · exact ⟨rfl, rfl, rfl⟩
    · exact ⟨rfl, rfl, rfl⟩
    · split
      · exact ⟨rfl, rfl, rfl⟩
      · split <;> exact ⟨rfl, rfl, rfl⟩

theorem commitAndSend_natKept (queueId : QueueId) (direction : ShapeDir)
    (src dst osrc odst shaped : Chain) (rate : Option ℤ) :
    s.NatKept
      (commitAndSend left now s queueId direction src dst osrc odst shaped rate packet).relay := by
  unfold commitAndSend
  split
  · exact ⟨rfl, rfl, rfl⟩
  · split_ifs
    · exact ⟨rfl, rfl, rfl⟩
    · split
      · exact ⟨rfl, rfl, rfl⟩
      · exact shapeAndSend_natKept _ _ _ _

/-- What the inward handler goes on with: the source chain is that of the packet, and the other one
may be redirected. -/
theorem inwardDecide_fits {natDst n : NatDst} {src dst src' dst' osrc odst : Chain} {m : Matched}
    {rate : Option ℤ} (hn : natDst.Congruent)
    (h : inwardDecide natDst src dst m = .go n src' dst' osrc odst rate) :
    n.Congruent ∧ src' = src ∧ SameProtocols dst dst' := by
  have hcases := decideAction_decided (.go natDst src dst [] []) (inwardRedirect natDst src dst) m
  rw [← inwardDecide, h] at hcases
  generalize hd : Decision.go n src' dst' osrc odst rate = d at hcases
  cases hcases with
  | unmatched =>
    cases hd
    exact ⟨hn, rfl, .refl _⟩
  | passed =>
    cases hd
    exact ⟨hn, rfl, .refl _⟩
  | @redirected rule =>
    rw [inwardRedirect_eq] at hd
    cases hd
    have hshape := sameProtocols_natDstEndpointAssign rule.verdict.dnatIp rule.verdict.dnatPort dst
    exact ⟨hn.natDstDo hshape, rfl, hshape⟩
  | dropped => cases hd
  | unexpected => cases hd

/-- What the outward handler goes on with: the redirection of the source chain may be undone. -/
theorem outwardDecide_fits {natDst n : NatDst} {src dst odst src' dst' osrc odst' : Chain}
    {m : Matched} {rate : Option ℤ} (hn : natDst.Congruent)
    (h : outwardDecide natDst src dst odst m = .go n src' dst' osrc odst' rate) :
    n = natDst ∧ dst' = dst ∧ SameProtocols src src' := by
  have hcases := decideAction_decided (.go natDst src dst [] odst)
    (outwardRedirect natDst src dst odst) m
  rw [← outwardDecide, h] at hcases
  generalize hd : Decision.go n src' dst' osrc odst' rate = d at hcases
  cases hcases with
  | unmatched =>
    cases hd
    exact ⟨rfl, rfl, .refl _⟩
  | passed =>
    cases hd
    exact ⟨rfl, rfl, .refl _⟩
  | redirected =>
    unfold outwardRedirect at hd
    split at hd
    · cases hd
    · rename_i hundo
      cases hd
      exact ⟨rfl, rfl, NatDst.sameProtocols_natDstUndo hn hundo⟩
  | dropped => cases hd
  | unexpected => cases hd

theorem inwardTranslate_congruent (hs : s.Congruent) {src : Chain} (hsrc : BeginsIp src)
    (dst odst : Chain) (rate : Option ℤ) :
    (inwardTranslate cfg left now s src dst odst rate packet).relay.Congruent := by
  unfold inwardTranslate
  split_ifs
  · have hn := hs.src.natSrcDo now.sec hsrc
    split
    · rename_i hdo
      rw [hdo] at hn
      exact hs.setNatSrc hn
    · rename_i hdo
      rw [hdo] at hn
      exact (hs.setNatSrc hn).kept (commitAndSend_natKept _ _ _ _ _ _ _ _)
  · exact hs.kept (commitAndSend_natKept _ _ _ _ _ _ _ _)

theorem inwardRelay_congruent (hs : s.Congruent) {src : Chain} (hsrc : BeginsIp src)
    (dst : Chain) : (inwardRelay cfg left now s src dst packet).relay.Congruent := by
  unfold inwardRelay
  have hmatch := hs.kept (@relayFilterMatch_natKept cfg now s .inward src dst)
  generalize relayFilterMatch cfg now s .inward src dst = res at hmatch ⊢
  obtain ⟨s₁, m⟩ := res
  dsimp only at hmatch ⊢
  rw [Handled.after_relay]
  split
  · exact hmatch
  · rename_i hgo
    obtain ⟨hn, rfl, -⟩ := inwardDecide_fits hmatch.dst hgo
    rw [Handled.after_relay]
    exact inwardTranslate_congruent
      ((hmatch.setNatDst hn).kept (relayGauge_natKept _ _ _)) hsrc _ _ _

theorem outwardFilter_congruent (hs : s.Congruent) (src dst odst : Chain) :
    (outwardFilter cfg left now s src dst odst packet).relay.Congruent := by
  unfold outwardFilter
  have hmatch := hs.kept (@relayFilterMatch_natKept cfg now s .outward src dst)
  generalize relayFilterMatch cfg now s .outward src dst = res at hmatch ⊢
  obtain ⟨s₁, m⟩ := res
  dsimp only at hmatch ⊢
  rw [Handled.after_relay]
  split
  · exact hmatch
  · rename_i hgo
    obtain ⟨rfl, -, -⟩ := outwardDecide_fits hmatch.dst hgo
    rw [Handled.after_relay]
    exact ((hmatch.setNatDst hmatch.dst).kept (relayGauge_natKept _ _ _)).kept
      (commitAndSend_natKept _ _ _ _ _ _ _ _)

/-- **A packet of a user** keeps the invariant. -/
theorem inwardProc_congruent (hs : s.Congruent) {fuel : ℕ} {r : Handled}
    (h : inwardProc cfg left now fuel s packet = some r) : r.relay.Congruent := by
  unfold inwardProc at h
  split_ifs at h
  · cases h
    exact hs
  · split at h
    · cases h
    · cases h
      exact hs
    · rename_i hfetch
      cases h
      obtain ⟨⟨prv, as, rfl, -⟩, -⟩ := fetched_begin hfetch
      exact inwardRelay_congruent hs ⟨prv, as, rfl⟩ _

/-- **A packet for a user** keeps the invariant. -/
theorem outwardProc_congruent (hs : s.Congruent) {fuel : ℕ} {r : Handled}
    (h : outwardProc cfg left now fuel s packet = some r) : r.relay.Congruent := by
  unfold outwardProc at h
  split_ifs at h
  · cases h
    exact hs
  · split at h
    · cases h
    · cases h
      exact hs
    · cases h
      unfold outwardRelay
      split_ifs
      · split
        · exact hs
        · exact outwardFilter_congruent hs _ _ _
      · exact outwardFilter_congruent hs _ _ _

end

/-! ## Runs -/

/-- What happens to the tables: a packet comes to a relay, under whatever configuration is loaded,
relations of the source NAT expire, or other parts of the daemon do something to the tables that are
not those of NAT. -/
inductive RelayStep : Relay → Relay → Prop
  | inward {s : Relay} {cfg : Config} {left : Leftover} {now : Timeval} {fuel : ℕ}
    {packet : List UInt8} {r : Handled} (h : inwardProc cfg left now fuel s packet = some r) :
    RelayStep s r.relay
  | outward {s : Relay} {cfg : Config} {left : Leftover} {now : Timeval} {fuel : ℕ}
    {packet : List UInt8} {r : Handled} (h : outwardProc cfg left now fuel s packet = some r) :
    RelayStep s r.relay
  | expire {s : Relay} (now : ℤ) (order : List Relation) :
    RelayStep s (s.setNatSrc (s.natSrc.natSrcRelExpire now order))
  | others {s s' : Relay} (h : s.NatKept s') : RelayStep s s'

/-- No relations yet. -/
structure Relay.Fresh (s : Relay) : Prop where
  prvHash : s.prvHash = ∅
  pubHash : s.pubHash = ∅
  natDst : s.natDst = NatDst.init

theorem congruent_of_fresh {s : Relay} (h : s.Fresh) : s.Congruent where
  src := by
    refine ⟨?_, ?_⟩
    · show ∀ r ∈ s.prvHash, r.Fits
      simp [h.prvHash]
    · show ∀ r ∈ s.pubHash, r.Fits
      simp [h.pubHash]
  dst := by
    intro r hr
    rw [h.natDst] at hr
    exact absurd hr (KeyedTable.not_mem_empty r)

theorem relayStep_congruent {s s' : Relay} (hstep : RelayStep s s') (hs : s.Congruent) :
    s'.Congruent := by
  cases hstep with
  | inward h => exact inwardProc_congruent hs h
  | outward h => exact outwardProc_congruent hs h
  | expire now order => exact hs.setNatSrc (hs.src.natSrcRelExpire now order)
  | others h => exact hs.kept h

/-- **The invariant holds of every state reached.** -/
theorem congruent_of_run {s₀ s : Relay} (hfresh : s₀.Fresh)
    (hrun : Relation.ReflTransGen RelayStep s₀ s) : s.Congruent := by
  induction hrun with
  | refl => exact congruent_of_fresh hfresh
  | tail _ hstep ih => exact relayStep_congruent hstep ih

end Sweetspot
