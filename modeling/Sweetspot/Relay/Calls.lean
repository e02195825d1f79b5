import Sweetspot.Relay.Steps
import Sweetspot.Snat.Binding

/-!
# The relays, one packet after the other

What a call of a handler leaves behind, said once: which relation of the source NAT was used or
made, and what the packet that was sent was written from.

* `InwardDone`, `OutwardSent`: the calls of the handlers (`inwardProc_done`, `outwardProc_sent`).
* `RelayCall`, `RelayCall.Does`: whatever is done to the tables, by name.
* `SourceMoves`: what a call does to the tables of the source NAT.
* `relay_invariant`: they hold the same relations, each with memory of its own, after every run.
-/

namespace Sweetspot

/-! ## The switch -/

/-- The packet was matched by a rule that redirects it. -/
def Matched.Redirects (m : Matched) (v : FilterVerdict) : Prop :=
  ActionRedirects v.action ∧ ∃ rule, (∃ rules, m = (1, rule :: rules)) ∧ rule.verdict = v

/-- The relay redirects a packet with these chains. -/
def RedirectedBy (cfg : Config) (now : Timeval) (s : Relay) (mode : MatchMode) (src dst : Chain)
    (v : FilterVerdict) : Prop :=
  (relayFilterMatch cfg now s mode src dst).2.Redirects v

section

variable {natDst n : NatDst} {src dst odst src' dst' osrc odst' : Chain} {m : Matched}
  {rate : Option ℤ}

theorem Matched.not_redirects_of_unmatched (h : m.1 = 0) (v : FilterVerdict) : ¬ m.Redirects v := by
  rintro ⟨-, rule, ⟨rules, rfl⟩, -⟩
  cases h

theorem Matched.not_redirects_of_passes {rule : FilterRule} {rules : Ruleset}
    (hm : m = (1, rule :: rules)) (h : ActionPasses rule.verdict.action) (v : FilterVerdict) :
    ¬ m.Redirects v := by
  rintro ⟨haction, rule', ⟨rules', hm'⟩, rfl⟩
  rw [hm] at hm'
  cases hm'
  exact h.not_redirects haction

/-- The inward handler goes on with the source, and with the destination unless it is redirected. -/
theorem inwardDecide_go (h : inwardDecide natDst src dst m = .go n src' dst' osrc odst' rate) :
    src' = src ∧ (((∀ v, ¬ m.Redirects v) ∧ dst' = dst) ∨
      ∃ v, m.Redirects v ∧ dst' = natDstEndpointAssign v.dnatIp v.dnatPort dst) := by
  have hcases := decideAction_decided (.go natDst src dst [] []) (inwardRedirect natDst src dst) m
  rw [← inwardDecide, h] at hcases
  generalize hd : Decision.go n src' dst' osrc odst' rate = d at hcases
  cases hcases with
  | unmatched hrc =>
    cases hd
    exact ⟨rfl, Or.inl ⟨Matched.not_redirects_of_unmatched hrc, rfl⟩⟩
  | passed hm haction =>
    cases hd
    exact ⟨rfl, Or.inl ⟨Matched.not_redirects_of_passes hm haction, rfl⟩⟩
  | @redirected rule rules hm haction =>
    rw [inwardRedirect_eq] at hd
    cases hd
    exact ⟨rfl, Or.inr ⟨rule.verdict, ⟨haction, rule, ⟨rules, hm⟩, rfl⟩, rfl⟩⟩
  | dropped => cases hd
  | unexpected => cases hd

/-- The outward handler goes on with the destination, and with the source unless its redirection is
undone. -/
theorem outwardDecide_go
    (h : outwardDecide natDst src dst odst m = .go n src' dst' osrc odst' rate) :
    dst' = dst ∧ odst' = odst ∧ (((∀ v, ¬ m.Redirects v) ∧ src' = src) ∨
      (∃ v, m.Redirects v) ∧ natDst.natDstUndo src dst = some src') := by
  have hcases := decideAction_decided (.go natDst src dst [] odst)
    (outwardRedirect natDst src dst odst) m
  rw [← outwardDecide, h] at hcases
  generalize hd : Decision.go n src' dst' osrc odst' rate = d at hcases
  cases hcases with
  | unmatched hrc =>
    cases hd
    exact ⟨rfl, rfl, Or.inl ⟨Matched.not_redirects_of_unmatched hrc, rfl⟩⟩
  | passed hm haction =>
    cases hd
    exact ⟨rfl, rfl, Or.inl ⟨Matched.not_redirects_of_passes hm haction, rfl⟩⟩
  | @redirected rule rules hm haction =>
    unfold outwardRedirect at hd
    split at hd
    · cases hd
    · rename_i hundo
      cases hd
      exact ⟨rfl, rfl, Or.inr ⟨⟨rule.verdict, haction, rule, ⟨rules, hm⟩, rfl⟩, hundo⟩⟩
  | dropped => cases hd
  | unexpected => cases hd

end

/-! ## What the parts of a handler leave alone -/

/-- The same tables, and the same memory handed out for them; the endpoints may differ. -/
structure NatSrc.SameTables (n n' : NatSrc) : Prop where
  prvHash : n'.prvHash = n.prvHash
  pubHash : n'.pubHash = n.pubHash
  nextRid : n'.nextRid = n.nextRid

theorem NatSrc.SameTables.trans {n n' n'' : NatSrc} (h : n.SameTables n')
    (h' : n'.SameTables n'') : n.SameTables n'' :=
  ⟨h'.prvHash.trans h.prvHash, h'.pubHash.trans h.pubHash, h'.nextRid.trans h.nextRid⟩

section

variable {cfg : Config} {left : Leftover} {now : Timeval} {s : Relay} {packet packet' : List UInt8}

/-- Matching a packet may make a session, and nothing else. -/
theorem filterMatch_sameTables (mode : MatchMode) (src dst : Chain) :
    s.natSrc.SameTables (relayFilterMatch cfg now s mode src dst).1.natSrc := by
  unfold relayFilterMatch
  split <;> exact ⟨rfl, rfl, rfl⟩

/-- Matching and counting a packet, whatever destination NAT did. -/
theorem counted_sameTables (mode : MatchMode) (src dst tupleChain : Chain) (natDst : NatDst)
    (length : ℕ) (dir : GaugeDir) :
    s.natSrc.SameTables (relayGauge cfg left now { (relayFilterMatch cfg now s mode src dst).1 with
      natDst } tupleChain length dir).natSrc := by
  have hmatch := @filterMatch_sameTables cfg now s mode src dst
  refine hmatch.trans ?_
  unfold relayGauge
  split <;> exact ⟨rfl, rfl, rfl⟩

theorem commitAndSend_sameTables (queueId : QueueId) (direction : ShapeDir)
    (src dst osrc odst shaped : Chain) (rate : Option ℤ) :
    s.natSrc.SameTables (commitAndSend left now s queueId direction src dst osrc odst shaped rate
      packet).relay.natSrc := by
  have hkept := @commitAndSend_natKept left now s packet queueId direction src dst osrc odst shaped
    rate
  refine ⟨hkept.prvHash, hkept.pubHash, ?_⟩
  unfold commitAndSend
  split
  · rfl
  · split_ifs
    · rfl
    · split
      · rfl
      · rw [Handled.after_relay]
        unfold shapeAndSend
        split
        · rfl
        · dsimp only
          split_ifs
          · rfl
          · rfl
          · split
            · rfl
            · split <;> rfl

/-- The packet with the chains written back to it. -/
def WrittenBack (left : Leftover) (src dst osrc odst : Chain) (packet packet' : List UInt8) :
    Prop :=
  ∃ buffer rc, tupleCommit left.pseudoHdr none src ⟨none, dst⟩ ⟨none, osrc⟩ ⟨none, odst⟩
    (left.buffer packet) 0 packet.length = some (buffer, rc) ∧ rc ≠ -1 ∧
    packet' = buffer.take packet.length

/-- A packet that is sent at once was written back. -/
theorem sent_commitAndSend {queueId : QueueId} {direction : ShapeDir}
    {src dst osrc odst shaped : Chain} {rate : Option ℤ}
    (h : (commitAndSend left now s queueId direction src dst osrc odst shaped rate packet).sent =
      some packet') :
    WrittenBack left src dst osrc odst packet packet' := by
  unfold commitAndSend at h
  cases hcommit : tupleCommit left.pseudoHdr none src ⟨none, dst⟩ ⟨none, osrc⟩ ⟨none, odst⟩
    (left.buffer packet) 0 packet.length with
  | none =>
    rw [hcommit] at h
    cases h
  | some res =>
    obtain ⟨buffer, rc⟩ := res
    rw [hcommit] at h
    dsimp only at h
    by_cases hrc : rc = -1
    · rw [if_pos hrc] at h
      cases h
    rw [if_neg hrc] at h
    refine ⟨buffer, rc, hcommit, hrc, ?_⟩
    cases rate with
    | none =>
      cases h
      rfl
    | some rate =>
      change (shapeAndSend now s queueId direction shaped rate (buffer.take packet.length)).sent =
        some packet' at h
      unfold shapeAndSend at h
      split at h
      · cases h
      · dsimp only at h
        split_ifs at h
        · cases h
          rfl
        · cases h
        · split at h
          · cases h
          · split at h <;> cases h

/-! ## What the handlers did -/

/-- A packet of a user, once it is handled: source NAT was not asked, and with source NAT nothing is
sent; or it was asked for the source of the packet, and what is sent is the packet with what it said
for the source. -/
inductive InwardDone (cfg : Config) (left : Leftover) (now : Timeval) (fuel : ℕ) (s : Relay)
    (packet : List UInt8) (r : Handled) : Prop
  | kept (hkept : s.natSrc.SameTables r.relay.natSrc) (hsent : cfg.nat.isSome → r.sent = none)
  | asked {src dst dst' : Chain} {n n' : NatSrc} {pub : Option Chain}
    (hfetch : Fetches left fuel packet src dst)
    (htarget : ((∀ v, ¬ RedirectedBy cfg now s .inward src dst v) ∧ dst' = dst) ∨
      ∃ v, RedirectedBy cfg now s .inward src dst v ∧
        dst' = natDstEndpointAssign v.dnatIp v.dnatPort dst)
    (hn : s.natSrc.SameTables n) (hdo : n.natSrcDo now.sec src = (n', pub))
    (hn' : n'.SameTables r.relay.natSrc)
    (hsent : ∀ packet', r.sent = some packet' → ∃ pub' odst, pub = some pub' ∧
      WrittenBack left pub' dst' src odst packet packet')

theorem inwardRelay_done {fuel : ℕ} {src dst : Chain} (hfetch : Fetches left fuel packet src dst) :
    InwardDone cfg left now fuel s packet (inwardRelay cfg left now s src dst packet) := by
  have hfilter := @filterMatch_sameTables cfg now s .inward src dst
  have hcounted := @counted_sameTables cfg left now s .inward src dst src
  have hredirects : ∀ v, RedirectedBy cfg now s .inward src dst v ↔
      (relayFilterMatch cfg now s .inward src dst).2.Redirects v := fun _ => Iff.rfl
  rcases hres : relayFilterMatch cfg now s .inward src dst with ⟨s₁, m⟩
  rw [hres] at hfilter hcounted hredirects
  rw [inwardRelay_eq cfg left now hres]
  cases hd : inwardDecide s₁.natDst src dst m with
  | ret rc => exact .kept hfilter fun _ => rfl
  | go natDst src' dst' osrc odst rate =>
    obtain ⟨rfl, htarget⟩ := inwardDecide_go hd
    simp only [← hredirects] at htarget
    have htables := hcounted natDst packet.length .dirIn
    show InwardDone cfg left now fuel s packet ((Handled.after (.gauge src') (inwardTranslate cfg
      left now (relayGauge cfg left now { s₁ with natDst } src' packet.length .dirIn) src' dst' odst
      rate packet)).after _)
    generalize relayGauge cfg left now { s₁ with natDst } src' packet.length .dirIn = s₂
      at htables ⊢
    unfold inwardTranslate
    split_ifs with hnat
    · rcases hdo : s₂.natSrc.natSrcDo now.sec src' with ⟨n', pub⟩
      cases pub with
      | none =>
        refine .asked hfetch htarget htables hdo ⟨rfl, rfl, rfl⟩ fun packet' h => ?_
        cases h
      | some pub =>
        have hcommitted := @commitAndSend_sameTables left now (s₂.setNatSrc n') packet .inward
          .shapeIn pub dst' src' odst src' rate
        refine .asked hfetch htarget htables hdo hcommitted fun packet' h => ?_
        exact ⟨pub, odst, rfl, sent_commitAndSend h⟩
    · refine .kept (htables.trans (commitAndSend_sameTables _ _ _ _ _ _ _ _)) fun h => ?_
      exact absurd h hnat

/-- **A packet of a user** that is handled. -/
theorem inwardProc_done {fuel : ℕ} {r : Handled}
    (h : inwardProc cfg left now fuel s packet = some r) :
    InwardDone cfg left now fuel s packet r := by
  unfold inwardProc at h
  by_cases hlength : packet.length = 0
  · rw [if_pos hlength] at h
    cases h
    exact .kept ⟨rfl, rfl, rfl⟩ fun _ => rfl
  rw [if_neg hlength] at h
  split at h
  · cases h
  · cases h
    exact .kept ⟨rfl, rfl, rfl⟩ fun _ => rfl
  · rename_i src dst hfetch
    cases h
    exact inwardRelay_done ⟨hlength, hfetch⟩

/-- A packet for a user does not change the tables of the source NAT. -/
theorem outwardProc_sameTables {fuel : ℕ} {r : Handled}
    (h : outwardProc cfg left now fuel s packet = some r) :
    s.natSrc.SameTables r.relay.natSrc := by
  have hfilter : ∀ src dst odst,
      s.natSrc.SameTables (outwardFilter cfg left now s src dst odst packet).relay.natSrc := by
    intro src dst odst
    have hmatch := @filterMatch_sameTables cfg now s .outward src dst
    have hcounted := @counted_sameTables cfg left now s .outward src dst dst
    rcases hres : relayFilterMatch cfg now s .outward src dst with ⟨s₁, m⟩
    rw [hres] at hmatch hcounted
    rw [outwardFilter_eq cfg left now hres]
    cases hd : outwardDecide s₁.natDst src dst odst m with
    | ret rc => exact hmatch
    | go natDst src' dst' osrc odst' rate =>
      obtain ⟨rfl, -, -⟩ := outwardDecide_go hd
      exact (hcounted natDst packet.length .dirOut).trans (commitAndSend_sameTables _ _ _ _ _ _ _ _)
  unfold outwardProc at h
  by_cases hlength : packet.length = 0
  · rw [if_pos hlength] at h
    cases h
    exact ⟨rfl, rfl, rfl⟩
  rw [if_neg hlength] at h
  split at h
  · cases h
  · cases h
    exact ⟨rfl, rfl, rfl⟩
  · cases h
    unfold outwardRelay
    split_ifs
    · split
      · exact ⟨rfl, rfl, rfl⟩
      · exact hfilter _ _ _
    · exact hfilter _ _ _

/-- A packet for a user that was sent: source NAT knows its destination, and the packet was written
back with what it said, its source regained if its rule redirects. -/
structure OutwardSent (cfg : Config) (left : Leftover) (now : Timeval) (fuel : ℕ) (s : Relay)
    (packet packet' : List UInt8) (src dst nat : Chain) : Prop where
  fetches : Fetches left fuel packet src dst
  undone : s.natSrc.natSrcUndo dst = some nat
  written : ∃ src' osrc, (((∀ v, ¬ RedirectedBy cfg now s .outward src nat v) ∧ src' = src) ∨
      (∃ v, RedirectedBy cfg now s .outward src nat v) ∧
        s.natDst.natDstUndo src nat = some src') ∧
    WrittenBack left src' nat osrc dst packet packet'

/-- **A packet for a user** that is sent at once. -/
theorem outwardProc_sent {fuel : ℕ} {r : Handled} (hnat : cfg.nat.isSome)
    (h : outwardProc cfg left now fuel s packet = some r) (hsent : r.sent = some packet') :
    ∃ src dst nat, OutwardSent cfg left now fuel s packet packet' src dst nat := by
  unfold outwardProc at h
  by_cases hlength : packet.length = 0
  · rw [if_pos hlength] at h
    cases h
    cases hsent
  rw [if_neg hlength] at h
  split at h
  · cases h
  · cases h
    cases hsent
  · rename_i src dst hfetch
    cases h
    unfold outwardRelay at hsent
    rw [if_pos hnat] at hsent
    cases hundo : s.natSrc.natSrcUndo dst with
    | none =>
      rw [hundo] at hsent
      cases hsent
    | some nat =>
      rw [hundo] at hsent
      have hkept := @relayFilterMatch_natKept cfg now s .outward src nat
      have hredirects : ∀ v, RedirectedBy cfg now s .outward src nat v ↔
          (relayFilterMatch cfg now s .outward src nat).2.Redirects v := fun _ => Iff.rfl
      rcases hres : relayFilterMatch cfg now s .outward src nat with ⟨s₁, m⟩
      rw [hres] at hkept hredirects
      dsimp only at hsent
      rw [outwardFilter_eq cfg left now hres] at hsent
      refine ⟨src, dst, nat, ⟨hlength, hfetch⟩, hundo, ?_⟩
      cases hd : outwardDecide s₁.natDst src nat dst m with
      | ret rc =>
        rw [hd] at hsent
        cases hsent
      | go natDst src' dst' osrc odst rate =>
        rw [hd] at hsent
        obtain ⟨rfl, rfl, hsource⟩ := outwardDecide_go hd
        rw [hkept.natDst] at hsource
        simp only [← hredirects] at hsource
        exact ⟨src', osrc, hsource, sent_commitAndSend hsent⟩

end

/-! ## Calls -/

/-- What is done to the tables of the relays: a packet is handled, the relations of the source NAT
expire, or another part of the daemon does something. -/
inductive RelayCall
  | inward (cfg : Config) (left : Leftover) (now : Timeval) (fuel : ℕ) (packet : List UInt8)
  | outward (cfg : Config) (left : Leftover) (now : Timeval) (fuel : ℕ) (packet : List UInt8)
  | expire (now : ℤ)
  | others

/-- One call.  Expiry meets the relations in some order, and other parts leave the NAT tables
alone. -/
inductive RelayCall.Does : Relay → RelayCall → Relay → Prop
  | inward {s : Relay} {cfg : Config} {left : Leftover} {now : Timeval} {fuel : ℕ}
    {packet : List UInt8} {r : Handled} (h : inwardProc cfg left now fuel s packet = some r) :
    Does s (.inward cfg left now fuel packet) r.relay
  | outward {s : Relay} {cfg : Config} {left : Leftover} {now : Timeval} {fuel : ℕ}
    {packet : List UInt8} {r : Handled} (h : outwardProc cfg left now fuel s packet = some r) :
    Does s (.outward cfg left now fuel packet) r.relay
  | expire {s : Relay} {now : ℤ} {order : List Relation} (horder : order.Perm s.pubHash.items) :
    Does s (.expire now) (s.setNatSrc (s.natSrc.natSrcRelExpire now order))
  | others {s s' : Relay} (h : s.NatKept s') (hrid : s'.nextRid = s.nextRid) : Does s .others s'

/-- What a call comes to for the source NAT: nothing, or a call of its own. -/
inductive SourceMoves (s : Relay) : RelayCall → Relay → Prop
  | kept {c : RelayCall} {s' : Relay} (hc : ∀ now, c ≠ .expire now)
    (hkept : s.natSrc.SameTables s'.natSrc) : SourceMoves s c s'
  | asked {cfg : Config} {left : Leftover} {now : Timeval} {fuel : ℕ} {packet : List UInt8}
    {src dst : Chain} {n n' : NatSrc} {pub : Option Chain} {s' : Relay}
    (hfetch : Fetches left fuel packet src dst) (hn : s.natSrc.SameTables n)
    (hdo : n.natSrcDo now.sec src = (n', pub)) (hn' : n'.SameTables s'.natSrc) :
    SourceMoves s (.inward cfg left now fuel packet) s'
  | expired {now : ℤ} {order : List Relation} {s' : Relay} (horder : order.Perm s.pubHash.items)
    (hs' : s'.natSrc = s.natSrc.natSrcRelExpire now order) : SourceMoves s (.expire now) s'

theorem sourceMoves_of_does {s s' : Relay} {c : RelayCall} (h : c.Does s s') :
    SourceMoves s c s' := by
  cases h with
  | inward h =>
    cases inwardProc_done h with
    | kept hkept => exact .kept (fun now h => by cases h) hkept
    | asked hfetch _ hn hdo hn' => exact .asked hfetch hn hdo hn'
  | outward h => exact .kept (fun now h => by cases h) (outwardProc_sameTables h)
  | expire horder => exact .expired horder rfl
  | others h hrid => exact .kept (fun now h => by cases h) ⟨h.prvHash, h.pubHash, hrid⟩

/-! ## Runs -/

/-- The tables of the source NAT hold the same relations, each with memory of its own. -/
structure NatSrc.Paired (n : NatSrc) : Prop where
  agree : n.prvHash.Agree n.pubHash
  numbered : n.WellNumbered

theorem NatSrc.SameTables.paired {n n' : NatSrc} (h : n.SameTables n') (hn : n.Paired) :
    n'.Paired := by
  refine ⟨?_, ?_⟩
  · rw [h.prvHash, h.pubHash]
    exact hn.agree
  · unfold WellNumbered
    rw [h.prvHash, h.nextRid]
    exact hn.numbered

theorem NatSrc.SameTables.holds {n n' : NatSrc} (h : n.SameTables n') {p q : Chain} {t : ℤ}
    (hn : n.Holds p q t) : n'.Holds p q t := by
  unfold Holds
  rw [h.pubHash]
  exact hn

theorem NatSrc.Paired.step {n n' : NatSrc} {c : NatSrc.Call} (hstep : NatSrc.Step n c n')
    (hn : n.Paired) : n'.Paired :=
  ⟨agree_of_step hstep hn.agree, wellNumbered_of_step hstep hn.agree hn.numbered⟩

theorem paired_of_does {s s' : Relay} {c : RelayCall} (h : c.Does s s') (hs : s.natSrc.Paired) :
    s'.natSrc.Paired := by
  cases sourceMoves_of_does h with
  | kept _ hkept => exact hkept.paired hs
  | asked _ hn hdo hn' => exact hn'.paired ((hn.paired hs).step (.natDo hdo))
  | expired horder hs' => exact hs.step (.expire horder hs'.symm)

theorem relayStep_of_does {s s' : Relay} {c : RelayCall} (h : c.Does s s') : RelayStep s s' := by
  cases h with
  | inward h => exact .inward h
  | outward h => exact .outward h
  | expire _ => exact .expire _ _
  | others h _ => exact .others h

/-- **After every run** from no relations the tables are paired, and their chains fit. -/
theorem relay_invariant {s₀ s : Relay} {calls : List RelayCall} (hfresh : s₀.Fresh)
    (hrun : Run RelayCall.Does s₀ calls s) :
    s.natSrc.Paired ∧ s.Congruent := by
  refine hrun.invariant (P := fun s => s.natSrc.Paired ∧ s.Congruent) ?_ ?_
  · rintro s c s' hdoes ⟨hpaired, hcongruent⟩
    exact ⟨paired_of_does hdoes hpaired, relayStep_congruent (relayStep_of_does hdoes) hcongruent⟩
  · refine ⟨⟨?_, ?_, ?_⟩, congruent_of_fresh hfresh⟩
    · intro r
      show r ∈ s₀.prvHash ↔ r ∈ s₀.pubHash
      simp [hfresh.prvHash, hfresh.pubHash]
    · show ∀ r ∈ s₀.prvHash, _
      simp [hfresh.prvHash]
    · show ∀ r ∈ s₀.prvHash, _
      simp [hfresh.prvHash]

/-! ## The protected window -/

/-- The call does not read a clock, or one in the `ACTIVE_REL_PROTECT_SEC` seconds from `t` on. -/
def RelayCall.Within (t : ℤ) : RelayCall → Prop
  | inward _ _ now _ _ => t ≤ now.sec ∧ now.sec - t < ACTIVE_REL_PROTECT_SEC
  | expire now => t ≤ now ∧ now - t < ACTIVE_REL_PROTECT_SEC
  | outward _ _ _ _ _ => True
  | others => True

/-- A call in the window keeps a binding. -/
theorem holds_of_does {s s' : Relay} {c : RelayCall} (h : c.Does s s') (hs : s.natSrc.Paired)
    {p q : Chain} {t : ℤ} (ht : c.Within t) (hheld : s.natSrc.Holds p q t) :
    s'.natSrc.Holds p q t := by
  cases sourceMoves_of_does h with
  | kept _ hkept => exact hkept.holds hheld
  | asked _ hn hdo hn' =>
    exact hn'.holds (NatSrc.holds_of_step (.natDo hdo) (hn.paired hs).agree ht.1 ht.2
      (hn.holds hheld))
  | expired horder hs' =>
    exact NatSrc.holds_of_step (.expire horder hs'.symm) hs.agree ht.1 ht.2 hheld

/-- **Bindings outlive the window**, whatever is handled in it. -/
theorem holds_of_calls {s s' : Relay} {calls : List RelayCall}
    (hrun : Run RelayCall.Does s calls s') (hs : s.natSrc.Paired)
    {p q : Chain} {t : ℤ} (ht : ∀ c ∈ calls, c.Within t) (hheld : s.natSrc.Holds p q t) :
    s'.natSrc.Holds p q t := by
  induction hrun with
  | nil => exact hheld
  | cons hdoes hrun ih =>
    obtain ⟨htc, ht⟩ := List.forall_mem_cons.1 ht
    exact ih (paired_of_does hdoes hs) ht (holds_of_does hdoes hs htc hheld)

end Sweetspot
