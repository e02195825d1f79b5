import Sweetspot.Relay.Steps

/-!
# Which packets stop the daemon

The thread that receives packets goes on while the handlers return 0.  A handler that returns `-1`
takes the daemon down, and so does one that does not return.

* `InwardStops`, `OutwardStops`: a packet that stops the daemon: it cannot be read, its rule has an
  action that the switch does not have, or it is shaped and cannot be scheduled.
* `relay_returns_iff`: whatever happened before and whatever texts the filters were read from, the
  handlers return 0 for all other packets.
-/

namespace Sweetspot

/-! ## Packets of users -/

/-- Where a packet goes, and where it was going if that is another. -/
def inwardTarget (v : FilterVerdict) (dst : Chain) : Chain × Chain :=
  if ActionRedirects v.action then (natDstEndpointAssign v.dnatIp v.dnatPort dst, dst)
  else (dst, [])

/-- What source NAT makes of the source, the packet being matched and counted. -/
def inwardPublic (cfg : Config) (left : Leftover) (now : Timeval) (s : Relay) (src dst : Chain)
    (length : ℕ) : Option Chain :=
  let s := relayGauge cfg left now (relayFilterMatch cfg now s .inward src dst).1 src length .dirIn
  (s.natSrc.natSrcDo now.sec src).2

/-- A rule that stops the daemon: its action is unexpected, or it shapes, and the packet can be sent
but is scheduled with no chain, or cannot be scheduled. -/
inductive InwardRuleStops (cfg : Config) (left : Leftover) (now : Timeval) (s : Relay)
    (src dst : Chain) (packet : List UInt8) (v : FilterVerdict) : Prop
  | unexpected (haction : v.action = SW_FILTER_ACTION_BLOCK ||| SW_FILTER_ACTION_SHAPE)
  | untranslated (hshapes : ActionShapes v.action) (hnat : cfg.nat = none)
    (hcommit : Commits left src (inwardTarget v dst).1 [] (inwardTarget v dst).2 packet)
  | unscheduled (hshapes : ActionShapes v.action) (hnat : cfg.nat ≠ none) {nat : Chain}
    (hdo : inwardPublic cfg left now s src dst packet.length = some nat)
    (hcommit : Commits left nat (inwardTarget v dst).1 src (inwardTarget v dst).2 packet)
    (hfails : ScheduleFails now s .inward .shapeIn (iphSaddr packet 0) packet.length v.shapeRate)

/-- **A packet of a user that stops the daemon.** -/
def InwardStops (cfg : Config) (left : Leftover) (now : Timeval) (s : Relay)
    (packet : List UInt8) : Prop :=
  SelfCarried (left.buffer packet) packet.length ∨
    ∃ fuel src dst rule, Fetches left fuel packet src dst ∧
      MeetsRule cfg now s .inward src dst rule ∧
      InwardRuleStops cfg left now s src dst packet rule.verdict

section

variable {cfg : Config} {left : Leftover} {now : Timeval} {s : Relay} {packet : List UInt8}
  {fuel : ℕ} {src dst : Chain}

theorem rc_inwardTranslate (hs : s.natSrc.Congruent)
    (hfetch : tupleFetch left.icmp (left.buffer packet) fuel IPPROTO_IP 0 packet.length =
      some (some (src, dst)))
    {dst' odst : Chain} (hdst : SameProtocols dst dst') {rate : Option ℤ} :
    (inwardTranslate cfg left now s src dst' odst rate packet).rc = some 0 ↔
      ¬ ∃ r, rate = some r ∧
        ((cfg.nat = none ∧ Commits left src dst' [] odst packet) ∨
          (cfg.nat ≠ none ∧ ∃ nat, (s.natSrc.natSrcDo now.sec src).2 = some nat ∧
            Commits left nat dst' src odst packet ∧
            ScheduleFails now s .inward .shapeIn (iphSaddr packet 0) packet.length r)) := by
  obtain ⟨⟨prv, as, hsrc, hip⟩, -⟩ := fetched_begin hfetch
  unfold inwardTranslate
  cases hnat : cfg.nat with
  | none =>
    simp only [Option.isSome_none, Bool.false_eq_true, if_false]
    rw [rc_commitAndSend
      (tupleCommit_isSome _ (left.length_le_buffer packet) hfetch (.refl _) hdst _ _)]
    simp
  | some nat =>
    simp only [Option.isSome_some, if_true]
    have hshape : ∀ {pub}, (s.natSrc.natSrcDo now.sec src).2 = some pub → SameProtocols src pub :=
      fun h => NatSrc.sameProtocols_natSrcDo hs h
    generalize s.natSrc.natSrcDo now.sec src = res at hshape ⊢
    rcases res with ⟨n, _ | pub⟩
    · exact iff_of_true rfl (by simp)
    · dsimp only
      rw [rc_commitAndSend
        (tupleCommit_isSome _ (left.length_le_buffer packet) hfetch (hshape rfl) hdst _ _)]
      have hkept : s.ShaperKept (s.setNatSrc n) := ⟨rfl, rfl, rfl⟩
      subst hsrc
      simp [scheduleFails_iff hkept, hip, left.iphSaddr_buffer hfetch]

theorem inwardTarget_of_passes {v : FilterVerdict} (h : ActionPasses v.action) (dst : Chain) :
    inwardTarget v dst = (dst, []) :=
  if_neg h.not_redirects

theorem inwardTarget_of_redirects {v : FilterVerdict} (h : ActionRedirects v.action) (dst : Chain) :
    inwardTarget v dst = (natDstEndpointAssign v.dnatIp v.dnatPort dst, dst) :=
  if_pos h

/-- A rule that blocks does not stop it. -/
theorem InwardRuleStops.ne_block {v : FilterVerdict}
    (h : InwardRuleStops cfg left now s src dst packet v) : v.action ≠ SW_FILTER_ACTION_BLOCK := by
  cases h with
  | unexpected haction =>
    exact fun hblock => not_actionHandled_of_blockShape haction (Or.inr (Or.inr hblock))
  | untranslated hshapes => exact hshapes.ne_block
  | unscheduled hshapes => exact hshapes.ne_block

theorem sameProtocols_inwardTarget (v : FilterVerdict) (dst : Chain) :
    SameProtocols dst (inwardTarget v dst).1 := by
  unfold inwardTarget
  split_ifs
  · exact sameProtocols_natDstEndpointAssign _ _ _
  · exact .refl _

/-- A packet that goes on by a rule. -/
theorem rc_inwardGo (hs : s.Congruent)
    (hfetch : tupleFetch left.icmp (left.buffer packet) fuel IPPROTO_IP 0 packet.length =
      some (some (src, dst)))
    (natDst : NatDst) {v : FilterVerdict}
    (hgoes : ActionPasses v.action ∨ ActionRedirects v.action) :
    (inwardTranslate cfg left now
        (relayGauge cfg left now
          { (relayFilterMatch cfg now s .inward src dst).1 with natDst } src packet.length .dirIn)
        src (inwardTarget v dst).1 (inwardTarget v dst).2 v.rate packet).rc = some 0 ↔
      ¬ InwardRuleStops cfg left now s src dst packet v := by
  have hmatch := hs.kept (@relayFilterMatch_natKept cfg now s .inward src dst)
  have hgauge := hmatch.kept (@relayGauge_natKept cfg left now _ src packet.length .dirIn)
  have hkept := @counted_shaperKept cfg left now s .inward src dst src natDst packet.length .dirIn
  rw [rc_inwardTranslate (by rw [natSrc_relayGauge]; exact hgauge.src) hfetch
    (sameProtocols_inwardTarget v dst), not_iff_not]
  simp only [rate_eq_some_iff hgoes, natSrc_relayGauge, scheduleFails_iff hkept]
  constructor
  · rintro ⟨r, ⟨hshapes, rfl⟩, ⟨hnat, hcommit⟩ | ⟨hnat, nat, hdo, hcommit, hfails⟩⟩
    · exact .untranslated hshapes hnat hcommit
    · exact .unscheduled hshapes hnat hdo hcommit hfails
  · intro h
    cases h with
    | unexpected haction =>
      exact absurd (hgoes.imp_right Or.inl) (not_actionHandled_of_blockShape haction)
    | untranslated hshapes hnat hcommit =>
      exact ⟨_, ⟨hshapes, rfl⟩, Or.inl ⟨hnat, hcommit⟩⟩
    | unscheduled hshapes hnat hdo hcommit hfails =>
      exact ⟨_, ⟨hshapes, rfl⟩, Or.inr ⟨hnat, _, hdo, hcommit, hfails⟩⟩

/-- **The inward handler**, once it has the chains. -/
theorem rc_inwardRelay {net : NetDb} (hs : s.Congruent) (hparsed : cfg.FiltersParsed net)
    (hfetch : tupleFetch left.icmp (left.buffer packet) fuel IPPROTO_IP 0 packet.length =
      some (some (src, dst))) :
    (inwardRelay cfg left now s src dst packet).rc = some 0 ↔
      ¬ ∃ rule, MeetsRule cfg now s .inward src dst rule ∧
        InwardRuleStops cfg left now s src dst packet rule.verdict := by
  rcases hres : relayFilterMatch cfg now s .inward src dst with ⟨s₁, m⟩
  have hgo : ∀ natDst v, ActionPasses v.action ∨ ActionRedirects v.action →
      ((inwardTranslate cfg left now
          (relayGauge cfg left now { s₁ with natDst } src packet.length .dirIn)
          src (inwardTarget v dst).1 (inwardTarget v dst).2 v.rate packet).rc = some 0 ↔
        ¬ InwardRuleStops cfg left now s src dst packet v) := by
    intro natDst v hgoes
    rw [← rc_inwardGo hs hfetch natDst hgoes, hres]
  have hmeets : ∀ rule, MeetsRule cfg now s .inward src dst rule ↔
      ∃ rules, m = (1, rule :: rules) := by
    intro rule
    rw [MeetsRule, hres]
  simp only [inwardRelay_eq cfg left now hres, hmeets, Handled.after_rc, inwardDecide]
  refine rc_decideAction _ _ m (inwardDecided cfg left now s₁ packet) _ ?_ ?_ ?_ ?_ ?_ ?_
  · exact fun _ => rfl
  · have hmatch := hs.kept (@relayFilterMatch_natKept cfg now s .inward src dst)
    rw [hres] at hmatch
    have hgauge := hmatch.kept (@relayGauge_natKept cfg left now s₁ src packet.length .dirIn)
    exact (rc_inwardTranslate hgauge.src hfetch (.refl dst)).2 (by simp)
  · intro v hpass
    rw [← hgo s₁.natDst v (Or.inl hpass), inwardTarget_of_passes hpass]
    rfl
  · intro v hdnat
    rw [inwardRedirect_eq, ← hgo _ v (Or.inr hdnat), inwardTarget_of_redirects hdnat]
    rfl
  · exact fun _ h => h.ne_block
  · intro rule rules hm hunhandled
    have hparsed := MeetsRule.actionParsed hparsed ((hmeets rule).2 ⟨rules, hm⟩)
    exact .unexpected (not_not.1 fun hne => hunhandled ((actionHandled_iff hparsed).2 hne))

end

/-! ## Packets for users -/

/-- The chain of the user a packet is for, and the one it came with if that is another. -/
def outwardUndone (cfg : Config) (s : Relay) (dst : Chain) : Option (Chain × Chain) :=
  if cfg.nat.isSome then (s.natSrc.natSrcUndo dst).map (·, dst) else some (dst, [])

/-- Where a packet comes from once a redirection is undone, and where it came from if that is
another. -/
def outwardSource (s : Relay) (v : FilterVerdict) (src dst : Chain) : Option (Chain × Chain) :=
  if ActionRedirects v.action then (s.natDst.natDstUndo src dst).map (·, src) else some (src, [])

/-- A rule that stops the daemon: its action is unexpected, or it shapes, and the packet can be sent
but not scheduled. -/
inductive OutwardRuleStops (left : Leftover) (now : Timeval) (s : Relay)
    (src dst odst : Chain) (packet : List UInt8) (v : FilterVerdict) : Prop
  | unexpected (haction : v.action = SW_FILTER_ACTION_BLOCK ||| SW_FILTER_ACTION_SHAPE)
  | unscheduled (hshapes : ActionShapes v.action) {src' osrc as : Chain} {prv : TupleIp}
    (hsource : outwardSource s v src dst = some (src', osrc))
    (hcommit : Commits left src' dst osrc odst packet) (hdst : dst = .ip prv :: as)
    (hfails : ScheduleFails now s .outward .shapeOut prv.ip packet.length v.shapeRate)

/-- **A packet for a user that stops the daemon.** -/
def OutwardStops (cfg : Config) (left : Leftover) (now : Timeval) (s : Relay)
    (packet : List UInt8) : Prop :=
  SelfCarried (left.buffer packet) packet.length ∨
    ∃ fuel src org dst odst rule, Fetches left fuel packet src org ∧
      outwardUndone cfg s org = some (dst, odst) ∧ MeetsRule cfg now s .outward src dst rule ∧
      OutwardRuleStops left now s src dst odst packet rule.verdict

section

variable {cfg : Config} {left : Leftover} {now : Timeval} {s : Relay} {packet : List UInt8}
  {fuel : ℕ} {src org dst odst : Chain}

theorem OutwardRuleStops.ne_block {v : FilterVerdict}
    (h : OutwardRuleStops left now s src dst odst packet v) :
    v.action ≠ SW_FILTER_ACTION_BLOCK := by
  cases h with
  | unexpected haction =>
    exact fun hblock => not_actionHandled_of_blockShape haction (Or.inr (Or.inr hblock))
  | unscheduled hshapes => exact hshapes.ne_block

/-- A packet that goes on by a rule. -/
theorem rc_outwardGo {s₁ : Relay} (hkept : s.ShaperKept s₁)
    (hfetch : tupleFetch left.icmp (left.buffer packet) fuel IPPROTO_IP 0 packet.length =
      some (some (src, org)))
    (hdst : SameProtocols org dst) (hip : BeginsIp dst) {v : FilterVerdict}
    (hgoes : ActionPasses v.action ∨ ActionRedirects v.action) {src' osrc : Chain}
    (hsource : outwardSource s v src dst = some (src', osrc)) (hsrc : SameProtocols src src') :
    (commitAndSend left now s₁ .outward .shapeOut src' dst osrc odst dst v.rate packet).rc =
        some 0 ↔
      ¬ OutwardRuleStops left now s src dst odst packet v := by
  rw [rc_commitAndSend
    (tupleCommit_isSome _ (left.length_le_buffer packet) hfetch hsrc hdst _ _), not_iff_not]
  simp only [rate_eq_some_iff hgoes, scheduleFails_iff hkept]
  constructor
  · rintro ⟨r, ⟨hshapes, rfl⟩, hcommit, hnull | ⟨prv, as, hchain, hfails⟩⟩
    · obtain ⟨prv, as, rfl⟩ := hip
      cases hnull
    · exact .unscheduled hshapes hsource hcommit hchain hfails
  · intro h
    cases h with
    | unexpected haction =>
      exact absurd (hgoes.imp_right Or.inl) (not_actionHandled_of_blockShape haction)
    | unscheduled hshapes hsource' hcommit hchain hfails =>
      rw [hsource] at hsource'
      cases hsource'
      exact ⟨_, ⟨hshapes, rfl⟩, hcommit, Or.inr ⟨_, _, hchain, hfails⟩⟩

/-- **The outward handler**, once it has the chains of the user. -/
theorem rc_outwardFilter {net : NetDb} (hs : s.Congruent) (hparsed : cfg.FiltersParsed net)
    (hfetch : tupleFetch left.icmp (left.buffer packet) fuel IPPROTO_IP 0 packet.length =
      some (some (src, org)))
    (hdst : SameProtocols org dst) (hip : BeginsIp dst) :
    (outwardFilter cfg left now s src dst odst packet).rc = some 0 ↔
      ¬ ∃ rule, MeetsRule cfg now s .outward src dst rule ∧
        OutwardRuleStops left now s src dst odst packet rule.verdict := by
  have hnat := @relayFilterMatch_natKept cfg now s .outward src dst
  rcases hres : relayFilterMatch cfg now s .outward src dst with ⟨s₁, m⟩
  rw [hres] at hnat
  have hmeets : ∀ rule, MeetsRule cfg now s .outward src dst rule ↔
      ∃ rules, m = (1, rule :: rules) := by
    intro rule
    rw [MeetsRule, hres]
  have hkept : s.ShaperKept (relayGauge cfg left now s₁ dst packet.length .dirOut) := by
    have h :=
      @counted_shaperKept cfg left now s .outward src dst dst s₁.natDst packet.length .dirOut
    rw [hres] at h
    exact h
  simp only [outwardFilter_eq cfg left now hres, hmeets, Handled.after_rc, outwardDecide]
  refine rc_decideAction _ _ m (outwardDecided cfg left now s₁ packet) _ ?_ ?_ ?_ ?_ ?_ ?_
  · exact fun _ => rfl
  · exact (rc_commitAndSend
      (tupleCommit_isSome _ (left.length_le_buffer packet) hfetch (.refl src) hdst _ _)).2 (by simp)
  · intro v hpass
    exact rc_outwardGo hkept hfetch hdst hip (Or.inl hpass) (if_neg hpass.not_redirects) (.refl src)
  · intro v hdnat
    have hsource : outwardSource s v src dst = (s₁.natDst.natDstUndo src dst).map (·, src) := by
      rw [hnat.natDst]
      exact if_pos hdnat
    unfold outwardRedirect
    cases hundo : s₁.natDst.natDstUndo src dst with
    | none =>
      rw [hundo] at hsource
      refine iff_of_true rfl fun h => ?_
      cases h with
      | unexpected haction =>
        exact not_actionHandled_of_blockShape haction (Or.inr (Or.inl hdnat))
      | unscheduled _ hsource' =>
        rw [hsource] at hsource'
        cases hsource'
    | some nat =>
      rw [hundo] at hsource
      rw [hnat.natDst] at hundo
      exact rc_outwardGo hkept hfetch hdst hip (Or.inr hdnat) hsource
        (NatDst.sameProtocols_natDstUndo hs.dst hundo)
  · exact fun _ h => h.ne_block
  · intro rule rules hm hunhandled
    have hparsed := MeetsRule.actionParsed hparsed ((hmeets rule).2 ⟨rules, hm⟩)
    exact .unexpected (not_not.1 fun hne => hunhandled ((actionHandled_iff hparsed).2 hne))

/-- **The outward handler**, once it has the chains of the packet. -/
theorem rc_outwardRelay {net : NetDb} (hs : s.Congruent) (hparsed : cfg.FiltersParsed net)
    (hfetch : tupleFetch left.icmp (left.buffer packet) fuel IPPROTO_IP 0 packet.length =
      some (some (src, org))) :
    (outwardRelay cfg left now s src org packet).rc = some 0 ↔
      ¬ ∃ dst odst rule, outwardUndone cfg s org = some (dst, odst) ∧
        MeetsRule cfg now s .outward src dst rule ∧
        OutwardRuleStops left now s src dst odst packet rule.verdict := by
  -- the handler goes on with one chain, if any
  have hone : ∀ {dst odst}, outwardUndone cfg s org = some (dst, odst) →
      ((∃ dst odst rule, outwardUndone cfg s org = some (dst, odst) ∧
          MeetsRule cfg now s .outward src dst rule ∧
          OutwardRuleStops left now s src dst odst packet rule.verdict) ↔
        ∃ rule, MeetsRule cfg now s .outward src dst rule ∧
          OutwardRuleStops left now s src dst odst packet rule.verdict) := by
    intro dst odst hundone
    constructor
    · rintro ⟨dst', odst', rule, hundone', hstops⟩
      rw [hundone] at hundone'
      cases hundone'
      exact ⟨rule, hstops⟩
    · rintro ⟨rule, hstops⟩
      exact ⟨dst, odst, rule, hundone, hstops⟩
  unfold outwardRelay
  by_cases hnat : cfg.nat.isSome
  · rw [if_pos hnat]
    cases hundo : s.natSrc.natSrcUndo org with
    | none =>
      refine iff_of_true rfl ?_
      rintro ⟨dst, odst, rule, hundone, -⟩
      simp [outwardUndone, hnat, hundo] at hundone
    | some dst =>
      obtain ⟨hip, hshape⟩ := NatSrc.fits_natSrcUndo hs.src hundo
      have hundone : outwardUndone cfg s org = some (dst, org) := by
        simp [outwardUndone, hnat, hundo]
      rw [hone hundone]
      exact rc_outwardFilter hs hparsed hfetch hshape hip
  · rw [if_neg hnat, hone (if_neg hnat)]
    obtain ⟨-, prv, as, horg, -⟩ := fetched_begin hfetch
    exact rc_outwardFilter hs hparsed hfetch (.refl org) ⟨prv, as, horg⟩

end

/-! ## The handlers -/

/-- A handler returns 0 if the chains can be fetched, or cannot, and nothing stops it then. -/
theorem proc_returns_iff {left : Leftover} {s : Relay} {packet : List UInt8}
    (proc : ℕ → Option Handled) {relay : Chain → Chain → Handled} {stops : Chain → Chain → Prop}
    (hproc : ∀ fuel, proc fuel =
      if packet.length = 0 then some (.drop s)
      else
        match tupleFetch left.icmp (left.buffer packet) fuel IPPROTO_IP 0 packet.length with
        | none => none
        | some none => some (.drop s)
        | some (some (src, dst)) => some (relay src dst))
    (hrelay : ∀ fuel src dst,
      tupleFetch left.icmp (left.buffer packet) fuel IPPROTO_IP 0 packet.length =
          some (some (src, dst)) →
        ((relay src dst).rc = some 0 ↔ ¬ stops src dst)) :
    (∃ fuel r, proc fuel = some r ∧ r.rc = some 0) ↔
      ¬ (SelfCarried (left.buffer packet) packet.length ∨
        ∃ fuel src dst, Fetches left fuel packet src dst ∧ stops src dst) := by
  simp only [hproc]
  by_cases hlength : packet.length = 0
  · simp only [if_pos hlength]
    refine iff_of_true ⟨0, _, rfl, rfl⟩ ?_
    rintro (hself | ⟨fuel, src, dst, ⟨hne, -⟩, -⟩)
    · have htwenty := hself.twenty_le
      omega
    · exact hne hlength
  simp only [if_neg hlength]
  by_cases hself : SelfCarried (left.buffer packet) packet.length
  · -- no fetch returns
    refine iff_of_false ?_ (not_not.2 (Or.inl hself))
    rintro ⟨fuel, r, hr, -⟩
    cases hfetch : tupleFetch left.icmp (left.buffer packet) fuel IPPROTO_IP 0 packet.length with
    | none =>
      rw [hfetch] at hr
      cases hr
    | some c =>
      exact (tupleFetch_returns_iff left.icmp (left.buffer packet) packet.length).1
        ⟨fuel, c, hfetch⟩ hself
  -- all that do return the same
  obtain ⟨fuel, c, hfetch⟩ :=
    (tupleFetch_returns_iff left.icmp (left.buffer packet) packet.length).2 hself
  rcases c with _ | ⟨src, dst⟩
  · refine iff_of_true ⟨fuel, .drop s, by rw [hfetch], rfl⟩ ?_
    rintro (h | ⟨fuel', src, dst, ⟨-, hfetch'⟩, -⟩)
    · exact hself h
    · cases tupleFetch_unique hfetch hfetch'
  · constructor
    · rintro ⟨fuel', r, hr, hrc⟩ (h | ⟨fuel'', src', dst', ⟨-, hfetch'⟩, hstops⟩)
      · exact hself h
      cases tupleFetch_unique hfetch hfetch'
      cases hfetch'' : tupleFetch left.icmp (left.buffer packet) fuel' IPPROTO_IP 0
          packet.length with
      | none =>
        rw [hfetch''] at hr
        cases hr
      | some c =>
        cases tupleFetch_unique hfetch hfetch''
        rw [hfetch''] at hr
        cases hr
        exact (hrelay fuel src dst hfetch).1 hrc hstops
    · intro hnot
      refine ⟨fuel, relay src dst, by rw [hfetch], (hrelay fuel src dst hfetch).2 fun hstops => ?_⟩
      exact hnot (Or.inr ⟨fuel, src, dst, ⟨hlength, hfetch⟩, hstops⟩)

/-- **Which packets stop the daemon.**  Whatever happened before, and whatever texts the filters
were read from, the handlers return 0 for all others; and of the actions of such a text the switch
has all but that of a rule that blocks with a rate. -/
theorem relay_returns_iff {net : NetDb} {s₀ s : Relay} (hfresh : s₀.Fresh)
    (hrun : Relation.ReflTransGen RelayStep s₀ s) (cfg : Config) (hparsed : cfg.FiltersParsed net)
    (left : Leftover) (now : Timeval) (packet : List UInt8) :
    ((∃ fuel r, inwardProc cfg left now fuel s packet = some r ∧ r.rc = some 0) ↔
        ¬ InwardStops cfg left now s packet) ∧
      ((∃ fuel r, outwardProc cfg left now fuel s packet = some r ∧ r.rc = some 0) ↔
        ¬ OutwardStops cfg left now s packet) ∧
      ∀ idx f, cfg.filters idx = some f → ∀ r ∈ f.rulesetIn ++ f.rulesetOut,
        (ActionHandled r.verdict.action ↔
          r.verdict.action ≠ SW_FILTER_ACTION_BLOCK ||| SW_FILTER_ACTION_SHAPE) := by
  have hs := congruent_of_run hfresh hrun
  refine ⟨?_, ?_, fun idx f hf r hr => actionHandled_iff (hparsed.actionParsed hf r hr)⟩
  · refine (proc_returns_iff (inwardProc cfg left now · s packet) (fun _ => rfl)
      fun fuel src dst hfetch => rc_inwardRelay hs hparsed hfetch).trans ?_
    simp only [InwardStops, exists_and_left]
  · refine (proc_returns_iff (outwardProc cfg left now · s packet) (fun _ => rfl)
      fun fuel src dst hfetch => rc_outwardRelay hs hparsed hfetch).trans ?_
    simp only [OutwardStops, exists_and_left]

/-- No protocol has a name here, and no host an address. -/
def NetDb.empty : NetDb := ⟨fun _ => none, fun _ => 0⟩

/-- The filter of the only user is the text, if it is accepted. -/
def textConfig (text : String) : Config :=
  { oneUserConfig with
    filters := fun idx =>
      if idx.val = 0 then
        (filterParseRuleset .empty text.toList).toOption.map fun rules =>
          ⟨"anonymous", rules.1, rules.2⟩
      else none }

theorem textConfig_filtersParsed (text : String) : (textConfig text).FiltersParsed .empty := by
  intro idx f hf
  unfold textConfig at hf
  dsimp only at hf
  split at hf
  · cases hparse : filterParseRuleset .empty text.toList with
    | error e =>
      rw [hparse] at hf
      cases hf
    | ok rules =>
      rw [hparse] at hf
      cases hf
      exact ⟨text.toList, hparse⟩
  · cases hf

theorem relay_returns_iff_query :
    ((∃ fuel r, inwardProc (textConfig "pass in rate 64000") .zero ⟨0, 0⟩ fuel oneCaptiveRelay
          queryPacket = some r ∧ r.rc = some 0) ↔
        ¬ InwardStops (textConfig "pass in rate 64000") .zero ⟨0, 0⟩ oneCaptiveRelay queryPacket) ∧
      ((∃ fuel r, outwardProc (textConfig "pass in rate 64000") .zero ⟨0, 0⟩ fuel oneCaptiveRelay
          queryPacket = some r ∧ r.rc = some 0) ↔
        ¬ OutwardStops (textConfig "pass in rate 64000") .zero ⟨0, 0⟩ oneCaptiveRelay queryPacket) ∧
      ∀ idx f, (textConfig "pass in rate 64000").filters idx = some f →
        ∀ r ∈ f.rulesetIn ++ f.rulesetOut,
          (ActionHandled r.verdict.action ↔
            r.verdict.action ≠ SW_FILTER_ACTION_BLOCK ||| SW_FILTER_ACTION_SHAPE) :=
  @relay_returns_iff .empty oneCaptiveRelay oneCaptiveRelay ⟨rfl, rfl, rfl⟩ .refl
    (textConfig "pass in rate 64000") (textConfig_filtersParsed _) .zero ⟨0, 0⟩ queryPacket

/-- A packet does stop the daemon: here it meets a rule that blocks with a rate. -/
theorem relay_stopped :
    ¬ ∀ (net : NetDb) (s₀ s : Relay) (cfg : Config) (left : Leftover) (now : Timeval)
      (packet : List UInt8), s₀.Fresh → Relation.ReflTransGen RelayStep s₀ s →
      cfg.FiltersParsed net →
      (∀ fuel r, inwardProc cfg left now fuel s packet = some r → r.rc = some 0) ∧
        ∀ fuel r, outwardProc cfg left now fuel s packet = some r → r.rc = some 0 := by
  intro h
  have hstopped : ((inwardProc (textConfig "block in rate 64") .zero ⟨0, 0⟩ 2 oneCaptiveRelay
      queryPacket).map fun r => r.rc) = some (some (-1)) := by decide +kernel
  obtain ⟨r, hr, hrc⟩ := Option.map_eq_some_iff.1 hstopped
  have hzero := (h .empty oneCaptiveRelay oneCaptiveRelay (textConfig "block in rate 64") .zero
    ⟨0, 0⟩ queryPacket ⟨rfl, rfl, rfl⟩ .refl (textConfig_filtersParsed _)).1 2 r hr
  rw [hrc] at hzero
  cases hzero

end Sweetspot
