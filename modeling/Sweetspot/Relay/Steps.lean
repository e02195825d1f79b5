import Sweetspot.Relay.Attribution
import Sweetspot.Tuple.Returns

/-!
# What the steps of a handler survive

Both handlers switch on the decision of the filter, write the chains back and schedule the packet if
its rule shapes.

* `ScheduleFails`: a packet the scheduler does not survive, with `rc_shapeAndSend` and
  `rc_commitAndSend`.
* `actionHandled_iff`: which actions of a filter text the switch does not have.
* `rc_decideAction`: a handler returns 0 unless the rule that is met stops it.
* `ShaperKept`: what comes before does not touch the shaper.
-/

namespace Sweetspot

/-! ## The scheduler -/

/-- The scheduler fails on a packet of an address that is shaped: it divides by zero, or the clock
is so far ahead that the wait comes out negative, and the packet is to be put before the first
slot. -/
def ScheduleFails (now : Timeval) (s : Relay) (queueId : QueueId) (direction : ShapeDir)
    (ip : UInt32) (length : ℕ) (rate : ℤ) : Prop :=
  ∃ shc, s.shapeHash.retrieve ip = some shc ∧
    ((40 ≤ (length : ℤ) ∧ 0x80000000 ∣ rate) ∨
      ∃ p delay, (shc.params direction).schedule now length rate = some (p, delay) ∧
        (memgmtGetBuf s.memgmt length).2 ≠ none ∧
        (s.queues queueId).currTimePtr + delay.tdiv SW_SHAPE_QUEUE_PROCESS_FRQ < 0)

section

variable {cfg : Config} {left : Leftover} {now : Timeval} {s : Relay} {packet : List UInt8}

theorem rc_shapeAndSend_of_some {h : ShapeHash} {delay : ℤ} {queueId : QueueId}
    {direction : ShapeDir} {tupleChain : Chain} {rate : ℤ}
    (hschedule : shapeSchedule s.shapeHash now tupleChain packet.length rate direction =
      some (h, delay)) :
    (shapeAndSend now s queueId direction tupleChain rate packet).rc = some 0 ↔
      ¬ ((memgmtGetBuf s.memgmt packet.length).2 ≠ none ∧
        (s.queues queueId).currTimePtr + delay.tdiv SW_SHAPE_QUEUE_PROCESS_FRQ < 0) := by
  -- a wait of less than a millisecond is none
  have hsmall : ∀ d : ℤ, d.tdiv SW_SHAPE_QUEUE_PROCESS_FRQ = 0 →
      ¬ ((memgmtGetBuf s.memgmt packet.length).2 ≠ none ∧
        (s.queues queueId).currTimePtr + d.tdiv SW_SHAPE_QUEUE_PROCESS_FRQ < 0) := by
    rintro d hd ⟨-, hneg⟩
    omega
  unfold shapeAndSend
  rw [hschedule]
  dsimp only
  split_ifs with hzero herror
  · subst hzero
    exact iff_of_true rfl (hsmall 0 rfl)
  · subst herror
    exact iff_of_true rfl (hsmall (-1) rfl)
  · rcases memgmtGetBuf s.memgmt packet.length with ⟨m, _ | idx⟩
    · exact iff_of_true rfl fun h => h.1 rfl
    · dsimp only
      have hslot := shapeDelay_eq_none_iff (s.queues queueId) delay idx packet.length
      generalize shapeDelay (s.queues queueId) delay idx packet.length = res at hslot ⊢
      rcases res with _ | ⟨q, _ | _⟩
      · simp [Handled.crash, hslot.1 rfl]
      · exact iff_of_true rfl fun h => by simpa using hslot.2 h.2
      · exact iff_of_true rfl fun h => by simpa using hslot.2 h.2

/-- **What the shaper survives.** -/
theorem rc_shapeAndSend (queueId : QueueId) (direction : ShapeDir) (tupleChain : Chain) (rate : ℤ) :
    (shapeAndSend now s queueId direction tupleChain rate packet).rc = some 0 ↔
      ¬ (tupleChain = [] ∨ ∃ prv as, tupleChain = .ip prv :: as ∧
        ScheduleFails now s queueId direction prv.ip packet.length rate) := by
  cases hschedule : shapeSchedule s.shapeHash now tupleChain packet.length rate direction with
  | none =>
    refine iff_of_false (by simp [shapeAndSend, hschedule, Handled.crash]) ?_
    rw [not_not]
    rcases (shapeSchedule_eq_none_iff _ _ _ _ _ _).1 hschedule with
      hnull | ⟨⟨prv, as, hchain, hfound⟩, hdivision⟩
    · exact Or.inl hnull
    · obtain ⟨shc, hshc⟩ := Option.ne_none_iff_exists'.1 hfound
      exact Or.inr ⟨prv, as, hchain, shc, hshc, Or.inl hdivision⟩
  | some res =>
    obtain ⟨h, delay⟩ := res
    rw [rc_shapeAndSend_of_some hschedule, not_iff_not]
    -- an error is no wait either
    have herror : delay = -1 → ¬ ((memgmtGetBuf s.memgmt packet.length).2 ≠ none ∧
        (s.queues queueId).currTimePtr + delay.tdiv SW_SHAPE_QUEUE_PROCESS_FRQ < 0) := by
      rintro rfl ⟨-, hneg⟩
      have hsmall : (-1 : ℤ).tdiv SW_SHAPE_QUEUE_PROCESS_FRQ = 0 := rfl
      omega
    unfold shapeSchedule at hschedule
    split at hschedule
    · cases hschedule
    · rename_i prv as
      split at hschedule
      · rename_i hfound
        cases hschedule
        refine iff_of_false (herror rfl) ?_
        rintro (hnull | ⟨prv', as', hchain, shc, hshc, -⟩)
        · cases hnull
        · cases hchain
          rw [hfound] at hshc
          cases hshc
      · rename_i shc hfound
        obtain ⟨p, hclock⟩ : ∃ p, (shc.params direction).schedule now packet.length rate =
            some (p, delay) := by
          cases direction <;>
          · obtain ⟨⟨p, d⟩, hclock, heq⟩ := Option.map_eq_some_iff.1 hschedule
            cases heq
            exact ⟨p, hclock⟩
        constructor
        · exact fun hneg => Or.inr ⟨prv, as, rfl, shc, hfound, Or.inr ⟨p, delay, hclock, hneg⟩⟩
        · rintro (hnull | ⟨prv', as', hchain, shc', hfound', hfails⟩)
          · cases hnull
          cases hchain
          rw [hfound] at hfound'
          cases hfound'
          rcases hfails with hdivision | ⟨p', delay', hclock', hneg⟩
          · rw [(schedule_eq_none_iff _ _ _ _).2 hdivision] at hclock
            cases hclock
          · rw [hclock] at hclock'
            cases hclock'
            exact hneg
    · rename_i hchain
      cases hschedule
      refine iff_of_false (herror rfl) ?_
      rintro (hnull | ⟨prv, as, hip, -⟩)
      · cases hnull
      · cases hip
        exact hchain _ rfl

/-- **How a handler ends**, its chains being of the shape of those that were fetched. -/
theorem rc_commitAndSend {queueId : QueueId} {direction : ShapeDir}
    {src dst osrc odst shaped : Chain} {rate : Option ℤ}
    (hcommit : ∃ r, tupleCommit left.pseudoHdr none src ⟨none, dst⟩ ⟨none, osrc⟩ ⟨none, odst⟩
      (left.buffer packet) 0 packet.length = some r) :
    (commitAndSend left now s queueId direction src dst osrc odst shaped rate packet).rc = some 0 ↔
      ¬ ∃ r, rate = some r ∧ Commits left src dst osrc odst packet ∧
        (shaped = [] ∨ ∃ prv as, shaped = .ip prv :: as ∧
          ScheduleFails now s queueId direction prv.ip packet.length r) := by
  obtain ⟨⟨buffer, rc⟩, hcommit⟩ := hcommit
  -- the packet that goes on is as long as the one that came
  have hlength : (buffer.take packet.length).length = packet.length := by
    have hbuffer := left.length_le_buffer packet
    rw [← length_tupleCommit _ _ _ _ _ hcommit] at hbuffer
    rw [List.length_take]
    omega
  unfold commitAndSend Commits
  rw [hcommit]
  dsimp only
  by_cases hrc : rc = -1
  · rw [if_pos hrc]
    refine iff_of_true rfl ?_
    rintro ⟨r, -, ⟨_, _, heq, hne⟩, -⟩
    cases heq
    exact hne hrc
  · rw [if_neg hrc]
    cases rate with
    | none =>
      refine iff_of_true rfl ?_
      rintro ⟨r, hrate, -⟩
      cases hrate
    | some r =>
      dsimp only
      rw [Handled.after_rc, rc_shapeAndSend, hlength]
      simp [hrc]

/-! ## The switch -/

/-- Every loaded filter was read from a text. -/
def Config.FiltersParsed (cfg : Config) (net : NetDb) : Prop :=
  ∀ idx f, cfg.filters idx = some f →
    ∃ text, filterParseRuleset net text = .ok (f.rulesetIn, f.rulesetOut)

instance (action : ℕ) : Decidable (ActionRedirects action) :=
  inferInstanceAs (Decidable (_ ∨ _))

/-- The packet meets the rule. -/
def MeetsRule (cfg : Config) (now : Timeval) (s : Relay) (mode : MatchMode) (src dst : Chain)
    (rule : FilterRule) : Prop :=
  ∃ rules, (relayFilterMatch cfg now s mode src dst).2 = (1, rule :: rules)

/-- **Of the actions of a text** the switch has all but that of a rule that blocks with a rate. -/
theorem actionHandled_iff {action : ℕ} (h : FilterParser.ActionParsed action) :
    ActionHandled action ↔ action ≠ SW_FILTER_ACTION_BLOCK ||| SW_FILTER_ACTION_SHAPE := by
  rcases h with rfl | rfl | rfl | rfl | rfl | rfl | rfl <;>
    simp [ActionHandled, ActionPasses, ActionRedirects, SW_FILTER_ACTION_PASS,
      SW_FILTER_ACTION_BLOCK, SW_FILTER_ACTION_DNAT, SW_FILTER_ACTION_SHAPE]

theorem Config.FiltersParsed.actionParsed {net : NetDb} (h : cfg.FiltersParsed net)
    {idx : FilterSlot} {f : FilterSet} (hf : cfg.filters idx = some f) :
    ∀ r ∈ f.rulesetIn ++ f.rulesetOut, FilterParser.ActionParsed r.verdict.action := by
  obtain ⟨text, htext⟩ := h idx f hf
  exact actionParsed_of_filterParseRuleset htext

/-- A rule that is met was read from a text. -/
theorem MeetsRule.actionParsed {net : NetDb} (hparsed : cfg.FiltersParsed net) {mode : MatchMode}
    {src dst : Chain} {rule : FilterRule} (hrule : MeetsRule cfg now s mode src dst rule) :
    FilterParser.ActionParsed rule.verdict.action := by
  have hloaded : ∀ id, ∀ r ∈ filterGet cfg.filters mode id,
      FilterParser.ActionParsed r.verdict.action := by
    intro id r hr
    cases id with
    | none => cases hr
    | some idx =>
      unfold filterGet at hr
      dsimp only at hr
      cases hf : cfg.filters idx with
      | none =>
        rw [hf] at hr
        cases hr
      | some f =>
        rw [hf] at hr
        refine hparsed.actionParsed hf r ?_
        cases mode
        · exact List.mem_append_left _ hr
        · exact List.mem_append_right _ hr
  obtain ⟨rules, hm⟩ := hrule
  have hall : ∀ r ∈ (relayFilterMatch cfg now s mode src dst).2.2,
      FilterParser.ActionParsed r.verdict.action := by
    unfold relayFilterMatch
    dsimp only
    split <;> exact forall_filterMatch hloaded _ _ (by simp)
  rw [hm] at hall
  exact hall rule List.mem_cons_self

/-- The rate of a rule that goes on. -/
theorem rate_eq_some_iff {v : FilterVerdict}
    (h : ActionPasses v.action ∨ ActionRedirects v.action) {r : ℤ} :
    v.rate = some r ↔ ActionShapes v.action ∧ r = v.shapeRate := by
  rw [← rate_ne_none_iff h]
  unfold FilterVerdict.rate
  split_ifs <;> simp [eq_comm]

theorem not_actionHandled_of_blockShape {action : ℕ}
    (h : action = SW_FILTER_ACTION_BLOCK ||| SW_FILTER_ACTION_SHAPE) : ¬ ActionHandled action := by
  rw [actionHandled_iff (h ▸ Or.inr (Or.inr (Or.inr (Or.inr (Or.inr (Or.inl rfl)))))), not_not]
  exact h

/-- **What the switch comes to**, if `stops` says of every rule that goes on whether the handler
survives it. -/
theorem rc_decideAction (pass : Option ℤ → Decision) (dnat : FilterVerdict → Decision) (m : Matched)
    (go : Decision → Handled) (stops : FilterVerdict → Prop)
    (hret : ∀ rc, (go (.ret rc)).rc = some rc) (hunmatched : (go (pass none)).rc = some 0)
    (hpass : ∀ v, ActionPasses v.action → ((go (pass v.rate)).rc = some 0 ↔ ¬ stops v))
    (hdnat : ∀ v, ActionRedirects v.action → ((go (dnat v)).rc = some 0 ↔ ¬ stops v))
    (hblock : ∀ v, stops v → v.action ≠ SW_FILTER_ACTION_BLOCK)
    (hunexpected : ∀ rule rules, m = (1, rule :: rules) → ¬ ActionHandled rule.verdict.action →
      stops rule.verdict) :
    (go (decideAction pass dnat m)).rc = some 0 ↔
      ¬ ∃ rule, (∃ rules, m = (1, rule :: rules)) ∧ stops rule.verdict := by
  refine decideAction_iff (fun d => (go d).rc = some 0) stops hunmatched (hret 0) hpass hdnat hblock
    fun rule rules hm hunhandled => ?_
  refine iff_of_false ?_ (not_not.2 (hunexpected rule rules hm hunhandled))
  rw [hret]
  decide

/-! ## What is not touched before a packet is scheduled -/

/-- The shaper is as it was. -/
structure Relay.ShaperKept (s s' : Relay) : Prop where
  shapeHash : s'.shapeHash = s.shapeHash
  memgmt : s'.memgmt = s.memgmt
  queues : s'.queues = s.queues

theorem relayFilterMatch_shaperKept (mode : MatchMode) (src dst : Chain) :
    s.ShaperKept (relayFilterMatch cfg now s mode src dst).1 := by
  unfold relayFilterMatch
  split <;> exact ⟨rfl, rfl, rfl⟩

theorem relayGauge_shaperKept (tupleChain : Chain) (length : ℕ) (dir : GaugeDir) :
    s.ShaperKept (relayGauge cfg left now s tupleChain length dir) := by
  unfold relayGauge
  split <;> exact ⟨rfl, rfl, rfl⟩

/-- Matching and counting a packet, whatever destination NAT did. -/
theorem counted_shaperKept (mode : MatchMode) (src dst tupleChain : Chain) (natDst : NatDst)
    (length : ℕ) (dir : GaugeDir) :
    s.ShaperKept (relayGauge cfg left now
      { (relayFilterMatch cfg now s mode src dst).1 with natDst } tupleChain length dir) := by
  have hmatch := @relayFilterMatch_shaperKept cfg now s mode src dst
  have hgauge := @relayGauge_shaperKept cfg left now
    { (relayFilterMatch cfg now s mode src dst).1 with natDst } tupleChain length dir
  exact ⟨hgauge.shapeHash.trans hmatch.shapeHash, hgauge.memgmt.trans hmatch.memgmt,
    hgauge.queues.trans hmatch.queues⟩

theorem scheduleFails_iff {s' : Relay} (h : s.ShaperKept s') (queueId : QueueId)
    (direction : ShapeDir) (ip : UInt32) (length : ℕ) (rate : ℤ) :
    ScheduleFails now s' queueId direction ip length rate ↔
      ScheduleFails now s queueId direction ip length rate := by
  unfold ScheduleFails
  rw [h.shapeHash, h.memgmt, h.queues]

/-- Neither is the source NAT by the destination NAT. -/
theorem natSrc_relayGauge (natDst : NatDst) (tupleChain : Chain) (length : ℕ) (dir : GaugeDir) :
    (relayGauge cfg left now { s with natDst } tupleChain length dir).natSrc =
      (relayGauge cfg left now s tupleChain length dir).natSrc := by
  unfold relayGauge
  split <;> rfl

end

end Sweetspot
