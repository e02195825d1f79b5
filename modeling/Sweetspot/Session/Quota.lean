import Sweetspot.Session.Metering

/-!
# Traffic quotas

A gauge counts what is accounted for its address from the moment it is made, and no request changes
its counters; the packet that crosses a limit ends the session.

* `GaugeMove`: what an operation can do to the counters of an address.
* `MeterOp`, `meterExec`, `meterExec_move`: what the daemon does, and deletions of gauges by
  themselves.
* `Totals.Counts`: the sums and the numbers of some lengths, modulo `2 ^ 64`.
* `gaugeUpdate_quota`: what a packet leaves of a gauge.
* `gauge_quota`: both for whole runs.
-/

namespace Sweetspot

namespace GaugeEntry

/-- Both counters are within their limits. -/
def WithinQuota (g : GaugeEntry) : Prop :=
  g.octetsIn ≤ g.maxOctetsIn ∧ g.octetsOut ≤ g.maxOctetsOut

/-- The test of a packet is exact. -/
theorem withinQuota_iff (g : GaugeEntry) : g.WithinQuota ↔ g.exhausted = false := by
  simp [WithinQuota, exhausted]

end GaugeEntry

namespace Controller

/-! ## The gauges are touched by few -/

section Gauges

variable (cfg : Config) (now : ℤ) (s : Controller) (ip : UInt32)

@[simp] theorem gauges_sessionDel : (sessionDel cfg s ip).gauges = s.gauges := by
  unfold sessionDel
  split <;> rfl

@[simp] theorem gauges_sessionNew : (sessionNew cfg now s ip).1.gauges = s.gauges := by
  unfold sessionNew
  cases s.sessions.retrieve ip with
  | some e => rfl
  | none =>
    simp only
    split
    · rfl
    · split
      · rfl
      · split
        · rfl
        · exact gauges_sessionDel cfg _ ip

@[simp] theorem gauges_startFound (e : SessionEntry) (filterName : String) (interimInterval : ℤ)
    (sessionContext eventContext : String) :
    (startFound cfg now s e filterName interimInterval sessionContext eventContext).1.gauges =
      s.gauges := by
  unfold startFound
  split
  · rfl
  · generalize (if interimInterval = 0 then cfg.acctInterimInterval else interimInterval) = interval
    dsimp only
    split <;> rfl

@[simp] theorem gauges_stopFound (e : SessionEntry) (filterName : Option String)
    (terminationCause : TermCause) (sessionContext eventContext : String) :
    (stopFound cfg now s e filterName terminationCause sessionContext eventContext).1.gauges =
      s.gauges := by
  unfold stopFound
  by_cases hreleased : e.state = .released
  · simp only [hreleased, if_true]
    split <;> rfl
  · simp only [hreleased, if_false]
    split <;> rfl

@[simp] theorem gauges_sessionStart (filterName : String) (interimInterval : ℤ)
    (sessionContext eventContext : String) :
    (sessionStart cfg now s ip filterName interimInterval sessionContext eventContext).1.gauges =
      s.gauges := by
  have hnew := gauges_sessionNew cfg now s ip
  unfold sessionStart
  generalize sessionNew cfg now s ip = r at hnew ⊢
  rcases r with ⟨s', _ | e⟩
  · exact hnew
  · exact (gauges_startFound cfg now s' e _ _ _ _).trans hnew

@[simp] theorem gauges_sessionStop (filterName : Option String) (terminationCause : TermCause)
    (sessionContext eventContext : String) :
    (sessionStop cfg now s ip filterName terminationCause sessionContext eventContext).1.gauges =
      s.gauges := by
  have hnew := gauges_sessionNew cfg now s ip
  unfold sessionStop
  generalize sessionNew cfg now s ip = r at hnew ⊢
  rcases r with ⟨s', _ | e⟩
  · exact hnew
  · exact (gauges_stopFound cfg now s' e _ _ _ _).trans hnew

@[simp] theorem gauges_acquireStateid : (acquireStateid s ip).gauges = s.gauges := by
  unfold acquireStateid
  split <;> rfl

@[simp] theorem gauges_uamRetention (stateid retention : ℤ) :
    (uamRetention s ip stateid retention).1.gauges = s.gauges := by
  have hserved := uamRetention_outcome s ip stateid retention
  generalize uamRetention s ip stateid retention = r at hserved ⊢
  cases hserved with
  | refused => rfl
  | @served s' h =>
    cases h with
    | kept hpos => exact gauges_acquireStateid s ip
    | stored h hpos => exact gauges_acquireStateid _ ip

@[simp] theorem gauges_expireSessionCb : (expireSessionCb cfg now s ip).gauges = s.gauges := by
  unfold expireSessionCb
  cases s.sessions.retrieve ip with
  | none => rfl
  | some e =>
    cases hstate : e.state with
    | captured =>
      simp only [hstate]
      split
      · exact gauges_sessionDel cfg s ip
      · rfl
    | released =>
      simp only [hstate]
      split <;> rfl

end Gauges

/-! ## The counters of an address -/

/-- What the gauge of an address shows, if it has one. -/
def shown (s : Controller) (ip : UInt32) : Option Totals :=
  (s.gauges.retrieve ip).map GaugeEntry.totals

/-- What becomes of the counters of an address: the gauge goes, or it stays and they are charged, or
one is made that shows nothing. -/
inductive GaugeMove (charge : Totals → Totals) : Option Totals → Option Totals → Prop
  | gone (before : Option Totals) : GaugeMove charge before none
  | kept (t : Totals) : GaugeMove charge (some t) (some (charge t))
  | made : GaugeMove charge none (some .zero)

/-- A charge to one address is none to the others. -/
def chargeAt (ip : UInt32) (charge : Totals → Totals) (ip' : UInt32) : Totals → Totals :=
  if ip' = ip then charge else id

@[simp] theorem chargeAt_id (ip ip' : UInt32) : chargeAt ip id ip' = id := by
  unfold chargeAt
  split <;> rfl

section Moves

variable {cfg : Config} {s s' : Controller} {ip : UInt32}

theorem GaugeMove.rfl (before : Option Totals) : GaugeMove id before before := by
  cases before with
  | none => exact .gone none
  | some t => exact .kept t

/-- Afterwards the gauge may still go. -/
theorem GaugeMove.of_gone {charge : Totals → Totals} {before after after' : Option Totals}
    (h : GaugeMove charge before after) (hafter : after' = after ∨ after' = none) :
    GaugeMove charge before after' := by
  rcases hafter with rfl | rfl
  · exact h
  · exact .gone before

theorem shown_congr (h : s'.gauges = s.gauges) (ip : UInt32) : shown s' ip = shown s ip := by
  rw [shown, shown, h]

theorem shown_insert {g : GaugeEntry} (hip : g.ip = ip) (h : s'.gauges = s.gauges.insert g)
    (ip' : UInt32) : shown s' ip' = if ip' = ip then some g.totals else shown s ip' := by
  rw [shown, h, retrieve_insert, hip]
  by_cases hip' : ip' = ip
  · rw [if_pos hip', if_pos hip'.symm, Option.map_some]
  · rw [if_neg hip', if_neg (Ne.symm hip'), shown]

theorem shown_gaugeDel_or (s : Controller) (ip ip' : UInt32) :
    shown (gaugeDel s ip) ip' = shown s ip' ∨ shown (gaugeDel s ip) ip' = none := by
  rw [shown, gaugeDel, retrieve_delete]
  split
  · exact .inr rfl
  · exact .inl rfl

/-- A gauge is made. -/
theorem move_of_absent {g : GaugeEntry} (h : s.gauges.retrieve ip = none) (hip : g.ip = ip)
    (htotals : g.totals = .zero) (hs' : s'.gauges = s.gauges.insert g) (ip' : UInt32) :
    GaugeMove id (shown s ip') (shown s' ip') := by
  rw [shown_insert hip hs']
  by_cases hip' : ip' = ip
  · rw [if_pos hip', hip', htotals, shown, h]
    exact .made
  · rw [if_neg hip']
    exact .rfl _

/-- A gauge changes its counters. -/
theorem move_of_present {g g' : GaugeEntry} {charge : Totals → Totals}
    (h : s.gauges.retrieve ip = some g) (hip : g'.ip = ip) (htotals : g'.totals = charge g.totals)
    (hs' : s'.gauges = s.gauges.insert g') (ip' : UInt32) :
    GaugeMove (chargeAt ip charge ip') (shown s ip') (shown s' ip') := by
  rw [shown_insert hip hs', chargeAt]
  by_cases hip' : ip' = ip
  · rw [if_pos hip', if_pos hip', hip', htotals, shown, h]
    exact .kept g.totals
  · rw [if_neg hip', if_neg hip']
    exact .rfl _

theorem move_of_missing (h : s.gauges.retrieve ip = none) (charge : Totals → Totals)
    (ip' : UInt32) : GaugeMove (chargeAt ip charge ip') (shown s ip') (shown s ip') := by
  rw [chargeAt]
  by_cases hip' : ip' = ip
  · rw [if_pos hip', hip', shown, h]
    exact .gone none
  · rw [if_neg hip']
    exact .rfl _

theorem gaugeNew_move (now : ℤ) (s : Controller) (ip : UInt32) (max : GaugeLimits)
    (ip' : UInt32) : GaugeMove id (shown s ip') (shown (gaugeNew now s ip max) ip') := by
  unfold gaugeNew
  cases h : s.gauges.retrieve ip with
  | none => exact move_of_absent h rfl rfl rfl ip'
  | some g =>
    have hmove := @move_of_present s { s with gauges := s.gauges.insert (g.limit max) } ip g _ id h
      ((GaugeEntry.limit_ip g max).trans (entry_key h)) (GaugeEntry.limit_totals g max) rfl ip'
    rwa [chargeAt_id] at hmove

/-- Starting a session leaves the counters alone, and so does what a request does afterwards. -/
theorem uamUp_move (now : ℤ) (s : Controller) (ip : UInt32) (stateid : ℤ) (filterName : String)
    (interimInterval : ℤ) (max : GaugeLimits) (sessionContext eventContext : String)
    (ip' : UInt32) :
    GaugeMove id (shown s ip') (shown (uamUp cfg now s ip stateid filterName interimInterval max
      sessionContext eventContext).1 ip') := by
  have hnew := gaugeNew_move now s ip max ip'
  unfold uamUp
  split
  · dsimp only
    have hstart := gauges_sessionStart cfg now
      (shapeNew (gaugeNew now s ip max) ip max.maxBpsIn max.maxBpsOut) ip filterName
      interimInterval sessionContext eventContext
    generalize sessionStart cfg now _ ip filterName interimInterval sessionContext eventContext = r
      at hstart ⊢
    rcases r with ⟨s', _ | _⟩
    · have hshown : shown s' ip' = shown (gaugeNew now s ip max) ip' := shown_congr hstart ip'
      exact hnew.of_gone (hshown ▸ shown_gaugeDel_or s' ip ip')
    · have hshown : shown (acquireStateid s' ip) ip' = shown (gaugeNew now s ip max) ip' :=
        shown_congr ((gauges_acquireStateid s' ip).trans hstart) ip'
      exact hnew.of_gone (.inl hshown)
  · exact .rfl _

theorem uamDown_move (now : ℤ) (s : Controller) (ip : UInt32) (stateid : ℤ)
    (filterName sessionContext eventContext : String) (ip' : UInt32) :
    GaugeMove id (shown s ip') (shown (uamDown cfg now s ip stateid filterName sessionContext
      eventContext).1 ip') := by
  unfold uamDown
  split
  · have hstop := gauges_sessionStop cfg now s ip (some filterName) .user sessionContext
      eventContext
    generalize sessionStop cfg now s ip (some filterName) .user sessionContext eventContext = r
      at hstop ⊢
    rcases r with ⟨s', _ | _⟩
    · exact GaugeMove.of_gone (.rfl _) (.inl (shown_congr hstop ip'))
    · have hshown : shown (acquireStateid (gaugeDel s' ip) ip) ip' = shown (gaugeDel s' ip) ip' :=
        shown_congr (gauges_acquireStateid _ ip) ip'
      have hdel := shown_gaugeDel_or s' ip ip'
      rw [shown_congr hstop ip'] at hdel
      exact GaugeMove.of_gone (.rfl _) (hshown ▸ hdel)
  · exact .rfl _

/-- After a gauge was changed, it may stop its session and go. -/
theorem move_of_cut {charge : Totals → Totals} {now : ℤ} {ip' : UInt32}
    (h : GaugeMove charge (shown s ip') (shown s' ip')) (cut : Bool)
    (terminationCause : TermCause) :
    GaugeMove charge (shown s ip') (shown
      (if cut then gaugeDel (sessionStop cfg now s' ip none terminationCause "" "").1 ip
        else s') ip') := by
  cases cut with
  | false => exact h
  | true =>
    have hdel := shown_gaugeDel_or
      (sessionStop cfg now s' ip none terminationCause "" "").1 ip ip'
    rw [shown_congr (gauges_sessionStop cfg now s' ip _ _ _ _)] at hdel
    exact h.of_gone hdel

/-- A packet is charged to its address. -/
theorem gaugeUpdate_move (now : ℤ) (s : Controller) (ip : UInt32) (octets : UInt64)
    (dir : GaugeDir) (ip' : UInt32) :
    GaugeMove (chargeAt ip (Totals.count · dir octets) ip') (shown s ip')
      (shown (gaugeUpdate cfg now s ip octets dir) ip') := by
  unfold gaugeUpdate
  cases h : s.gauges.retrieve ip with
  | none => exact move_of_missing h _ ip'
  | some g =>
    have hip : (g.count dir octets now).ip = ip :=
      (GaugeEntry.count_ip g dir octets now).trans (entry_key h)
    exact move_of_cut (move_of_present h hip (GaugeEntry.count_totals g dir octets now) rfl ip') _ _

theorem expireGaugeCb_move (now : ℤ) (s : Controller) (ip ip' : UInt32) :
    GaugeMove id (shown s ip') (shown (expireGaugeCb cfg now s ip) ip') := by
  unfold expireGaugeCb
  cases h : s.gauges.retrieve ip with
  | none => exact .rfl _
  | some g =>
    have hip : (g.probe cfg.gaugeRateInterval now).ip = ip :=
      (GaugeEntry.probe_ip g cfg.gaugeRateInterval now).trans (entry_key h)
    have htotals : (g.probe cfg.gaugeRateInterval now).totals = id g.totals :=
      GaugeEntry.probe_totals g cfg.gaugeRateInterval now
    have hmove := @move_of_present s
      { s with gauges := s.gauges.insert (g.probe cfg.gaugeRateInterval now) } ip g _ id h hip
      htotals rfl ip'
    rw [chargeAt_id] at hmove
    exact move_of_cut hmove _ _

end Moves

end Controller

/-! ## Runs -/

/-- What happens to the gauges: an event, or the deletion of one by itself. -/
inductive MeterOp
  | event (ev : Event)
  | gaugeDel (ip : UInt32)

namespace Controller

/-- Doing it. -/
def meterExec (cfg : Config) (s : Controller) : MeterOp → Controller
  | .event ev => exec cfg s ev
  | .gaugeDel ip => gaugeDel s ip

/-- One operation of a run. -/
def MeterStep (cfg : Config) (s : Controller) (op : MeterOp) (s' : Controller) : Prop :=
  s' = meterExec cfg s op

end Controller

/-- The packet an operation accounts for an address: its direction and its length. -/
def MeterOp.packet (ip : UInt32) : MeterOp → Option (GaugeDir × UInt64)
  | .event ⟨_, .account ip' octets dir⟩ => if ip = ip' then some (dir, octets) else none
  | _ => none

/-- The lengths of the packets accounted for an address in a direction. -/
def accounted (ip : UInt32) (ops : List MeterOp) (dir : GaugeDir) : List UInt64 :=
  ops.filterMap fun op => (op.packet ip).bind fun p => if p.1 = dir then some p.2 else none

theorem accounted_concat (ip : UInt32) (ops : List MeterOp) (op : MeterOp) (dir : GaugeDir) :
    accounted ip (ops ++ [op]) dir = accounted ip ops dir ++
      (((op.packet ip).bind fun p => if p.1 = dir then some p.2 else none).toList) := by
  rw [accounted, List.filterMap_append]
  rfl

namespace Totals

/-- The octets in a direction. -/
def octets (t : Totals) : GaugeDir → UInt64
  | .dirIn => t.octetsIn
  | .dirOut => t.octetsOut

/-- The packets in a direction. -/
def packets (t : Totals) : GaugeDir → UInt64
  | .dirIn => t.packetsIn
  | .dirOut => t.packetsOut

/-- In each direction the sum and the number of some lengths, modulo `2 ^ 64`. -/
def Counts (t : Totals) (lengths : GaugeDir → List UInt64) : Prop :=
  ∀ dir, (t.octets dir).toNat = ((lengths dir).map UInt64.toNat).sum % 2 ^ 64 ∧
    (t.packets dir).toNat = (lengths dir).length % 2 ^ 64

theorem counts_zero : Totals.zero.Counts fun _ => [] := by
  intro dir
  cases dir <;> exact ⟨rfl, rfl⟩

theorem octets_count (t : Totals) (dir dir' : GaugeDir) (n : UInt64) :
    (t.count dir n).octets dir' = if dir = dir' then t.octets dir' + n else t.octets dir' := by
  cases dir <;> cases dir' <;> rfl

theorem packets_count (t : Totals) (dir dir' : GaugeDir) (n : UInt64) :
    (t.count dir n).packets dir' = if dir = dir' then t.packets dir' + 1 else t.packets dir' := by
  cases dir <;> cases dir' <;> rfl

/-- One operation more, and the packet it accounts. -/
theorem Counts.charge {t : Totals} {ip : UInt32} {ops : List MeterOp}
    (h : t.Counts (accounted ip ops)) (op : MeterOp) :
    ((op.packet ip).elim t fun p => t.count p.1 p.2).Counts (accounted ip (ops ++ [op])) := by
  intro dir
  obtain ⟨hoctets, hpackets⟩ := h dir
  rw [accounted_concat]
  rcases op.packet ip with _ | ⟨dir', n⟩
  · simpa using h dir
  · simp only [Option.elim_some, Option.bind_some, octets_count, packets_count]
    by_cases hdir : dir' = dir
    · simp only [hdir, if_true, Option.toList_some, List.map_append, List.map_cons, List.map_nil,
        List.sum_append, List.sum_singleton, List.length_append, List.length_singleton,
        UInt64.toNat_add, hoctets, hpackets]
      constructor
      · rw [Nat.mod_add_mod]
      · exact Nat.mod_add_mod _ _ _
    · simpa [hdir] using h dir

end Totals

namespace Controller

variable {cfg : Config} {s s' : Controller} {ip : UInt32}

/-- What an operation does to the counters of an address. -/
theorem meterExec_move (op : MeterOp) (s : Controller) (ip : UInt32) :
    GaugeMove (fun t => (op.packet ip).elim t fun p => t.count p.1 p.2) (shown s ip)
      (shown (meterExec cfg s op) ip) := by
  have hsame : ∀ s', s'.gauges = s.gauges → GaugeMove id (shown s ip) (shown s' ip) := by
    intro s' h
    rw [shown_congr h]
    exact .rfl _
  cases op with
  | gaugeDel ip' => exact GaugeMove.of_gone (.rfl _) (shown_gaugeDel_or s ip' ip)
  | event ev =>
    obtain ⟨now, op⟩ := ev
    cases op with
    | account ip' octets dir =>
      have hmove := @gaugeUpdate_move cfg now s ip' octets dir ip
      unfold MeterOp.packet
      by_cases hip : ip = ip'
      · rw [chargeAt, if_pos hip] at hmove
        simp only [if_pos hip]
        exact hmove
      · rw [chargeAt, if_neg hip] at hmove
        simp only [if_neg hip]
        exact hmove
    | lookup ip' =>
      show GaugeMove id _ (shown (exec cfg s _) ip)
      rw [exec_lookup]
      exact hsame _ (gauges_sessionNew cfg now s ip')
    | status ip' =>
      show GaugeMove id _ (shown (exec cfg s _) ip)
      rw [exec_status]
      exact hsame _ (gauges_sessionNew cfg now s ip')
    | start ip' filterName interimInterval sessionContext eventContext =>
      exact hsame _ (gauges_sessionStart cfg now s ip' _ _ _ _)
    | stop ip' filterName terminationCause sessionContext eventContext =>
      exact hsame _ (gauges_sessionStop cfg now s ip' _ _ _ _)
    | retention ip' stateid retention => exact hsame _ (gauges_uamRetention s ip' _ _)
    | up ip' stateid filterName interimInterval max sessionContext eventContext =>
      exact uamUp_move now s ip' _ _ _ _ _ _ ip
    | down ip' stateid filterName sessionContext eventContext =>
      exact uamDown_move now s ip' _ _ _ _ ip
    | expireGauge ip' => exact expireGaugeCb_move now s ip' ip
    | expireSession ip' => exact hsame _ (gauges_expireSessionCb cfg now s ip')
    | commit finalFlag accepts => exact hsame _ rfl

/-- The gauge of the address was made by the operation after `pre`, and was there ever since. -/
structure MadeBy (cfg : Config) (ip : UInt32) (pre : List MeterOp) (op : MeterOp)
    (post : List MeterOp) : Prop where
  absent : ∀ s, Run (MeterStep cfg) init pre s → s.gauges.retrieve ip = none
  present : ∀ mid rest s, post = mid ++ rest →
    Run (MeterStep cfg) init (pre ++ op :: mid) s → (s.gauges.retrieve ip).isSome

theorem meterStep_det (s : Controller) (op : MeterOp) (s₁ s₂ : Controller)
    (h₁ : MeterStep cfg s op s₁) (h₂ : MeterStep cfg s op s₂) : s₁ = s₂ :=
  h₁.trans h₂.symm

theorem MadeBy.concat {pre post : List MeterOp} {op op' : MeterOp}
    (h : MadeBy cfg ip pre op post) (hrun : Run (MeterStep cfg) init (pre ++ op :: post ++ [op']) s)
    (hs : (s.gauges.retrieve ip).isSome) : MadeBy cfg ip pre op (post ++ [op']) := by
  refine ⟨h.absent, ?_⟩
  intro mid rest s' heq hrun'
  rcases List.eq_nil_or_concat rest with rfl | ⟨rest, last, rfl⟩
  · rw [List.append_nil] at heq
    subst heq
    rw [List.append_assoc, List.cons_append] at hrun
    rw [Run.unique meterStep_det hrun' hrun]
    exact hs
  · have heq' : post ++ [op'] = (mid ++ rest) ++ [last] := by simpa using heq
    exact h.present mid rest s' (List.append_inj' heq' rfl).1 hrun'

/-- A gauge shows what was accounted since it was made. -/
theorem shown_counts {ops : List MeterOp} (hrun : Run (MeterStep cfg) init ops s) {t : Totals}
    (ht : shown s ip = some t) :
    ∃ pre op post, ops = pre ++ op :: post ∧ MadeBy cfg ip pre op post ∧
      t.Counts (accounted ip post) := by
  refine hrun.history (P := fun ops s => ∀ t, shown s ip = some t → ∃ pre op post,
    ops = pre ++ op :: post ∧ MadeBy cfg ip pre op post ∧ t.Counts (accounted ip post)) ?_ ?_ t ht
  · intro t ht
    cases ht
  · intro ops s op s' hrun ih hstep t ht
    have hrun' : Run (MeterStep cfg) init (ops ++ [op]) s' := Run.concat_iff.2 ⟨s, hrun, hstep⟩
    have hsome : (s'.gauges.retrieve ip).isSome := by
      rw [← Option.isSome_map, show Option.map _ _ = some t from ht]
      rfl
    have hmove := @meterExec_move cfg op s ip
    rw [show meterExec cfg s op = s' from hstep.symm, ht] at hmove
    generalize hbefore : shown s ip = before at hmove
    cases hmove with
    | kept t =>
      obtain ⟨pre, op₀, post, rfl, hmade, hcounts⟩ := ih t hbefore
      exact ⟨pre, op₀, post ++ [op], by simp, hmade.concat hrun' hsome, hcounts.charge op⟩
    | made =>
      refine ⟨ops, op, [], rfl, ⟨?_, ?_⟩, Totals.counts_zero⟩
      · intro s₁ hrun₁
        rw [Run.unique meterStep_det hrun₁ hrun]
        exact Option.map_eq_none_iff.1 hbefore
      · intro mid rest s₁ hnil hrun₁
        obtain ⟨rfl, -⟩ := List.append_eq_nil_iff.1 hnil.symm
        rw [Run.unique meterStep_det hrun₁ hrun']
        exact hsome

/-- **The packet that crosses a limit ends the session.**  A packet that finds a gauge leaves it
within its quota, or leaves no gauge and no released session. -/
theorem gaugeUpdate_quota {now : ℤ} {octets : UInt64} {dir : GaugeDir}
    (hs : (s.gauges.retrieve ip).isSome) (hs' : s' = gaugeUpdate cfg now s ip octets dir) :
    (∃ g, s'.gauges.retrieve ip = some g ∧ g.WithinQuota) ∨
      s'.gauges.retrieve ip = none ∧ ¬ (s'.view ip).Released := by
  subst hs'
  obtain ⟨g, h⟩ := Option.isSome_iff_exists.1 hs
  have hip : (g.count dir octets now).ip = ip :=
    (GaugeEntry.count_ip g dir octets now).trans (entry_key h)
  rw [gaugeUpdate, h]
  dsimp only
  split
  · -- the stop captures the session whatever it returns, and the gauge goes after it
    right
    obtain ⟨v, hv, hreleased, -⟩ := @sessionStop_view cfg now
      { s with
        gauges := s.gauges.insert (g.count dir octets now)
        ledger := s.ledger.count ip dir octets } ip none .volume "" ""
    have hview := hv.trans (viewSet_gaugeDel _ ip)
    rw [hv.self] at hview
    refine ⟨congrArg View.gauge hview.self, ?_⟩
    rw [hview.self]
    exact hreleased
  · rename_i hexhausted
    refine .inl ⟨g.count dir octets now, ?_, ?_⟩
    · rw [retrieve_insert, if_pos hip]
    · rw [GaugeEntry.withinQuota_iff]
      simpa using hexhausted

/-- **Quotas.**  In every run of requests, packets, passes and deletions of gauges, the counters of
a gauge are the sums and the numbers of the lengths accounted for its address since it was made,
and a packet that finds a gauge leaves it within its quota, or leaves no gauge and no released
session. -/
theorem gauge_quota (cfg : Config) {ops : List MeterOp} (hrun : Run (MeterStep cfg) init ops s)
    (ip : UInt32) :
    (∀ g, s.gauges.retrieve ip = some g → ∃ pre op post, ops = pre ++ op :: post ∧
      MadeBy cfg ip pre op post ∧ g.totals.Counts (accounted ip post)) ∧
    ∀ now octets dir s', (s.gauges.retrieve ip).isSome →
      MeterStep cfg s (.event ⟨now, .account ip octets dir⟩) s' →
      (∃ g, s'.gauges.retrieve ip = some g ∧ g.WithinQuota) ∨
        s'.gauges.retrieve ip = none ∧ ¬ (s'.view ip).Released := by
  constructor
  · intro g hg
    exact shown_counts hrun (Option.map_eq_some_iff.2 ⟨g, hg, rfl⟩)
  · intro now octets dir s' hs hs'
    exact gaugeUpdate_quota hs hs'

/-- The only user may receive a hundred octets. -/
def upHundred : Event :=
  ⟨0, .up 0x0a000001 0 "paid" 0 { GaugeLimits.unlimited with maxOctetsIn := 100 } "" ""⟩

/-- He receives sixty. -/
def accountSixty : Event := ⟨0, .account 0x0a000001 60 .dirIn⟩

/-- What he has then. -/
def sixtyOfHundred : Controller :=
  [MeterOp.event upHundred, .event accountSixty].foldl (meterExec oneUserConfig) init

theorem gauge_quota_hundred :
    (sixtyOfHundred.gauges.retrieve 0x0a000001).isSome ∧
    (∀ g, sixtyOfHundred.gauges.retrieve 0x0a000001 = some g → ∃ pre op post,
      [MeterOp.event upHundred, .event accountSixty] = pre ++ op :: post ∧
      MadeBy oneUserConfig 0x0a000001 pre op post ∧
        g.totals.Counts (accounted 0x0a000001 post)) ∧
    ∀ now octets dir s', (sixtyOfHundred.gauges.retrieve 0x0a000001).isSome →
      MeterStep oneUserConfig sixtyOfHundred (.event ⟨now, .account 0x0a000001 octets dir⟩) s' →
      (∃ g, s'.gauges.retrieve 0x0a000001 = some g ∧ g.WithinQuota) ∨
        s'.gauges.retrieve 0x0a000001 = none ∧ ¬ (s'.view 0x0a000001).Released :=
  ⟨by decide +kernel,
    gauge_quota oneUserConfig (Run.of_foldl (meterExec oneUserConfig) init _) 0x0a000001⟩

end Controller

end Sweetspot
