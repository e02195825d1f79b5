import Sweetspot.Session.Books

/-!
# Gauges

The gauge of an address counts its traffic, and stops its session when a quota is used up, when the
address was idle for too long or when its time is over.

* `gaugeNew`, `gaugeDel`, `shapeNew`, `shapeDel`: the tables beside the sessions.
* `gaugeUpdate`: a packet is accounted.
* `expireGaugeCb`, `gaugeExpire`: the pass over all gauges.
* `GaugeOutcome`: the last two do the same to an address: nothing, a change to its gauge, or a stop
  of its session after which the gauge is gone.
-/

namespace Sweetspot

/-! ## The entry of an address -/

/-- `SW_GAUGE_DIR_IN` and `SW_GAUGE_DIR_OUT`. -/
inductive GaugeDir
  | dirIn | dirOut
  deriving DecidableEq, Repr

/-- The limits of a gauge. -/
structure GaugeLimits where
  maxOctetsIn : UInt64
  maxOctetsOut : UInt64
  maxBpsIn : UInt64
  maxBpsOut : UInt64
  maxDuration : ℤ
  maxIdle : ℤ
  deriving DecidableEq

/-- `SW_GAUGE_MAX_OCTETS_IN` and the like: what a request leaves out. -/
def GaugeLimits.unlimited : GaugeLimits where
  maxOctetsIn := 0xfffffffffff70000
  maxOctetsOut := 0xfffffffffff70000
  maxBpsIn := 0xfffffffffff70000
  maxBpsOut := 0xfffffffffff70000
  maxDuration := 3600
  maxIdle := 600

/-- One packet more. -/
def Totals.count (t : Totals) (dir : GaugeDir) (octets : UInt64) : Totals :=
  match dir with
  | .dirIn => { t with octetsIn := t.octetsIn + octets, packetsIn := t.packetsIn + 1 }
  | .dirOut => { t with octetsOut := t.octetsOut + octets, packetsOut := t.packetsOut + 1 }

namespace GaugeEntry

/-- A gauge as `sw_gauge_new` makes it. -/
def fresh (ip : UInt32) (now : ℤ) : GaugeEntry where
  ip := ip
  maxOctetsIn := 0
  maxOctetsOut := 0
  maxBpsIn := 0
  maxBpsOut := 0
  maxDuration := 0
  maxIdle := 0
  octetsIn := 0
  octetsOut := 0
  bpsIn := 0
  bpsOut := 0
  packetsIn := 0
  packetsOut := 0
  peakBpsIn := 0
  peakBpsOut := 0
  deathday := now
  idle := now
  bpsProbeIn := 0
  bpsProbeOut := 0
  bpsProbeTime := now

/-- New limits; the counters stay. -/
def limit (g : GaugeEntry) (max : GaugeLimits) : GaugeEntry :=
  { g with
    maxOctetsIn := max.maxOctetsIn
    maxOctetsOut := max.maxOctetsOut
    maxBpsIn := max.maxBpsIn
    maxBpsOut := max.maxBpsOut
    deathday := g.deathday + (max.maxDuration - g.maxDuration)
    maxDuration := max.maxDuration
    maxIdle := max.maxIdle }

/-- One packet more. -/
def count (g : GaugeEntry) (dir : GaugeDir) (octets : UInt64) (now : ℤ) : GaugeEntry :=
  match dir with
  | .dirIn =>
    { g with
      octetsIn := g.octetsIn + octets
      bpsProbeIn := g.bpsProbeIn + octets * 8
      packetsIn := g.packetsIn + 1
      idle := now }
  | .dirOut =>
    { g with
      octetsOut := g.octetsOut + octets
      bpsProbeOut := g.bpsProbeOut + octets * 8
      packetsOut := g.packetsOut + 1
      idle := now }

/-- A quota is used up. -/
def exhausted (g : GaugeEntry) : Bool :=
  g.octetsIn > g.maxOctetsIn || g.octetsOut > g.maxOctetsOut

/-- The rates since the last probe, if that was long enough ago. -/
def probe (g : GaugeEntry) (rateInterval now : ℤ) : GaugeEntry :=
  let interval := now - g.bpsProbeTime
  if interval > rateInterval then
    let bpsIn := g.bpsProbeIn / UInt64.ofInt interval
    let bpsOut := g.bpsProbeOut / UInt64.ofInt interval
    { g with
      bpsIn
      peakBpsIn := if bpsIn > g.peakBpsIn then bpsIn else g.peakBpsIn
      bpsOut
      peakBpsOut := if bpsOut > g.peakBpsOut then bpsOut else g.peakBpsOut
      bpsProbeIn := 0
      bpsProbeOut := 0
      bpsProbeTime := now }
  else g

/-- Nothing was counted for too long. -/
def isIdle (g : GaugeEntry) (now : ℤ) : Bool :=
  g.maxIdle ≠ 0 && g.idle + g.maxIdle < now

/-- The time is over. -/
def expired (g : GaugeEntry) (now : ℤ) : Bool :=
  (g.deathday ≠ 0 && g.deathday < now) || g.isIdle now

variable (g : GaugeEntry)

@[simp] theorem fresh_totals (ip : UInt32) (now : ℤ) : (fresh ip now).totals = .zero := rfl

@[simp] theorem limit_ip (max : GaugeLimits) : (g.limit max).ip = g.ip := rfl

@[simp] theorem limit_totals (max : GaugeLimits) : (g.limit max).totals = g.totals := rfl

@[simp] theorem count_ip (dir : GaugeDir) (octets : UInt64) (now : ℤ) :
    (g.count dir octets now).ip = g.ip := by
  cases dir <;> rfl

/-- A gauge shows each packet. -/
@[simp] theorem count_totals (dir : GaugeDir) (octets : UInt64) (now : ℤ) :
    (g.count dir octets now).totals = g.totals.count dir octets := by
  cases dir <;> rfl

@[simp] theorem probe_ip (rateInterval now : ℤ) : (g.probe rateInterval now).ip = g.ip := by
  unfold probe
  dsimp only
  split <;> rfl

@[simp] theorem probe_totals (rateInterval now : ℤ) :
    (g.probe rateInterval now).totals = g.totals := by
  unfold probe
  dsimp only
  split <;> rfl

/-- Measuring the rates does not make a gauge expire. -/
@[simp] theorem probe_expired (rateInterval now : ℤ) :
    (g.probe rateInterval now).expired now = g.expired now := by
  unfold probe
  dsimp only
  split <;> rfl

end GaugeEntry

/-- One packet more for an address. -/
def Ledger.count (l : Ledger) (ip : UInt32) (dir : GaugeDir) (octets : UInt64) : Ledger :=
  { l with counted := Function.update l.counted ip ((l.counted ip).count dir octets) }

namespace Controller

variable (cfg : Config)

/-! ## The tables -/

/-- `sw_gauge_new`. -/
def gaugeNew (now : ℤ) (s : Controller) (ip : UInt32) (max : GaugeLimits) : Controller :=
  let g := (s.gauges.retrieve ip).getD (.fresh ip now)
  { s with gauges := s.gauges.insert (g.limit max) }

/-- `sw_gauge_del`. -/
def gaugeDel (s : Controller) (ip : UInt32) : Controller :=
  { s with gauges := s.gauges.delete ip }

/-- `sw_shape_new`. -/
def shapeNew (s : Controller) (ip : UInt32) (maxBpsIn maxBpsOut : UInt64) : Controller :=
  { s with shapes := s.shapes.insert ⟨ip, maxBpsIn, maxBpsOut⟩ }

/-- `sw_shape_del`. -/
def shapeDel (s : Controller) (ip : UInt32) : Controller :=
  { s with shapes := s.shapes.delete ip }

/-- `sw_gauge_update` for a packet of the address. -/
def gaugeUpdate (now : ℤ) (s : Controller) (ip : UInt32) (octets : UInt64) (dir : GaugeDir) :
    Controller :=
  match s.gauges.retrieve ip with
  | none => s
  | some g =>
    let g := g.count dir octets now
    let s := { s with gauges := s.gauges.insert g, ledger := s.ledger.count ip dir octets }
    if g.exhausted then
      gaugeDel (sessionStop cfg now s ip none .volume "" "").1 ip
    else s

/-- `__expire_gauge_cb`. -/
def expireGaugeCb (now : ℤ) (s : Controller) (ip : UInt32) : Controller :=
  match s.gauges.retrieve ip with
  | none => s
  | some g =>
    let g := g.probe cfg.gaugeRateInterval now
    let s := { s with gauges := s.gauges.insert g }
    if g.expired now then
      gaugeDel (sessionStop cfg now s ip none (if g.isIdle now then .idle else .time) "" "").1 ip
    else s

/-- `sw_gauge_expire`: the addresses in the order the table shows them. -/
def gaugeExpire (now : ℤ) (s : Controller) (order : List UInt32) : Controller :=
  order.foldl (expireGaugeCb cfg now) s

/-- `sw_session_expire`: the addresses in the order the table shows them. -/
def sessionExpire (now : ℤ) (s : Controller) (order : List UInt32) : Controller :=
  order.foldl (expireSessionCb cfg now) s

/-- The packet is the one that uses up a quota. -/
def overQuota (now : ℤ) (s : Controller) (ip : UInt32) (octets : UInt64) (dir : GaugeDir) : Bool :=
  (s.gauges.retrieve ip).any fun g => (g.count dir octets now).exhausted

/-- The gauge of the address is to expire. -/
def gaugeExpired (now : ℤ) (s : Controller) (ip : UInt32) : Bool :=
  (s.gauges.retrieve ip).any fun g => g.expired now

/-! ## What they do to an address -/

variable {cfg} {s : Controller} {ip : UInt32}

@[simp] theorem books_gaugeNew (now : ℤ) (max : GaugeLimits) :
    (gaugeNew now s ip max).books = s.books := rfl

@[simp] theorem books_gaugeDel : (gaugeDel s ip).books = s.books := rfl

@[simp] theorem books_shapeNew (maxBpsIn maxBpsOut : UInt64) :
    (shapeNew s ip maxBpsIn maxBpsOut).books = s.books := rfl

@[simp] theorem books_shapeDel : (shapeDel s ip).books = s.books := rfl

theorem viewSet_gaugeNew (now : ℤ) (s : Controller) (ip : UInt32) (max : GaugeLimits) :
    ∃ g, ViewSet s (gaugeNew now s ip max) ip { s.view ip with gauge := some g } := by
  cases h : s.gauges.retrieve ip with
  | none =>
    refine ⟨(GaugeEntry.fresh ip now).limit max, viewSet_gauge rfl rfl ?_ rfl⟩
    show s.gauges.insert (((s.gauges.retrieve ip).getD _).limit max) = _
    rw [h, Option.getD_none]
  | some g =>
    have hip : (g.limit max).ip = ip := by rw [GaugeEntry.limit_ip, entry_key h]
    refine ⟨g.limit max, viewSet_gauge hip rfl ?_ rfl⟩
    show s.gauges.insert (((s.gauges.retrieve ip).getD _).limit max) = _
    rw [h, Option.getD_some]

theorem viewSet_gaugeDel (s : Controller) (ip : UInt32) :
    ViewSet s (gaugeDel s ip) ip { s.view ip with gauge := none } := by
  intro ip'
  simp only [view, gaugeDel, retrieve_delete]
  by_cases hip : ip' = ip
  · simp [hip]
  · simp [hip]

theorem viewSet_shapeNew (s : Controller) (ip : UInt32) (maxBpsIn maxBpsOut : UInt64) :
    ViewSet s (shapeNew s ip maxBpsIn maxBpsOut) ip
      { s.view ip with shape := some ⟨ip, maxBpsIn, maxBpsOut⟩ } :=
  viewSet_shape rfl rfl rfl rfl

theorem viewSet_shapeDel (s : Controller) (ip : UInt32) :
    ViewSet s (shapeDel s ip) ip { s.view ip with shape := none } := by
  intro ip'
  simp only [view, shapeDel, retrieve_delete]
  by_cases hip : ip' = ip
  · simp [hip]
  · simp [hip]

/-- What accounting a packet and expiring a gauge can do; the flag says whether they stop the
session. -/
inductive GaugeOutcome (cfg : Config) (now : ℤ) (s : Controller) (ip : UInt32) :
    Bool → Controller → Prop
  | absent (h : s.gauges.retrieve ip = none) : GaugeOutcome cfg now s ip false s
  | kept {g g' : GaugeEntry} {s' : Controller} (h : s.gauges.retrieve ip = some g)
    (hbooks : s'.books = s.books)
    (hview : ViewSet s s' ip { s.view ip with gauge := some g' }) :
    GaugeOutcome cfg now s ip false s'
  | cut {g g' : GaugeEntry} {s' : Controller} (terminationCause : TermCause)
    (h : s.gauges.retrieve ip = some g) (hbooks : s'.books = s.books)
    (hview : ViewSet s s' ip { s.view ip with gauge := some g' }) :
    GaugeOutcome cfg now s ip true
      (gaugeDel (sessionStop cfg now s' ip none terminationCause "" "").1 ip)

theorem gaugeUpdate_outcome (now : ℤ) (s : Controller) (ip : UInt32) (octets : UInt64)
    (dir : GaugeDir) :
    GaugeOutcome cfg now s ip (overQuota now s ip octets dir)
      (gaugeUpdate cfg now s ip octets dir) := by
  rw [gaugeUpdate, overQuota]
  cases h : s.gauges.retrieve ip with
  | none => exact .absent h
  | some g =>
    have hip : (g.count dir octets now).ip = ip := by rw [GaugeEntry.count_ip, entry_key h]
    rw [Option.any_some]
    cases hover : (g.count dir octets now).exhausted with
    | false =>
      simp only [hover, Bool.false_eq_true, if_false]
      exact .kept h rfl (viewSet_gauge hip rfl rfl rfl)
    | true =>
      simp only [hover, if_true]
      exact .cut .volume h rfl (viewSet_gauge hip rfl rfl rfl)

theorem expireGaugeCb_outcome (now : ℤ) (s : Controller) (ip : UInt32) :
    GaugeOutcome cfg now s ip (gaugeExpired now s ip) (expireGaugeCb cfg now s ip) := by
  rw [expireGaugeCb, gaugeExpired]
  cases h : s.gauges.retrieve ip with
  | none => exact .absent h
  | some g =>
    have hip : (g.probe cfg.gaugeRateInterval now).ip = ip := by
      rw [GaugeEntry.probe_ip, entry_key h]
    simp only [Option.any_some, GaugeEntry.probe_expired]
    cases hover : g.expired now with
    | false =>
      simp only [Bool.false_eq_true, if_false]
      exact .kept h rfl (viewSet_gauge hip rfl rfl rfl)
    | true =>
      simp only [if_true]
      exact .cut _ h rfl (viewSet_gauge hip rfl rfl rfl)

/-- Whether the session is stopped or not, the books see at most a stop with the filter of an
earlier one. -/
theorem GaugeOutcome.books_eq {now : ℤ} {stops : Bool} {s' : Controller}
    (h : GaugeOutcome cfg now s ip stops s') :
    ∃ b, Opening cfg ip s.books b ∧
      Acting cfg ip b (if stops then .stop none else .nothing) s'.books := by
  cases h with
  | absent => exact ⟨s.books, .kept, .nothing⟩
  | kept h hbooks hview =>
    rw [hbooks]
    exact ⟨s.books, .kept, .nothing⟩
  | @cut g g' s₁ terminationCause h hbooks hview =>
    obtain ⟨b, hopen, -, hact⟩ := @sessionStop_books cfg now s₁ ip none terminationCause "" ""
    rw [hbooks] at hopen
    exact ⟨b, hopen, hact⟩

end Controller

end Sweetspot
