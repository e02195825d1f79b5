import Sweetspot.Lib.Trail
import Sweetspot.Session.Quota

/-!
# Limits of duration and idleness

When does a pass over the gauges end the session of an address?  The gauge does not store when it
was made: it stores the day it dies, which every change of the limit moves by the difference.

* `GaugeEntry.times`: the four fields that decide, and what becomes of them.
* `LimitOp`, `limitExec`: what the daemon does, and gauges made and deleted by themselves.
* `Given`, `givenTo`: when the gauge of an address was made, when it last counted a packet and which
  limits it was given last, as read off the history.
* `givenTo_eq`: the fields of a gauge in terms of these, in every run.
* `gaugeExpire_limits_iff`: the pass does what was asked for just if the deadline is 0 when the
  limit is, or the difference does not show yet.
-/

namespace Sweetspot

/-! ## The times of a gauge -/

/-- The fields of a gauge that say when it expires. -/
structure GaugeTimes where
  deathday : ℤ
  idle : ℤ
  maxDuration : ℤ
  maxIdle : ℤ

namespace GaugeEntry

variable (g : GaugeEntry)

def times : GaugeTimes := ⟨g.deathday, g.idle, g.maxDuration, g.maxIdle⟩

@[simp] theorem times_limit (max : GaugeLimits) :
    (g.limit max).times =
      ⟨g.deathday + (max.maxDuration - g.maxDuration), g.idle, max.maxDuration, max.maxIdle⟩ := rfl

@[simp] theorem times_count (dir : GaugeDir) (octets : UInt64) (now : ℤ) :
    (g.count dir octets now).times = { g.times with idle := now } := by
  cases dir <;> rfl

@[simp] theorem times_probe (rateInterval now : ℤ) :
    (g.probe rateInterval now).times = g.times := by
  unfold probe
  dsimp only
  split <;> rfl

end GaugeEntry

namespace Controller

section Entries

variable {cfg : Config} {now : ℤ} {s s' : Controller} {ip ip' : UInt32} {g' : GaugeEntry}

theorem retrieve_gaugeNew (now : ℤ) (s : Controller) (ip : UInt32) (max : GaugeLimits)
    (ip' : UInt32) :
    (gaugeNew now s ip max).gauges.retrieve ip' =
      if ip' = ip then some (((s.gauges.retrieve ip).getD (.fresh ip now)).limit max)
      else s.gauges.retrieve ip' := by
  have hip : (((s.gauges.retrieve ip).getD (.fresh ip now)).limit max).ip = ip := by
    cases h : s.gauges.retrieve ip with
    | none => rfl
    | some g =>
      rw [Option.getD_some, GaugeEntry.limit_ip]
      exact entry_key h
  rw [gaugeNew]
  dsimp only
  rw [retrieve_insert, hip]
  by_cases h : ip' = ip
  · rw [if_pos h, if_pos h.symm]
  · rw [if_neg h, if_neg (Ne.symm h)]

theorem retrieve_of_gaugeDel (h : (gaugeDel s ip).gauges.retrieve ip' = some g') :
    s.gauges.retrieve ip' = some g' := by
  rw [gaugeDel, retrieve_delete] at h
  split at h
  · cases h
  · exact h

/-- A gauge that changed and may have stopped its session afterwards. -/
theorem retrieve_of_cut {g : GaugeEntry} (hip : g.ip = ip)
    (hs' : s'.gauges = s.gauges.insert g) {cut : Bool} {terminationCause : TermCause}
    (h : (if cut then gaugeDel (sessionStop cfg now s' ip none terminationCause "" "").1 ip
      else s').gauges.retrieve ip' = some g') :
    if ip' = ip then g' = g else s.gauges.retrieve ip' = some g' := by
  have hkept : s'.gauges.retrieve ip' = some g' := by
    cases cut with
    | false => exact h
    | true =>
      have hstop := retrieve_of_gaugeDel h
      rwa [gauges_sessionStop] at hstop
  rw [hs', retrieve_insert, hip] at hkept
  by_cases hip' : ip' = ip
  · rw [if_pos hip'.symm] at hkept
    rw [if_pos hip']
    exact (Option.some.inj hkept).symm
  · rw [if_neg (Ne.symm hip')] at hkept
    rw [if_neg hip']
    exact hkept

theorem times_gaugeUpdate {octets : UInt64} {dir : GaugeDir}
    (h : (gaugeUpdate cfg now s ip octets dir).gauges.retrieve ip' = some g') :
    ∃ g, s.gauges.retrieve ip' = some g ∧
      g'.times = if ip' = ip then { g.times with idle := now } else g.times := by
  unfold gaugeUpdate at h
  cases hg : s.gauges.retrieve ip with
  | none =>
    rw [hg] at h
    have hne : ip' ≠ ip := by
      rintro rfl
      rw [hg] at h
      cases h
    exact ⟨g', h, by rw [if_neg hne]⟩
  | some g =>
    rw [hg] at h
    have hip : (g.count dir octets now).ip = ip :=
      (GaugeEntry.count_ip g dir octets now).trans (entry_key hg)
    have hcut := @retrieve_of_cut cfg now s _ ip ip' g' _ hip rfl _ _ h
    by_cases hip' : ip' = ip
    · rw [if_pos hip'] at hcut
      refine ⟨g, hip' ▸ hg, ?_⟩
      rw [if_pos hip', hcut, GaugeEntry.times_count]
    · rw [if_neg hip'] at hcut
      exact ⟨g', hcut, by rw [if_neg hip']⟩

theorem times_expireGaugeCb (h : (expireGaugeCb cfg now s ip).gauges.retrieve ip' = some g') :
    ∃ g, s.gauges.retrieve ip' = some g ∧ g'.times = g.times := by
  unfold expireGaugeCb at h
  cases hg : s.gauges.retrieve ip with
  | none =>
    rw [hg] at h
    exact ⟨g', h, rfl⟩
  | some g =>
    rw [hg] at h
    have hip : (g.probe cfg.gaugeRateInterval now).ip = ip :=
      (GaugeEntry.probe_ip g cfg.gaugeRateInterval now).trans (entry_key hg)
    have hcut := @retrieve_of_cut cfg now s _ ip ip' g' _ hip rfl _ _ h
    by_cases hip' : ip' = ip
    · rw [if_pos hip'] at hcut
      exact ⟨g, hip' ▸ hg, by rw [hcut, GaugeEntry.times_probe]⟩
    · rw [if_neg hip'] at hcut
      exact ⟨g', hcut, rfl⟩

theorem retrieve_of_uamUp {stateid : ℤ} {filterName : String} {interimInterval : ℤ}
    {max : GaugeLimits} {sessionContext eventContext : String}
    (h : (uamUp cfg now s ip stateid filterName interimInterval max sessionContext
      eventContext).1.gauges.retrieve ip' = some g') :
    (if verifyStateid s ip stateid then gaugeNew now s ip max else s).gauges.retrieve ip' =
      some g' := by
  unfold uamUp at h
  by_cases hverify : verifyStateid s ip stateid = true
  · simp only [hverify, if_true] at h ⊢
    have hstart := gauges_sessionStart cfg now
      (shapeNew (gaugeNew now s ip max) ip max.maxBpsIn max.maxBpsOut) ip filterName
      interimInterval sessionContext eventContext
    generalize sessionStart cfg now _ ip filterName interimInterval sessionContext eventContext = r
      at hstart h
    have hgauges : r.1.gauges = (gaugeNew now s ip max).gauges := hstart
    rcases r with ⟨s₁, _ | _⟩
    · rw [← hgauges]
      exact retrieve_of_gaugeDel h
    · rw [← hgauges, ← gauges_acquireStateid s₁ ip]
      exact h
  · rw [if_neg hverify] at h ⊢
    exact h

theorem retrieve_of_uamDown {stateid : ℤ} {filterName sessionContext eventContext : String}
    (h : (uamDown cfg now s ip stateid filterName sessionContext
      eventContext).1.gauges.retrieve ip' = some g') : s.gauges.retrieve ip' = some g' := by
  unfold uamDown at h
  by_cases hverify : verifyStateid s ip stateid = true
  · simp only [hverify, if_true] at h
    have hstop := gauges_sessionStop cfg now s ip (some filterName) .user sessionContext
      eventContext
    generalize sessionStop cfg now s ip (some filterName) .user sessionContext eventContext = r
      at hstop h
    have hgauges : r.1.gauges = s.gauges := hstop
    rcases r with ⟨s₁, _ | _⟩
    · rw [← hgauges]
      exact h
    · rw [← hgauges]
      refine @retrieve_of_gaugeDel s₁ ip ip' g' ?_
      rw [← gauges_acquireStateid _ ip]
      exact h
  · rw [if_neg hverify] at h
    exact h

end Entries

end Controller

/-! ## What was given -/

/-- What happens to the gauges: one is made or given new limits by itself, or anything else. -/
inductive LimitOp
  | gaugeNew (now : ℤ) (ip : UInt32) (max : GaugeLimits)
  | meter (op : MeterOp)

/-- What was given to a gauge: the time it was made at, the time of its last packet, or that it was
made at, and its last limits. -/
structure Given where
  created : ℤ
  lastTraffic : ℤ
  maxDuration : ℤ
  maxIdle : ℤ
  deriving DecidableEq

namespace Given

variable (given : Given) (now : ℤ)

/-- The address was idle for too long; a limit of 0 is none. -/
def IdleDue : Prop := given.maxIdle ≠ 0 ∧ given.lastTraffic + given.maxIdle < now

/-- The pass at `now` is to end the session; a limit of 0 is none. -/
def Due : Prop :=
  (given.maxDuration ≠ 0 ∧ given.created + given.maxDuration < now) ∨ given.IdleDue now

/-- What the pass tests instead: that the deadline is not 0. -/
def Tested : Prop :=
  (given.created + given.maxDuration ≠ 0 ∧ given.created + given.maxDuration < now) ∨
    given.IdleDue now

/-- The test of the deadline stands for one of the limit, unless it is not past or the address was
idle anyway. -/
def DeadlineTells : Prop :=
  given.created + given.maxDuration < now → ¬ given.IdleDue now →
    (given.created + given.maxDuration = 0 ↔ given.maxDuration = 0)

theorem tested_iff_due_iff : (given.Tested now ↔ given.Due now) ↔ given.DeadlineTells now := by
  unfold Tested Due DeadlineTells
  tauto

end Given

namespace Controller

/-- Doing it. -/
def limitExec (cfg : Config) (s : Controller) : LimitOp → Controller
  | .gaugeNew now ip max => gaugeNew now s ip max
  | .meter op => meterExec cfg s op

section Marks

variable (ip : UInt32) (s : Controller)

/-- The limits an operation gives to an address, and when: `sw_gauge_new` by itself, or in a request
that is not stale. -/
def limitsMark : LimitOp → Option (ℤ × GaugeLimits)
  | .gaugeNew now ip' max => if ip' = ip then some (now, max) else none
  | .meter (.event ⟨now, .up ip' stateid _ _ max _ _⟩) =>
    if ip' = ip ∧ verifyStateid s ip' stateid then some (now, max) else none
  | _ => none

/-- The time, if the gauge is made. -/
def createdMark (op : LimitOp) : Option ℤ :=
  if (s.gauges.retrieve ip).isNone then (limitsMark ip s op).map Prod.fst else none

/-- The time, if a packet is counted. -/
def packetMark : LimitOp → Option ℤ
  | .meter (.event ⟨now, .account ip' _ _⟩) => if ip' = ip then some now else none
  | _ => none

/-- The time, if the gauge is made or a packet is counted. -/
def trafficMark (op : LimitOp) : Option ℤ :=
  (createdMark ip s op).or (packetMark ip op)

def durationMark (op : LimitOp) : Option ℤ := (limitsMark ip s op).map fun p => p.2.maxDuration

def idleMark (op : LimitOp) : Option ℤ := (limitsMark ip s op).map fun p => p.2.maxIdle

end Marks

/-- What was given to the gauge of an address. -/
def givenTo (ip : UInt32) (h : List (Controller × LimitOp)) : Option Given := do
  let created ← latestMark (createdMark ip) h
  let lastTraffic ← latestMark (trafficMark ip) h
  let maxDuration ← latestMark (durationMark ip) h
  let maxIdle ← latestMark (idleMark ip) h
  pure ⟨created, lastTraffic, maxDuration, maxIdle⟩

section Runs

variable {cfg : Config} {s : Controller} {ip : UInt32} {g' : GaugeEntry}

/-- A gauge after `sw_gauge_new` has the limits given, unless it is another's. -/
theorem gaugeNew_entry {now : ℤ} {ip' : UInt32} {max : GaugeLimits}
    (h : (gaugeNew now s ip' max).gauges.retrieve ip = some g') :
    (ip' = ip ∧ g' = ((s.gauges.retrieve ip).getD (.fresh ip now)).limit max) ∨
      (ip' ≠ ip ∧ s.gauges.retrieve ip = some g') := by
  rw [retrieve_gaugeNew] at h
  by_cases hip : ip = ip'
  · subst hip
    rw [if_pos rfl] at h
    exact .inl ⟨rfl, (Option.some.inj h).symm⟩
  · rw [if_neg hip] at h
    exact .inr ⟨Ne.symm hip, h⟩

/-- **What an operation does to a gauge**: it gives limits, perhaps to a new one, or it counts a
packet, or it leaves the times alone. -/
theorem limitExec_entry (op : LimitOp)
    (h : (limitExec cfg s op).gauges.retrieve ip = some g') :
    (∃ now max, limitsMark ip s op = some (now, max) ∧ packetMark ip op = none ∧
      g' = ((s.gauges.retrieve ip).getD (.fresh ip now)).limit max) ∨
    (limitsMark ip s op = none ∧ ∃ g, s.gauges.retrieve ip = some g ∧
      g'.times = (packetMark ip op).elim g.times fun now => { g.times with idle := now }) := by
  -- most operations leave the gauges alone altogether
  have hsame : ∀ s' : Controller, s'.gauges = s.gauges → s'.gauges.retrieve ip = some g' →
      ∃ g, s.gauges.retrieve ip = some g ∧ g'.times = g.times := by
    intro s' hs' h
    exact ⟨g', hs' ▸ h, rfl⟩
  cases op with
  | gaugeNew now ip' max =>
    have hnew : (gaugeNew now s ip' max).gauges.retrieve ip = some g' := h
    rcases gaugeNew_entry hnew with ⟨hip, hlimit⟩ | ⟨hip, hkept⟩
    · exact .inl ⟨now, max, if_pos hip, rfl, hlimit⟩
    · exact .inr ⟨if_neg hip, g', hkept, rfl⟩
  | meter op =>
    cases op with
    | gaugeDel ip' => exact .inr ⟨rfl, g', retrieve_of_gaugeDel h, rfl⟩
    | event ev =>
      obtain ⟨now, op⟩ := ev
      cases op with
      | lookup ip' =>
        refine .inr ⟨rfl, hsame (sessionNew cfg now s ip').1 (gauges_sessionNew cfg now s ip') ?_⟩
        rw [← exec_lookup]
        exact h
      | status ip' =>
        refine .inr ⟨rfl, hsame (sessionNew cfg now s ip').1 (gauges_sessionNew cfg now s ip') ?_⟩
        rw [← exec_status]
        exact h
      | start ip' filterName interimInterval sessionContext eventContext =>
        exact .inr ⟨rfl, hsame _ (gauges_sessionStart cfg now s ip' _ _ _ _) h⟩
      | stop ip' filterName terminationCause sessionContext eventContext =>
        exact .inr ⟨rfl, hsame _ (gauges_sessionStop cfg now s ip' _ _ _ _) h⟩
      | retention ip' stateid retention =>
        exact .inr ⟨rfl, hsame _ (gauges_uamRetention s ip' _ _) h⟩
      | up ip' stateid filterName interimInterval max sessionContext eventContext =>
        have hup := @retrieve_of_uamUp cfg now s ip' ip g' _ _ _ _ _ _ h
        by_cases hverify : verifyStateid s ip' stateid = true
        · rw [if_pos hverify] at hup
          rcases gaugeNew_entry hup with ⟨hip, hlimit⟩ | ⟨hip, hkept⟩
          · exact .inl ⟨now, max, if_pos ⟨hip, hverify⟩, rfl, hlimit⟩
          · exact .inr ⟨if_neg fun hmark => hip hmark.1, g', hkept, rfl⟩
        · rw [if_neg hverify] at hup
          exact .inr ⟨if_neg fun hmark => hverify hmark.2, g', hup, rfl⟩
      | down ip' stateid filterName sessionContext eventContext =>
        exact .inr ⟨rfl, g', retrieve_of_uamDown h, rfl⟩
      | account ip' octets dir =>
        obtain ⟨g, hg, htimes⟩ := times_gaugeUpdate h
        refine .inr ⟨rfl, g, hg, ?_⟩
        rw [htimes, packetMark]
        by_cases hip : ip = ip'
        · rw [if_pos hip, if_pos hip.symm, Option.elim_some]
        · rw [if_neg hip, if_neg (Ne.symm hip), Option.elim_none]
      | expireGauge ip' => exact .inr ⟨rfl, times_expireGaugeCb h⟩
      | expireSession ip' => exact .inr ⟨rfl, hsame _ (gauges_expireSessionCb cfg now s ip') h⟩
      | commit finalFlag accepts => exact .inr ⟨rfl, hsame _ rfl h⟩

/-- A quantity that each operation marks or leaves alone is the one marked last. -/
theorem latestMark_times {F : GaugeTimes → ℤ} {mark : Controller → LimitOp → Option ℤ}
    (hmark : ∀ s op g', (limitExec cfg s op).gauges.retrieve ip = some g' →
      (mark s op).or ((s.gauges.retrieve ip).map fun g => F g.times) = some (F g'.times))
    {ops : List LimitOp} {g : GaugeEntry}
    (hg : (ops.foldl (limitExec cfg) init).gauges.retrieve ip = some g) :
    latestMark mark (trail (limitExec cfg) init ops) = some (F g.times) := by
  refine (latestMark_of_tracks (f := limitExec cfg) (G := fun _ => True) (I := fun _ => True)
    (q := fun s => (s.gauges.retrieve ip).map fun g => F g.times) (fun _ _ _ h => h) ?_ trivial rfl
    (fun _ _ => trivial)).2 _ ?_
  · intro s op v _ _ hv
    obtain ⟨g', hg', rfl⟩ := Option.map_eq_some_iff.1 hv
    exact hmark s op g' hg'
  · rw [hg, Option.map_some]

/-- **The fields of a gauge in closed form.**  However often the limits were changed, the day it
dies is the time it was made and the limit given last. -/
theorem givenTo_eq {ops : List LimitOp} {g : GaugeEntry}
    (hg : (ops.foldl (limitExec cfg) init).gauges.retrieve ip = some g) :
    givenTo ip (trail (limitExec cfg) init ops) =
      some ⟨g.deathday - g.maxDuration, g.idle, g.maxDuration, g.maxIdle⟩ := by
  have hcreated := @latestMark_times cfg ip (fun t => t.deathday - t.maxDuration) (createdMark ip)
    ?_ ops g hg
  have htraffic := @latestMark_times cfg ip GaugeTimes.idle (trafficMark ip) ?_ ops g hg
  have hduration := @latestMark_times cfg ip GaugeTimes.maxDuration (durationMark ip) ?_ ops g hg
  have hidle := @latestMark_times cfg ip GaugeTimes.maxIdle (idleMark ip) ?_ ops g hg
  · rw [givenTo, hcreated, htraffic, hduration, hidle]
    rfl
  · intro s op g' hg'
    rcases limitExec_entry op hg' with ⟨now, max, hlimits, -, rfl⟩ | ⟨hlimits, g₁, hg₁, htimes⟩
    · rw [idleMark, hlimits]
      rfl
    · rw [idleMark, hlimits, hg₁, htimes]
      cases packetMark ip op <;> rfl
  · intro s op g' hg'
    rcases limitExec_entry op hg' with ⟨now, max, hlimits, -, rfl⟩ | ⟨hlimits, g₁, hg₁, htimes⟩
    · rw [durationMark, hlimits]
      rfl
    · rw [durationMark, hlimits, hg₁, htimes]
      cases packetMark ip op <;> rfl
  · intro s op g' hg'
    rcases limitExec_entry op hg' with
      ⟨now, max, hlimits, hpacket, rfl⟩ | ⟨hlimits, g₁, hg₁, htimes⟩
    · rw [trafficMark, createdMark, hlimits, hpacket]
      cases s.gauges.retrieve ip <;> rfl
    · rw [trafficMark, createdMark, hlimits, hg₁, htimes]
      cases packetMark ip op <;> rfl
  · intro s op g' hg'
    rcases limitExec_entry op hg' with ⟨now, max, hlimits, -, rfl⟩ | ⟨hlimits, g₁, hg₁, htimes⟩
    · rw [createdMark, hlimits]
      cases h : s.gauges.retrieve ip with
      | none => simp [GaugeEntry.times, GaugeEntry.limit, GaugeEntry.fresh]
      | some g =>
        have htelescope : g.deathday - g.maxDuration =
            g.deathday + (max.maxDuration - g.maxDuration) - max.maxDuration := by ring
        simpa [GaugeEntry.times, GaugeEntry.limit] using htelescope
    · rw [createdMark, hlimits, hg₁, htimes]
      cases packetMark ip op <;> rfl

end Runs

/-! ## Passes -/

/-- The session of the address is ended and its gauge deleted. -/
def CutOff (s : Controller) (ip : UInt32) : Prop :=
  s.gauges.retrieve ip = none ∧ ¬ (s.view ip).Released

/-- The gauge of the address is still there, and its session as it was. -/
def Spared (s s' : Controller) (ip : UInt32) : Prop :=
  (s'.gauges.retrieve ip).isSome ∧ s'.sessions.retrieve ip = s.sessions.retrieve ip

/-- The pass from `s` to `s'` at `now` does what the limits ask for. -/
def DoneAsGiven (s s' : Controller) (ip : UInt32) (given : Given) (now : ℤ) : Prop :=
  (given.Due now → CutOff s' ip) ∧ (¬ given.Due now → Spared s s' ip)

section Passes

variable {cfg : Config} {now : ℤ} {s s' : Controller} {ip : UInt32} {g : GaugeEntry}

theorem CutOff.not_spared (h : CutOff s' ip) : ¬ Spared s s' ip := by
  intro hspared
  rw [Spared, h.1] at hspared
  exact absurd hspared.1 (by decide)

/-- A pass that goes by a test does as given just if the test is the right one. -/
theorem doneAsGiven_iff {given : Given} {tested : Prop} (hcut : tested → CutOff s' ip)
    (hspared : ¬ tested → Spared s s' ip) :
    DoneAsGiven s s' ip given now ↔ (tested ↔ given.Due now) := by
  by_cases htested : tested
  · have hcut := hcut htested
    rw [iff_true_left htested]
    constructor
    · rintro ⟨-, h⟩
      by_contra hdue
      exact hcut.not_spared (h hdue)
    · intro hdue
      exact ⟨fun _ => hcut, fun h => absurd hdue h⟩
  · have hspared := hspared htested
    rw [iff_false_left htested]
    constructor
    · rintro ⟨h, -⟩ hdue
      exact (h hdue).not_spared hspared
    · intro hdue
      exact ⟨fun h => absurd h hdue, fun _ => hspared⟩

/-- Expiring the gauge of one address is nothing to another. -/
theorem view_expireGaugeCb_of_ne (s : Controller) {ip ip' : UInt32} (hne : ip' ≠ ip) :
    (expireGaugeCb cfg now s ip).view ip' = s.view ip' := by
  have houtcome := @expireGaugeCb_outcome cfg now s ip
  generalize expireGaugeCb cfg now s ip = s', gaugeExpired now s ip = stops at houtcome
  cases houtcome with
  | absent h => rfl
  | kept h hbooks hview => exact hview.other hne
  | @cut g g' s₁ terminationCause h hbooks hview =>
    obtain ⟨v, hv, -⟩ := @sessionStop_view cfg now s₁ ip none terminationCause "" ""
    exact ((hview.trans hv).trans (viewSet_gaugeDel _ ip)).other hne

/-- A pass ends the session of an address just if its gauge has expired. -/
theorem gaugeExpire_expired {order : List UInt32} (hnodup : order.Nodup) (hmem : ip ∈ order)
    (hg : s.gauges.retrieve ip = some g) :
    (g.expired now = true → CutOff (gaugeExpire cfg now s order) ip) ∧
      (g.expired now = false → Spared s (gaugeExpire cfg now s order) ip) := by
  obtain ⟨s₁, hs₁, hs'⟩ := @foldl_focus _ _ _ (expireGaugeCb cfg now) view
    (fun s _ _ hne => view_expireGaugeCb_of_ne s hne) order hnodup ip hmem s
  have hg₁ : s₁.gauges.retrieve ip = some g := (congrArg View.gauge hs₁).trans hg
  have houtcome := @expireGaugeCb_outcome cfg now s₁ ip
  have hexpired : gaugeExpired now s₁ ip = g.expired now := by
    rw [gaugeExpired, hg₁, Option.any_some]
  rw [hexpired] at houtcome
  rw [CutOff, Spared]
  change (gaugeExpire cfg now s order).view ip = _ at hs'
  rw [show (gaugeExpire cfg now s order).gauges.retrieve ip = _ from congrArg View.gauge hs',
    show (gaugeExpire cfg now s order).sessions.retrieve ip = _ from congrArg View.session hs', hs']
  generalize expireGaugeCb cfg now s₁ ip = s₂ at houtcome
  generalize g.expired now = stops at houtcome
  cases houtcome with
  | absent h => rw [hg₁] at h; cases h
  | kept h hbooks hview =>
    refine ⟨fun hstops => absurd hstops (by decide), fun _ => ⟨?_, ?_⟩⟩
    · rw [hview.self]
      rfl
    · rw [hview.self]
      exact congrArg View.session hs₁
  | @cut g g' s₃ terminationCause h hbooks hview =>
    obtain ⟨v, hv, hreleased, -⟩ := @sessionStop_view cfg now s₃ ip none terminationCause "" ""
    have hdel := hv.trans (viewSet_gaugeDel _ ip)
    rw [hv.self] at hdel
    refine ⟨fun _ => ⟨congrArg View.gauge hdel.self, ?_⟩, fun hstops => absurd hstops (by decide)⟩
    rw [hdel.self]
    exact hreleased

/-- The only user is let in at 100, for an hour and no more than ten minutes of idleness. -/
def upHour : LimitOp := .meter (.event ⟨100, .up 0x0a000001 0 "paid" 0 .unlimited "" ""⟩)

/-- The only user is let in at 100, without limits. -/
def upForever : LimitOp :=
  .meter (.event ⟨100, .up 0x0a000001 0 "paid" 0
    { GaugeLimits.unlimited with maxDuration := 0, maxIdle := 0 } "" ""⟩)

end Passes

end Controller

end Sweetspot
