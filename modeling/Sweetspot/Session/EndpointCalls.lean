import Sweetspot.Session.System
import Sweetspot.Snat.Lookup

/-!
# The endpoint calls of the daemon

The endpoints of an address are made with its session and deleted with it.  So the endpoint tables
of the daemon are always those after a run of their own calls, and every call that makes entries is
for a member of the user networks.

* `MemberRun`: such a run.
* `memberRun_exec`: whatever the daemon does is one on its endpoint tables.
-/

namespace Sweetspot

namespace Controller

/-- The calls lead from the one tables to the other, and make entries for members only. -/
def MemberRun (cfg : Config) (nat : EndpointConfig) (e e' : Endpoints) : Prop :=
  ∃ ops, (∀ op ∈ ops, ∀ a, op = EndpointOp.new a → checkIp cfg.userNetworks a = 1) ∧
    Run (Endpoints.Step nat) e ops e'

namespace MemberRun

variable {cfg : Config} {nat : EndpointConfig} {e e' e'' : Endpoints}

theorem refl (e : Endpoints) : MemberRun cfg nat e e := ⟨[], by simp, .nil e⟩

theorem of_eq (h : e' = e) : MemberRun cfg nat e e' := h ▸ refl e'

theorem trans (h : MemberRun cfg nat e e') (h' : MemberRun cfg nat e' e'') :
    MemberRun cfg nat e e'' := by
  obtain ⟨ops, hops, hrun⟩ := h
  obtain ⟨ops', hops', hrun'⟩ := h'
  refine ⟨ops ++ ops', ?_, Run.append_iff.2 ⟨e', hrun, hrun'⟩⟩
  intro op hop
  rcases List.mem_append.1 hop with hop | hop
  · exact hops op hop
  · exact hops' op hop

/-- One call. -/
theorem exec (op : EndpointOp) (hop : ∀ a, op = .new a → checkIp cfg.userNetworks a = 1) :
    MemberRun cfg nat e (e.exec nat op) := by
  refine ⟨[op], ?_, .single rfl⟩
  intro op' hop'
  obtain rfl := List.mem_singleton.1 hop'
  exact hop

end MemberRun

section Calls

variable {cfg : Config} {nat : EndpointConfig} {now : ℤ} {s : Controller} {ip : UInt32}

theorem checkIp_eq_one_of_ne {ns : Netset} {a : UInt32} (h : checkIp ns a ≠ 0) :
    checkIp ns a = 1 := by
  induction ns with
  | nil => exact absurd rfl h
  | cons r ns ih =>
    rw [checkIp] at h ⊢
    split
    · rfl
    · rename_i hout
      rw [if_neg hout] at h
      exact ih h

/-! ## Opening and closing sessions -/

variable (hnat : cfg.nat = some nat)
include hnat

theorem memberRun_sessionDel :
    MemberRun cfg nat s.endpoints (sessionDel cfg s ip).endpoints := by
  unfold sessionDel
  split
  · exact .refl _
  · dsimp only
    rw [hnat, if_pos Option.isSome_some]
    exact .exec (.del ip) (by rintro _ ⟨⟩)

theorem memberRun_sessionNew :
    MemberRun cfg nat s.endpoints (sessionNew cfg now s ip).1.endpoints := by
  unfold sessionNew
  cases s.sessions.retrieve ip with
  | some e => exact .refl _
  | none =>
    dsimp only
    split
    · exact .refl _
    · rename_i hmember
      split
      · exact .refl _
      · -- the entries are made, and deleted again if that failed
        have hopen : ∀ s' : Controller, s'.endpoints = s.endpoints →
            MemberRun cfg nat s.endpoints (endpointOpen cfg s' ip).1 := by
          intro s' hs'
          rw [endpointOpen, hnat, ← hs']
          refine .exec (.new ip) ?_
          rintro _ ⟨⟩
          exact checkIp_eq_one_of_ne hmember
        split
        · exact hopen _ rfl
        · refine .trans ?_ (memberRun_sessionDel hnat)
          exact hopen _ rfl

/-! ## The rest of the session module -/

omit hnat in
theorem endpoints_stopFound (e : SessionEntry) (filterName : Option String)
    (terminationCause : TermCause) (sessionContext eventContext : String) :
    (stopFound cfg now s e filterName terminationCause sessionContext eventContext).1.endpoints =
      s.endpoints := by
  unfold stopFound
  by_cases hreleased : e.state = .released
  · simp only [hreleased, if_true]
    split <;> rfl
  · simp only [hreleased, if_false]
    split <;> rfl

omit hnat in
theorem endpoints_startFound (e : SessionEntry) (filterName : String) (interimInterval : ℤ)
    (sessionContext eventContext : String) :
    (startFound cfg now s e filterName interimInterval sessionContext eventContext).1.endpoints =
      s.endpoints := by
  unfold startFound
  split
  · rfl
  · generalize (if interimInterval = 0 then cfg.acctInterimInterval else interimInterval) = interval
    dsimp only
    split <;> rfl

omit hnat in
theorem endpoints_acquireStateid : (acquireStateid s ip).endpoints = s.endpoints := by
  unfold acquireStateid
  split <;> rfl

theorem memberRun_sessionStart {filterName : String} {interimInterval : ℤ}
    {sessionContext eventContext : String} :
    MemberRun cfg nat s.endpoints (sessionStart cfg now s ip filterName interimInterval
      sessionContext eventContext).1.endpoints := by
  have hnew := @memberRun_sessionNew cfg nat now s ip hnat
  unfold sessionStart
  generalize sessionNew cfg now s ip = r at hnew ⊢
  rcases r with ⟨s', _ | e⟩
  · exact hnew
  · exact hnew.trans (.of_eq (endpoints_startFound e _ _ _ _))

theorem memberRun_sessionStop {filterName : Option String} {terminationCause : TermCause}
    {sessionContext eventContext : String} :
    MemberRun cfg nat s.endpoints (sessionStop cfg now s ip filterName terminationCause
      sessionContext eventContext).1.endpoints := by
  have hnew := @memberRun_sessionNew cfg nat now s ip hnat
  unfold sessionStop
  generalize sessionNew cfg now s ip = r at hnew ⊢
  rcases r with ⟨s', _ | e⟩
  · exact hnew
  · exact hnew.trans (.of_eq (endpoints_stopFound e _ _ _ _))

theorem memberRun_uamUp {stateid : ℤ} {filterName : String} {interimInterval : ℤ}
    {max : GaugeLimits} {sessionContext eventContext : String} :
    MemberRun cfg nat s.endpoints (uamUp cfg now s ip stateid filterName interimInterval max
      sessionContext eventContext).1.endpoints := by
  unfold uamUp
  split
  · have hstart := @memberRun_sessionStart cfg nat now
      (shapeNew (gaugeNew now s ip max) ip max.maxBpsIn max.maxBpsOut) ip hnat filterName
      interimInterval sessionContext eventContext
    dsimp only
    generalize sessionStart cfg now _ ip filterName interimInterval sessionContext eventContext = r
      at hstart ⊢
    rcases r with ⟨s', _ | _⟩
    · exact hstart
    · exact hstart.trans (.of_eq endpoints_acquireStateid)
  · exact .refl _

theorem memberRun_uamDown {stateid : ℤ} {filterName sessionContext eventContext : String} :
    MemberRun cfg nat s.endpoints (uamDown cfg now s ip stateid filterName sessionContext
      eventContext).1.endpoints := by
  unfold uamDown
  split
  · have hstop := @memberRun_sessionStop cfg nat now s ip hnat (some filterName) .user
      sessionContext eventContext
    generalize sessionStop cfg now s ip (some filterName) .user sessionContext eventContext = r
      at hstop ⊢
    rcases r with ⟨s', _ | _⟩
    · exact hstop
    · exact hstop.trans (.of_eq endpoints_acquireStateid)
  · exact .refl _

omit hnat in
theorem endpoints_uamRetention {stateid retention : ℤ} :
    (uamRetention s ip stateid retention).1.endpoints = s.endpoints := by
  have houtcome := uamRetention_outcome s ip stateid retention
  generalize uamRetention s ip stateid retention = r at houtcome ⊢
  cases houtcome with
  | refused => rfl
  | served hserved =>
    cases hserved with
    | kept => exact endpoints_acquireStateid
    | stored => exact endpoints_acquireStateid

/-- A session that is stopped for its gauge. -/
theorem memberRun_cut {s' : Controller} (hs' : s'.endpoints = s.endpoints) {cut : Bool}
    {terminationCause : TermCause} :
    MemberRun cfg nat s.endpoints (if cut then gaugeDel (sessionStop cfg now s' ip none
      terminationCause "" "").1 ip else s').endpoints := by
  cases cut with
  | false => exact .of_eq hs'
  | true =>
    rw [if_pos rfl, ← hs']
    exact memberRun_sessionStop hnat

theorem memberRun_gaugeUpdate {octets : UInt64} {dir : GaugeDir} :
    MemberRun cfg nat s.endpoints (gaugeUpdate cfg now s ip octets dir).endpoints := by
  unfold gaugeUpdate
  split
  · exact .refl _
  · refine memberRun_cut hnat ?_
    rfl

theorem memberRun_expireGaugeCb :
    MemberRun cfg nat s.endpoints (expireGaugeCb cfg now s ip).endpoints := by
  unfold expireGaugeCb
  split
  · exact .refl _
  · refine memberRun_cut hnat ?_
    rfl

theorem memberRun_expireSessionCb :
    MemberRun cfg nat s.endpoints (expireSessionCb cfg now s ip).endpoints := by
  have houtcome := @expireSessionCb_outcome cfg now s ip
  generalize expireSessionCb cfg now s ip = s' at houtcome ⊢
  cases houtcome with
  | spared => exact .refl _
  | closed => exact memberRun_sessionDel hnat
  | interim => exact .refl _

/-- **Whatever the daemon does is a run of the endpoint calls.** -/
theorem memberRun_exec (ev : Event) :
    MemberRun cfg nat s.endpoints (exec cfg s ev).endpoints := by
  obtain ⟨now, op⟩ := ev
  cases op with
  | lookup ip =>
    rw [exec_lookup]
    exact memberRun_sessionNew hnat
  | status ip =>
    rw [exec_status]
    exact memberRun_sessionNew hnat
  | start => exact memberRun_sessionStart hnat
  | stop => exact memberRun_sessionStop hnat
  | retention => exact .of_eq endpoints_uamRetention
  | up => exact memberRun_uamUp hnat
  | down => exact memberRun_uamDown hnat
  | account => exact memberRun_gaugeUpdate hnat
  | expireGauge => exact memberRun_expireGaugeCb hnat
  | expireSession => exact memberRun_expireSessionCb hnat
  | commit => exact .refl _

end Calls

end Controller

end Sweetspot
