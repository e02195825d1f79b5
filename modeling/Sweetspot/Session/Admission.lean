import Sweetspot.Session.EndpointCalls
import Sweetspot.Session.Hosts
import Sweetspot.Session.Refusal

/-!
# Who gets a session

Whatever opens a session calls `sw_session_new`, which asks whether the address is in the user
networks.

* `Admitted`: every session is for a member.
* `Admitted.exec`: whatever the daemon does keeps it so.
-/

namespace Sweetspot

namespace Controller

/-- Every session is for a member of the user networks. -/
def Admitted (cfg : Config) (s : Controller) : Prop :=
  ∀ a, (s.sessions.retrieve a).isSome → checkIp cfg.userNetworks a = 1

namespace Admitted

variable {cfg : Config} {s s' : Controller} {ip : UInt32} {now : ℤ}

theorem init (cfg : Config) : Admitted cfg init := by
  intro a ha
  cases ha

theorem of_sessions (h : Admitted cfg s)
    (hs : ∀ a, (s'.sessions.retrieve a).isSome → (s.sessions.retrieve a).isSome) :
    Admitted cfg s' :=
  fun a ha => h a (hs a ha)

theorem same (h : Admitted cfg s) (hsame : SameHosts s s') : Admitted cfg s' :=
  h.of_sessions fun a ha => hsame.sessions a ▸ ha

theorem sessionDel (h : Admitted cfg s) : Admitted cfg (sessionDel cfg s ip) := by
  unfold Controller.sessionDel
  split
  · exact h
  · refine h.of_sessions ?_
    intro a ha
    dsimp only at ha
    rw [retrieve_delete] at ha
    split at ha
    · cases ha
    · exact ha

/-- A session is opened for a member only. -/
theorem sessionNew (h : Admitted cfg s) : Admitted cfg (sessionNew cfg now s ip).1 := by
  by_cases hip : checkIp cfg.userNetworks ip = 1
  · obtain ⟨v, hview, -⟩ := @sessionNew_houses cfg now s ip
    intro a ha
    by_cases hne : a = ip
    · rw [hne]
      exact hip
    · have hother : (Controller.sessionNew cfg now s ip).1.sessions.retrieve a =
          s.sessions.retrieve a := congrArg View.session (hview.other hne)
      rw [hother] at ha
      exact h a ha
  · have habsent : s.sessions.retrieve ip = none := by
      by_contra hsome
      exact hip (h ip (Option.isSome_iff_ne_none.2 hsome))
    have hnet : checkIp cfg.userNetworks ip = 0 := by
      by_contra hnet
      exact hip (checkIp_eq_one_of_ne hnet)
    rw [Controller.sessionNew, habsent]
    simpa only [hnet, if_true] using h

theorem sessionStart (h : Admitted cfg s) {filterName : String} {interimInterval : ℤ}
    {sessionContext eventContext : String} :
    Admitted cfg (sessionStart cfg now s ip filterName interimInterval sessionContext
      eventContext).1 := by
  have hnew := @sessionNew cfg s ip now h
  unfold Controller.sessionStart
  cases hr : Controller.sessionNew cfg now s ip with
  | mk s' found =>
    rw [hr] at hnew
    cases found with
    | none => exact hnew
    | some e =>
      obtain ⟨rfl, hstored⟩ := sessionNew_session hr
      exact hnew.same (sameHosts_startFound hstored _ _ _ _ _)

theorem sessionStop (h : Admitted cfg s) {filterName : Option String} {terminationCause : TermCause}
    {sessionContext eventContext : String} :
    Admitted cfg (sessionStop cfg now s ip filterName terminationCause sessionContext
      eventContext).1 := by
  have hnew := @sessionNew cfg s ip now h
  unfold Controller.sessionStop
  cases hr : Controller.sessionNew cfg now s ip with
  | mk s' found =>
    rw [hr] at hnew
    cases found with
    | none => exact hnew
    | some e =>
      obtain ⟨rfl, hstored⟩ := sessionNew_session hr
      exact hnew.same (sameHosts_stopFound hstored _ _ _ _ _)

theorem acquireStateid (h : Admitted cfg s) : Admitted cfg (acquireStateid s ip) :=
  h.same (sameHosts_acquireStateid s ip)

theorem uamUp (h : Admitted cfg s) {stateid : ℤ} {filterName : String} {interimInterval : ℤ}
    {max : GaugeLimits} {sessionContext eventContext : String} :
    Admitted cfg (uamUp cfg now s ip stateid filterName interimInterval max sessionContext
      eventContext).1 := by
  unfold Controller.uamUp
  split
  · -- the gauge and the shaping context are no sessions
    have hmade : Admitted cfg
        (shapeNew (gaugeNew now s ip max) ip max.maxBpsIn max.maxBpsOut) := h
    have hstart := @sessionStart cfg _ ip now hmade filterName interimInterval sessionContext
      eventContext
    dsimp only
    generalize Controller.sessionStart cfg now _ ip filterName interimInterval sessionContext
      eventContext = r at hstart ⊢
    rcases r with ⟨s', _ | _⟩
    · exact hstart
    · exact acquireStateid hstart
  · exact h

theorem uamDown (h : Admitted cfg s) {stateid : ℤ}
    {filterName sessionContext eventContext : String} :
    Admitted cfg (uamDown cfg now s ip stateid filterName sessionContext eventContext).1 := by
  unfold Controller.uamDown
  split
  · have hstop := @sessionStop cfg s ip now h (some filterName) .user sessionContext eventContext
    generalize Controller.sessionStop cfg now s ip (some filterName) .user sessionContext
      eventContext = r at hstop ⊢
    rcases r with ⟨s', _ | _⟩
    · exact hstop
    · have hdel : Admitted cfg (gaugeDel s' ip) := hstop
      exact hdel.acquireStateid
  · exact h

theorem uamRetention (h : Admitted cfg s) {stateid retention : ℤ} :
    Admitted cfg (uamRetention s ip stateid retention).1 := by
  have houtcome := uamRetention_outcome s ip stateid retention
  generalize Controller.uamRetention s ip stateid retention = r at houtcome ⊢
  cases houtcome with
  | refused => exact h
  | served hserved =>
    cases hserved with
    | kept => exact h.acquireStateid
    | @stored e deathday hfound =>
      have hip : e.ip = ip := entry_key hfound
      refine acquireStateid (h.same ?_)
      exact .store hfound rfl rfl hip

/-- A session that is stopped for its gauge. -/
theorem cut (h : Admitted cfg s) (hs' : s'.sessions = s.sessions) {cut : Bool}
    {terminationCause : TermCause} :
    Admitted cfg (if cut then gaugeDel (Controller.sessionStop cfg now s' ip none terminationCause
      "" "").1 ip else s') := by
  have hcounted : Admitted cfg s' := h.of_sessions fun a ha => hs' ▸ ha
  cases cut with
  | false => exact hcounted
  | true => exact hcounted.sessionStop

theorem gaugeUpdate (h : Admitted cfg s) {octets : UInt64} {dir : GaugeDir} :
    Admitted cfg (gaugeUpdate cfg now s ip octets dir) := by
  unfold Controller.gaugeUpdate
  split
  · exact h
  · refine h.cut ?_
    rfl

theorem expireGaugeCb (h : Admitted cfg s) : Admitted cfg (expireGaugeCb cfg now s ip) := by
  unfold Controller.expireGaugeCb
  split
  · exact h
  · refine h.cut ?_
    rfl

theorem expireSessionCb (h : Admitted cfg s) : Admitted cfg (expireSessionCb cfg now s ip) := by
  have houtcome := @expireSessionCb_outcome cfg now s ip
  generalize Controller.expireSessionCb cfg now s ip = s' at houtcome ⊢
  cases houtcome with
  | spared => exact h
  | closed => exact h.sessionDel
  | @interim e hfound =>
    have hip : e.ip = ip := entry_key hfound
    exact h.same (.store hfound rfl rfl hip)

/-- **Whatever the daemon does, sessions are for members.** -/
theorem exec (h : Admitted cfg s) (ev : Event) : Admitted cfg (exec cfg s ev) := by
  obtain ⟨now, op⟩ := ev
  cases op with
  | lookup ip =>
    rw [exec_lookup]
    exact h.sessionNew
  | status ip =>
    rw [exec_status]
    exact h.sessionNew
  | start => exact h.sessionStart
  | stop => exact h.sessionStop
  | retention => exact h.uamRetention
  | up => exact h.uamUp
  | down => exact h.uamDown
  | account => exact h.gaugeUpdate
  | expireGauge => exact h.expireGaugeCb
  | expireSession => exact h.expireSessionCb
  | commit => exact h

end Admitted

end Controller

end Sweetspot
