import Sweetspot.Session.System

/-!
# Metering

A released session is to have a gauge, and nobody else; it is also to have a shaping context.  The
gauge is made before the session is started and deleted after it was stopped, so a request whose
filter is not loaded parts the two.

* `Metered`: what should hold of every address.
* `MeteredRequest`: the requests that keep it.
* `sessionStart_view`, `sessionStop_view`: what a start and a stop do to the view of their address.
* `metered_iff`: every address is metered all along a run exactly if its requests are such.
-/

namespace Sweetspot

open Controller

/-! ## What should hold of an address -/

namespace Controller.View

/-- There is a session, and it is released. -/
def Released (v : View) : Prop := ∃ e, v.session = some e ∧ e.state = .released

/-- Released sessions and gauges go together, and shaping contexts come along. -/
structure Metered (v : View) : Prop where
  gauge : v.Released ↔ v.gauge.isSome
  shape : v.Released → v.shape.isSome

theorem not_released_of_none {v : View} (h : v.session = none) : ¬ v.Released := by
  rintro ⟨e, he, -⟩
  rw [h] at he
  cases he

theorem not_released_of_captured {v : View} {e : SessionEntry} (h : v.session = some e)
    (hstate : e.state = .captured) : ¬ v.Released := by
  rintro ⟨e', he', hstate'⟩
  rw [h] at he'
  cases he'
  rw [hstate] at hstate'
  cases hstate'

/-- Without a released session there should be no gauge. -/
theorem metered_of_not_released {v : View} (h : ¬ v.Released) : v.Metered ↔ v.gauge = none := by
  constructor
  · intro hv
    rw [← Option.not_isSome_iff_eq_none, ← hv.gauge]
    exact h
  · intro hgauge
    exact ⟨by simp [h, hgauge], fun hreleased => absurd hreleased h⟩

/-- With one there should be both. -/
theorem metered_of_released {v : View} (h : v.Released) :
    v.Metered ↔ v.gauge.isSome ∧ v.shape.isSome := by
  constructor
  · intro hv
    exact ⟨hv.gauge.1 h, hv.shape h⟩
  · rintro ⟨hgauge, hshape⟩
    exact ⟨⟨fun _ => hgauge, fun _ => h⟩, fun _ => hshape⟩

/-- Two views of an address that metering cannot tell apart. -/
structure Alike (v w : View) : Prop where
  released : v.Released ↔ w.Released
  gauge : v.gauge = w.gauge
  shape : v.shape = w.shape

theorem Alike.refl (v : View) : v.Alike v := ⟨Iff.rfl, rfl, rfl⟩

theorem Alike.trans {u v w : View} (h : u.Alike v) (h' : v.Alike w) : u.Alike w :=
  ⟨h.released.trans h'.released, h.gauge.trans h'.gauge, h.shape.trans h'.shape⟩

theorem Alike.metered {v w : View} (h : v.Alike w) (hw : w.Metered) : v.Metered := by
  constructor
  · rw [h.released, h.gauge]
    exact hw.gauge
  · rw [h.released, h.shape]
    exact hw.shape

end Controller.View

/-- Every address is metered. -/
def Metered (s : Controller) : Prop := ∀ ip, (s.view ip).Metered

/-- A request that the state id lets through, for a released session, names no filter or a loaded
one. -/
def MeteredRequest (cfg : Config) (s : Controller) (ev : Event) : Prop :=
  match ev.op with
  | .up ip stateid filterName .. =>
    verifyStateid s ip stateid → (s.view ip).Released → (startFilterId cfg filterName).isSome
  | .down ip stateid filterName .. =>
    verifyStateid s ip stateid → (s.view ip).Released →
      (filterGetId cfg.filters (stopFilterName cfg (some filterName) none).1).isSome
  | _ => True

/-! ## Starts and stops -/

namespace Controller

variable {cfg : Config} {s s' : Controller} {ip : UInt32}

/-- An address changed for the better. -/
theorem metered_of_viewSet {v : View} (hview : ViewSet s s' ip v) (hs : Metered s)
    (hv : v.Metered) : Metered s' := by
  intro ip'
  by_cases hip : ip' = ip
  · rw [hip, hview.self]
    exact hv
  · rw [hview.other hip]
    exact hs ip'

theorem sessionStop_view (now : ℤ) (s : Controller) (ip : UInt32) (filterName : Option String)
    (terminationCause : TermCause) (sessionContext eventContext : String) :
    ∃ v, ViewSet s (sessionStop cfg now s ip filterName terminationCause sessionContext
        eventContext).1 ip v ∧ ¬ v.Released ∧ v.gauge = (s.view ip).gauge := by
  have hnew := @sessionNew_outcome cfg now s ip
  unfold sessionStop
  generalize sessionNew cfg now s ip = r at hnew
  cases hnew with
  | @found e h =>
    obtain ⟨e', heffect⟩ := @stopFound_effect cfg now s e filterName terminationCause
      sessionContext eventContext
    obtain rfl := entry_key h
    exact ⟨_, heffect.viewSet, View.not_released_of_captured rfl heffect.captured, rfl⟩
  | @opened s' e filterId h hfilter he hview hsource hchain hledger =>
    obtain ⟨e', heffect⟩ := @stopFound_effect cfg now s' e filterName terminationCause
      sessionContext eventContext
    obtain rfl : e.ip = ip := by rw [he]; rfl
    refine ⟨_, hview.trans heffect.viewSet,
      View.not_released_of_captured rfl heffect.captured, ?_⟩
    show (s'.view e.ip).gauge = (s.view e.ip).gauge
    rw [hview.self]
  | @refused s' shape h hview hsource hchain hledger =>
    exact ⟨_, hview, View.not_released_of_none h, rfl⟩

theorem sessionStop_result {e : SessionEntry} (h : s.sessions.retrieve ip = some e) (now : ℤ)
    (filterName : Option String) (terminationCause : TermCause)
    (sessionContext eventContext : String) :
    (sessionStop cfg now s ip filterName terminationCause sessionContext eventContext).2 =
      (filterGetId cfg.filters (stopFilterName cfg filterName e.dnFilterName).1).isSome := by
  have hnew : sessionNew cfg now s ip = (s, some e) := by
    rw [sessionNew, h]
  obtain ⟨e', heffect⟩ := @stopFound_effect cfg now s e filterName terminationCause
    sessionContext eventContext
  rw [sessionStop, hnew]
  exact heffect.result_eq

theorem sessionStart_view (now : ℤ) (s : Controller) (ip : UInt32) (filterName : String)
    (interimInterval : ℤ) (sessionContext eventContext : String) :
    ∃ v, ViewSet s (sessionStart cfg now s ip filterName interimInterval sessionContext
        eventContext).1 ip v ∧
      ((sessionStart cfg now s ip filterName interimInterval sessionContext
          eventContext).2 = true →
        v.Released ∧ v.gauge = (s.view ip).gauge ∧ v.shape = (s.view ip).shape) ∧
      ((sessionStart cfg now s ip filterName interimInterval sessionContext
          eventContext).2 = false → (v.Released ↔ (s.view ip).Released)) := by
  have hnew := @sessionNew_outcome cfg now s ip
  unfold sessionStart
  generalize sessionNew cfg now s ip = r at hnew
  cases hnew with
  | @found e h =>
    obtain rfl := entry_key h
    have hstart := @startFound_outcome cfg now s e filterName interimInterval sessionContext
      eventContext
    simp only []
    generalize startFound cfg now s e filterName interimInterval sessionContext eventContext = r
      at hstart ⊢
    cases hstart with
    | unknown hfilter => exact ⟨_, ViewSet.refl s e.ip, by simp, fun _ => Iff.rfl⟩
    | again e' hstate hip hstate' hid hdn hfilter hview hsource hchain hledger =>
      exact ⟨_, hview, fun _ => ⟨⟨e', rfl, hstate'⟩, rfl, rfl⟩, by simp⟩
    | released e' hstate hip hstate' hid hdn hfilter hview hsource hchain hledger =>
      exact ⟨_, hview, fun _ => ⟨⟨e', rfl, hstate'⟩, rfl, rfl⟩, by simp⟩
  | @opened s' e filterId h hfilter he hview hsource hchain hledger =>
    obtain rfl : e.ip = ip := by rw [he]; rfl
    have hcaptured : e.state = .captured := by rw [he]; rfl
    have hstart := @startFound_outcome cfg now s' e filterName interimInterval sessionContext
      eventContext
    simp only []
    generalize startFound cfg now s' e filterName interimInterval sessionContext eventContext = r
      at hstart ⊢
    cases hstart with
    | unknown hfilter =>
      refine ⟨_, hview, by simp, fun _ => iff_of_false ?_ (View.not_released_of_none h)⟩
      exact View.not_released_of_captured rfl hcaptured
    | again e' hstate hip hstate' hid hdn hfilter hview' hsource' hchain' hledger' =>
      rw [hcaptured] at hstate
      cases hstate
    | released e' hstate hip hstate' hid hdn hfilter hview' hsource' hchain' hledger' =>
      refine ⟨_, hview.trans hview', fun _ => ⟨⟨e', rfl, hstate'⟩, ?_, ?_⟩, by simp⟩
      · show (s'.view e.ip).gauge = (s.view e.ip).gauge
        rw [hview.self]
      · show (s'.view e.ip).shape = (s.view e.ip).shape
        rw [hview.self]
  | @refused s' shape h hview hsource hchain hledger =>
    refine ⟨_, hview, by simp, fun _ => iff_of_false ?_ (View.not_released_of_none h)⟩
    exact View.not_released_of_none h

theorem sessionStart_result {e : SessionEntry} (h : s.sessions.retrieve ip = some e) (now : ℤ)
    (filterName : String) (interimInterval : ℤ) (sessionContext eventContext : String) :
    (sessionStart cfg now s ip filterName interimInterval sessionContext eventContext).2 =
      (startFilterId cfg filterName).isSome := by
  have hnew : sessionNew cfg now s ip = (s, some e) := by
    rw [sessionNew, h]
  have hstart := @startFound_outcome cfg now s e filterName interimInterval sessionContext
    eventContext
  rw [sessionStart, hnew]
  simp only []
  generalize startFound cfg now s e filterName interimInterval sessionContext eventContext = r
    at hstart ⊢
  cases hstart with
  | unknown hfilter => simp [hfilter]
  | again e' hstate hip hstate' hid hdn hfilter hview hsource hchain hledger => simp [hfilter]
  | released e' hstate hip hstate' hid hdn hfilter hview hsource hchain hledger => simp [hfilter]

/-- Storing a session in the same state. -/
theorem viewSet_alike {e e' : SessionEntry} (h : s.sessions.retrieve ip = some e)
    (hip : e'.ip = e.ip) (hstate : e'.state = e.state)
    (hs : s'.sessions = s.sessions.insert e') (hg : s'.gauges = s.gauges)
    (hsh : s'.shapes = s.shapes) : ∃ v, ViewSet s s' ip v ∧ v.Alike (s.view ip) := by
  refine ⟨_, viewSet_session (hip.trans (entry_key h)) hs hg hsh, ?_, rfl, rfl⟩
  constructor
  · rintro ⟨e₁, ⟨⟩, he₁⟩
    exact ⟨e, h, hstate ▸ he₁⟩
  · rintro ⟨e₁, he, he₁⟩
    obtain rfl : e = e₁ := Option.some.inj (h.symm.trans he)
    exact ⟨e', rfl, hstate.trans he₁⟩

/-- A new state id leaves the address as it is. -/
theorem acquireStateid_view (s : Controller) (ip : UInt32) :
    ∃ v, ViewSet s (acquireStateid s ip) ip v ∧ v.Alike (s.view ip) := by
  unfold acquireStateid
  cases h : s.sessions.retrieve ip with
  | none => exact ⟨_, ViewSet.refl s ip, .refl _⟩
  | some e =>
    have hip : ({ e with stateid := (if e.stateid = 0x7fffffff then 0 else e.stateid) + 1 } :
        SessionEntry).ip = e.ip := rfl
    exact viewSet_alike h hip rfl rfl rfl rfl

/-- So does a new retention time. -/
theorem uamRetention_view (s : Controller) (ip : UInt32) (stateid retention : ℤ) :
    ∃ v, ViewSet s (uamRetention s ip stateid retention).1 ip v ∧ v.Alike (s.view ip) := by
  have hserved := uamRetention_outcome s ip stateid retention
  generalize uamRetention s ip stateid retention = r at hserved ⊢
  cases hserved with
  | refused => exact ⟨_, ViewSet.refl s ip, .refl _⟩
  | @served s' h =>
    have hretention : ∃ v, ViewSet s s' ip v ∧ v.Alike (s.view ip) := by
      cases h with
      | kept hpos => exact ⟨_, ViewSet.refl s ip, .refl _⟩
      | @stored e deathday h hpos =>
        exact @viewSet_alike _ _ _ e { e with deathday, retention } h rfl rfl rfl rfl rfl
    obtain ⟨v, hv, halike⟩ := hretention
    obtain ⟨w, hw, halike'⟩ := acquireStateid_view s' ip
    rw [hv.self] at halike'
    exact ⟨w, hv.trans hw, halike'.trans halike⟩

/-! ## Requests -/

/-- **A request to let in** leaves the address metered unless it failed for a released session. -/
theorem uamUp_view (now : ℤ) {stateid : ℤ} (hverify : verifyStateid s ip stateid = true)
    (filterName : String) (interimInterval : ℤ) (max : GaugeLimits)
    (sessionContext eventContext : String) :
    ∃ v, ViewSet s (uamUp cfg now s ip stateid filterName interimInterval max sessionContext
        eventContext).1 ip v ∧
      (v.Metered ↔ ((s.view ip).Released → (startFilterId cfg filterName).isSome)) := by
  obtain ⟨g, hgauge⟩ := viewSet_gaugeNew now s ip max
  have hview := hgauge.trans
    (viewSet_shapeNew (gaugeNew now s ip max) ip max.maxBpsIn max.maxBpsOut)
  rw [hgauge.self] at hview
  obtain ⟨s₁, hs₁⟩ : ∃ s₁, s₁ =
    shapeNew (gaugeNew now s ip max) ip max.maxBpsIn max.maxBpsOut := ⟨_, rfl⟩
  rw [← hs₁] at hview
  have hreleased : (s₁.view ip).Released ↔ (s.view ip).Released := by rw [hview.self]; exact Iff.rfl
  obtain ⟨v, hv, hdone, hfailed⟩ := @sessionStart_view cfg now s₁ ip filterName interimInterval
    sessionContext eventContext
  have hresult : (s.view ip).Released → (sessionStart cfg now s₁ ip filterName interimInterval
      sessionContext eventContext).2 = (startFilterId cfg filterName).isSome := by
    intro h
    obtain ⟨e, he, -⟩ := hreleased.2 h
    exact sessionStart_result he now filterName interimInterval sessionContext eventContext
  simp only [uamUp, hverify, if_true, ← hs₁]
  generalize sessionStart cfg now s₁ ip filterName interimInterval sessionContext eventContext = r
    at hv hdone hfailed hresult ⊢
  rcases r with ⟨s', _ | _⟩
  · -- the gauge and the shaping context are taken back
    have hdel := (hview.trans hv).trans (viewSet_gaugeDel s' ip)
    have hdel' := hdel.trans (viewSet_shapeDel (gaugeDel s' ip) ip)
    refine ⟨_, hdel', ?_⟩
    rw [hdel.self, hv.self]
    have hsame : ({ v with gauge := none, shape := none } : View).Released ↔
        (s.view ip).Released := (hfailed rfl).trans hreleased
    by_cases h : (s.view ip).Released
    · have hfilter := hresult h
      refine iff_of_false ?_ ?_
      · rw [View.metered_of_released (hsame.2 h)]
        simp
      · intro hsome
        rw [hsome h] at hfilter
        cases hfilter
    · refine iff_of_true ?_ (fun h' => absurd h' h)
      rw [View.metered_of_not_released fun h' => h (hsame.1 h')]
  · obtain ⟨hv', hvgauge, hvshape⟩ := hdone rfl
    obtain ⟨w, hw, halike⟩ := acquireStateid_view s' ip
    refine ⟨w, (hview.trans hv).trans hw, iff_of_true ?_ fun h => (hresult h).symm⟩
    rw [hv.self] at halike
    apply halike.metered
    rw [View.metered_of_released hv', hvgauge, hvshape, hview.self]
    exact ⟨rfl, rfl⟩

/-- **A request to send back** leaves the address metered unless it failed for a released
session. -/
theorem uamDown_view (now : ℤ) {stateid : ℤ} (hverify : verifyStateid s ip stateid = true)
    (hmetered : (s.view ip).Metered) (filterName sessionContext eventContext : String) :
    ∃ v, ViewSet s (uamDown cfg now s ip stateid filterName sessionContext eventContext).1 ip v ∧
      (v.Metered ↔ ((s.view ip).Released →
        (filterGetId cfg.filters (stopFilterName cfg (some filterName) none).1).isSome)) := by
  obtain ⟨v, hv, hnot, hvgauge⟩ := @sessionStop_view cfg now s ip (some filterName) .user
    sessionContext eventContext
  have hresult : (s.view ip).Released → (sessionStop cfg now s ip (some filterName) .user
      sessionContext eventContext).2 =
        (filterGetId cfg.filters (stopFilterName cfg (some filterName) none).1).isSome := by
    rintro ⟨e, he, -⟩
    exact sessionStop_result he now (some filterName) .user sessionContext eventContext
  simp only [uamDown, hverify, if_true]
  generalize sessionStop cfg now s ip (some filterName) .user sessionContext eventContext = r
    at hv hresult ⊢
  rcases r with ⟨s', _ | _⟩
  · refine ⟨v, hv, ?_⟩
    rw [View.metered_of_not_released hnot, hvgauge]
    by_cases h : (s.view ip).Released
    · have hfilter := hresult h
      refine iff_of_false ?_ ?_
      · intro hnone
        have hsome := hmetered.gauge.1 h
        rw [hnone] at hsome
        cases hsome
      · intro hsome
        rw [hsome h] at hfilter
        cases hfilter
    · exact iff_of_true ((View.metered_of_not_released h).1 hmetered) fun h' => absurd h' h
  · have hdel := hv.trans (viewSet_gaugeDel s' ip)
    obtain ⟨w, hw, halike⟩ := acquireStateid_view (gaugeDel s' ip) ip
    refine ⟨w, hdel.trans hw, iff_of_true ?_ fun h => (hresult h).symm⟩
    rw [hdel.self, hv.self] at halike
    have hnot' : ¬ ({ v with gauge := none } : View).Released := hnot
    exact halike.metered ((View.metered_of_not_released hnot').2 rfl)

/-- Gauges do their work without parting from the sessions. -/
theorem gaugeOutcome_view {now : ℤ} {stops : Bool} (h : GaugeOutcome cfg now s ip stops s')
    (hmetered : (s.view ip).Metered) : ∃ v, ViewSet s s' ip v ∧ v.Metered := by
  cases h with
  | absent h => exact ⟨_, ViewSet.refl s ip, hmetered⟩
  | kept h hbooks hview =>
    have hgauge : (s.view ip).gauge.isSome := by
      show (s.gauges.retrieve ip).isSome
      rw [h, Option.isSome_some]
    exact ⟨_, hview, ⟨fun _ => rfl, fun _ => hmetered.gauge.2 hgauge⟩, hmetered.shape⟩
  | @cut g g' s₁ terminationCause h hbooks hview =>
    obtain ⟨v, hv, hnot, -⟩ := @sessionStop_view cfg now s₁ ip none terminationCause "" ""
    have hdel := (hview.trans hv).trans
      (viewSet_gaugeDel (sessionStop cfg now s₁ ip none terminationCause "" "").1 ip)
    refine ⟨_, hdel, ?_⟩
    rw [hv.self]
    have hnot' : ¬ ({ v with gauge := none } : View).Released := hnot
    exact (View.metered_of_not_released hnot').2 rfl

/-- Opening a session concerns no gauge. -/
theorem sessionNew_view (now : ℤ) (hmetered : (s.view ip).Metered) :
    ∃ v, ViewSet s (sessionNew cfg now s ip).1 ip v ∧ v.Metered := by
  have hnew := @sessionNew_outcome cfg now s ip
  generalize sessionNew cfg now s ip = r at hnew
  cases hnew with
  | found h => exact ⟨_, ViewSet.refl s ip, hmetered⟩
  | opened h hfilter he hview hsource hchain hledger =>
    have hgauge := (View.metered_of_not_released (View.not_released_of_none h)).1 hmetered
    refine ⟨_, hview, ?_⟩
    rwa [View.metered_of_not_released (View.not_released_of_captured rfl (by rw [he]; rfl))]
  | refused h hview hsource hchain hledger =>
    have hgauge := (View.metered_of_not_released (View.not_released_of_none h)).1 hmetered
    refine ⟨_, hview, ?_⟩
    rwa [View.metered_of_not_released (View.not_released_of_none h)]

/-- Nor does expiring a session: only captured ones are deleted. -/
theorem expireSessionCb_view (now : ℤ) (hmetered : (s.view ip).Metered) :
    ∃ v, ViewSet s (expireSessionCb cfg now s ip) ip v ∧ v.Metered := by
  have hexpire := @expireSessionCb_outcome cfg now s ip
  generalize expireSessionCb cfg now s ip = s' at hexpire ⊢
  cases hexpire with
  | spared => exact ⟨_, ViewSet.refl s ip, hmetered⟩
  | closed h hstate hdead =>
    have hgauge := (View.metered_of_not_released
      (View.not_released_of_captured h hstate)).1 hmetered
    refine ⟨_, viewSet_sessionDel h, ?_⟩
    rwa [View.metered_of_not_released (View.not_released_of_none rfl)]
  | @interim e h hstate hinterim =>
    have hstored : ∃ v, ViewSet s { s.acctSubmit ip .interim "" now with
        sessions := s.sessions.insert { e with interim := now + e.interimInterval } } ip v ∧
        v.Alike (s.view ip) :=
      @viewSet_alike _ _ _ e { e with interim := now + e.interimInterval } h rfl rfl rfl rfl rfl
    obtain ⟨v, hv, halike⟩ := hstored
    exact ⟨v, hv, halike.metered hmetered⟩

/-! ## Runs -/

/-- **Step lemma.** An event changes one address, and leaves it metered exactly if it is no request
that fails for a released session. -/
theorem exec_view {ev : Event} (hbare : ¬ ev.op.IsBare) (hip : ev.op.ip = some ip)
    (hmetered : (s.view ip).Metered) :
    ∃ v, ViewSet s (exec cfg s ev) ip v ∧ (v.Metered ↔ MeteredRequest cfg s ev) := by
  obtain ⟨now, op⟩ := ev
  have hkeep : MeteredRequest cfg s ⟨now, op⟩ →
      (∃ v, ViewSet s (exec cfg s ⟨now, op⟩) ip v ∧ v.Metered) →
      ∃ v, ViewSet s (exec cfg s ⟨now, op⟩) ip v ∧
        (v.Metered ↔ MeteredRequest cfg s ⟨now, op⟩) := by
    rintro hrequest ⟨v, hv, hvm⟩
    exact ⟨v, hv, iff_of_true hvm hrequest⟩
  cases op with
  | lookup ip' =>
    obtain rfl : ip' = ip := Option.some.inj hip
    refine hkeep trivial ?_
    rw [exec_lookup]
    exact sessionNew_view now hmetered
  | status ip' =>
    obtain rfl : ip' = ip := Option.some.inj hip
    refine hkeep trivial ?_
    rw [exec_status]
    exact sessionNew_view now hmetered
  | start | stop => exact absurd trivial hbare
  | retention ip' stateid retention =>
    obtain rfl : ip' = ip := Option.some.inj hip
    obtain ⟨v, hv, halike⟩ := uamRetention_view s ip' stateid retention
    exact hkeep trivial ⟨v, hv, halike.metered hmetered⟩
  | up ip' stateid filterName interimInterval max sessionContext eventContext =>
    obtain rfl : ip' = ip := Option.some.inj hip
    by_cases hverify : verifyStateid s ip' stateid = true
    · obtain ⟨v, hv, hiff⟩ := @uamUp_view cfg s ip' now stateid hverify filterName interimInterval
        max sessionContext eventContext
      refine ⟨v, hv, hiff.trans ?_⟩
      exact ⟨fun h _ => h, fun h => h hverify⟩
    · refine hkeep (fun h => absurd h hverify) ⟨_, ?_, hmetered⟩
      have hexec : exec cfg s ⟨now, .up ip' stateid filterName interimInterval max sessionContext
          eventContext⟩ = s := by
        show (uamUp ..).1 = s
        rw [uamUp, if_neg hverify]
      rw [hexec]
      exact ViewSet.refl s ip'
  | down ip' stateid filterName sessionContext eventContext =>
    obtain rfl : ip' = ip := Option.some.inj hip
    by_cases hverify : verifyStateid s ip' stateid = true
    · obtain ⟨v, hv, hiff⟩ := @uamDown_view cfg s ip' now stateid hverify hmetered filterName
        sessionContext eventContext
      refine ⟨v, hv, hiff.trans ?_⟩
      exact ⟨fun h _ => h, fun h => h hverify⟩
    · refine hkeep (fun h => absurd h hverify) ⟨_, ?_, hmetered⟩
      have hexec : exec cfg s ⟨now, .down ip' stateid filterName sessionContext eventContext⟩ =
          s := by
        show (uamDown ..).1 = s
        rw [uamDown, if_neg hverify]
      rw [hexec]
      exact ViewSet.refl s ip'
  | account ip' octets dir =>
    obtain rfl : ip' = ip := Option.some.inj hip
    exact hkeep trivial (gaugeOutcome_view (gaugeUpdate_outcome now s ip' octets dir) hmetered)
  | expireGauge ip' =>
    obtain rfl : ip' = ip := Option.some.inj hip
    exact hkeep trivial (gaugeOutcome_view (expireGaugeCb_outcome now s ip') hmetered)
  | expireSession ip' =>
    obtain rfl : ip' = ip := Option.some.inj hip
    exact hkeep trivial (expireSessionCb_view now hmetered)
  | commit => cases hip

theorem metered_init : Metered init := by
  intro ip
  exact (View.metered_of_not_released (View.not_released_of_none rfl)).2 rfl

/-- A step that meets the guard keeps everything metered, and no other does. -/
theorem metered_step_iff {ev : Event}
    (hstep : Step cfg (fun op => ¬ op.IsBare) s ev s') (hs : Metered s) :
    Metered s' ↔ MeteredRequest cfg s ev := by
  obtain ⟨hbare, rfl⟩ := hstep
  cases hip : ev.op.ip with
  | none =>
    obtain ⟨now, op⟩ := ev
    cases op with
    | commit finalFlag accepts => exact iff_of_true hs trivial
    | _ => cases hip
  | some ip =>
    obtain ⟨v, hv, hiff⟩ := @exec_view cfg s ip ev hbare hip (hs ip)
    rw [← hiff]
    constructor
    · intro h
      rw [← hv.self]
      exact h ip
    · exact metered_of_viewSet hv hs

/-- Expiry keeps everything metered. -/
theorem metered_of_expiry {evs : List Event}
    (hrun : Run (Step cfg fun op => ∃ ip, op = .expireGauge ip ∨ op = .expireSession ip) s evs s')
    (hs : Metered s) : Metered s' := by
  refine hrun.invariant ?_ hs
  rintro s ⟨t, _⟩ s' ⟨⟨ip, rfl | rfl⟩, hs'⟩ h
  · exact (@metered_step_iff cfg s s' ⟨t, .expireGauge ip⟩ ⟨not_false, hs'⟩ h).2 trivial
  · exact (@metered_step_iff cfg s s' ⟨t, .expireSession ip⟩ ⟨not_false, hs'⟩ h).2 trivial

/-- A pass over the gauges does. -/
theorem metered_gaugeExpire {now : ℤ} {order : List UInt32} (hs : Metered s) :
    Metered (gaugeExpire cfg now s order) :=
  metered_of_expiry (run_gaugeExpire (fun ip => ⟨ip, Or.inl rfl⟩) now s order) hs

/-- So does a pass over the sessions. -/
theorem metered_sessionExpire {now : ℤ} {order : List UInt32} (hs : Metered s) :
    Metered (sessionExpire cfg now s order) :=
  metered_of_expiry (run_sessionExpire (fun ip => ⟨ip, Or.inr rfl⟩) now s order) hs

/-- **Metering.** While the session module is called by the requests and the gauges only, released
sessions and gauges go together, and shaping contexts come along, all along a run exactly if no
request of it fails for a released session because its filter is not loaded. -/
theorem metered_iff {evs : List Event}
    (hrun : Run (Step cfg fun op => ¬ op.IsBare) init evs s) :
    Run.Always (Step cfg fun op => ¬ op.IsBare) Metered init evs ↔
      Run.Guarded (Step cfg fun op => ¬ op.IsBare) (MeteredRequest cfg) init evs := by
  refine Run.always_iff_guarded (I := Metered) step_det (fun _ h => h) ?_ ?_ hrun metered_init
  · intro s ev s' hstep hrequest hs
    exact (metered_step_iff hstep hs).2 hrequest
  · intro s ev s' hstep hs hs'
    exact (metered_step_iff hstep hs).1 hs'

/-- The only user is let in and sent back. -/
theorem metered_iff_oneUser :
    Run.Always (Step oneUserConfig fun op => ¬ op.IsBare) Metered init [upPaid, downUser] ↔
      Run.Guarded (Step oneUserConfig fun op => ¬ op.IsBare) (MeteredRequest oneUserConfig) init
        [upPaid, downUser] :=
  metered_iff (run_foldl init (by decide))

/-- The only user is let in again, with a filter that is not loaded. -/
def upLost : Event := ⟨0, .up 0x0a000001 0 "lost" 0 .unlimited "" ""⟩

/-- The user stays released, and is counted no more. -/
theorem metered_lost :
    ¬ ∀ cfg evs s, Run (Step cfg fun op => ¬ op.IsBare) init evs s → Metered s := by
  intro h
  have hmetered := h oneUserConfig [upPaid, upLost] _ (run_foldl init (by decide)) 0x0a000001
  have hentry : (([upPaid, upLost].foldl (exec oneUserConfig) init).sessions.retrieve
      0x0a000001).map SessionEntry.state = some .released := by
    decide +kernel
  have hgauge : (([upPaid, upLost].foldl (exec oneUserConfig) init).gauges.retrieve
      0x0a000001).isSome = false := by
    decide +kernel
  obtain ⟨e, he, hstate⟩ := Option.map_eq_some_iff.1 hentry
  have hsome := hmetered.gauge.1 ⟨e, he, hstate⟩
  rw [show (_ : View).gauge.isSome = false from hgauge] at hsome
  cases hsome

end Controller

end Sweetspot
