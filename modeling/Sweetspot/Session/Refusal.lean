import Sweetspot.Session.System

/-!
# Requests answered with an error

A request that fails should leave nothing behind.  `UP` makes the gauge and the shaping context
before it starts the session, and takes them back by deleting both, whether it had made them or not;
`DN` changes the session before it looks its filter up.

* `UamRequest`, `serve`: the requests that change something, and their verdict.
* `Housed`: a shaping context has a session beside it, in every state reached (`housed_of_run`).
* `Untouched`: what a failed request should leave; `Harmless`: when it does.
* `serve_untouched_iff`: exactly then.
-/

namespace Sweetspot

namespace Controller

variable {cfg : Config} {s s' : Controller} {ip : UInt32}

/-! ## Requests -/

/-- `UP`, `DN` and `RT`, the last with or without a new retention time. -/
inductive UamRequest
  | up (stateid : ℤ) (filterName : String) (interimInterval : ℤ) (max : GaugeLimits)
    (sessionContext eventContext : String)
  | down (stateid : ℤ) (filterName sessionContext eventContext : String)
  | retention (stateid : ℤ) (retention : Option ℤ)

/-- The request for an address; `false` is the verdict `ER`. -/
def serve (cfg : Config) (now : ℤ) (s : Controller) (ip : UInt32) : UamRequest → Controller × Bool
  | .up stateid filterName interimInterval max sessionContext eventContext =>
    uamUp cfg now s ip stateid filterName interimInterval max sessionContext eventContext
  | .down stateid filterName sessionContext eventContext =>
    uamDown cfg now s ip stateid filterName sessionContext eventContext
  | .retention stateid (some retention) => uamRetention s ip stateid retention
  -- the retention time is only read
  | .retention _ none => (s, (s.sessions.retrieve ip).isSome)

/-- A session just opened. -/
def IsFresh (cfg : Config) (now : ℤ) (ip : UInt32) (e : SessionEntry) : Prop :=
  ∃ filterId sessionId, filterGetId cfg.filters cfg.filterAnonymous = some filterId ∧
    e = { freshSession ip filterId now with sessionId }

/-- The address and the queue are as before, but for a session just opened if there was none. -/
structure Untouched (cfg : Config) (now : ℤ) (s s' : Controller) (ip : UInt32) : Prop where
  chain : s'.acctChain = s.acctChain
  view : s'.view ip = s.view ip ∨
    (s.view ip).session = none ∧
      ∃ e, IsFresh cfg now ip e ∧ s'.view ip = { s.view ip with session := some e }

/-- `sw_session_new` makes a session for the address: it is in the user networks, the filter for
strangers is loaded, and so is its source-NAT endpoint, if it needs one. -/
def Openable (cfg : Config) (s : Controller) (ip : UInt32) : Prop :=
  checkIp cfg.userNetworks ip ≠ 0 ∧
    (filterGetId cfg.filters cfg.filterAnonymous).isSome ∧ (endpointOpen cfg s ip).2 = true

/-- A request that leaves nothing behind if it fails: its state id does not match; or it is an `UP`
for an address without gauge and shaping context; or a `DN` for a captured session that keeps its
`dn_filter_name`, or for an address that no session can be opened for; or an `RT`. -/
def Harmless (cfg : Config) (s : Controller) (ip : UInt32) : UamRequest → Prop
  | .up stateid .. =>
    verifyStateid s ip stateid = true → (s.view ip).gauge = none ∧ (s.view ip).shape = none
  | .down stateid filterName .. =>
    verifyStateid s ip stateid = true →
      match s.sessions.retrieve ip with
      | none => ¬ Openable cfg s ip
      | some e =>
        e.state = .captured ∧
          e.dnFilterName = (stopFilterName cfg (some filterName) e.dnFilterName).2
  | .retention .. => True

/-! ## Shaping contexts have sessions -/

/-- A shaping context has a session beside it. -/
def View.Housed (v : View) : Prop := v.shape.isSome → v.session.isSome

/-- Every shaping context has one. -/
def Housed (s : Controller) : Prop := ∀ ip, (s.view ip).Housed

theorem View.housed_of_session {v : View} (h : v.session.isSome) : v.Housed := fun _ => h

theorem View.housed_of_shape {v : View} (h : v.shape = none) : v.Housed := by
  intro hshape
  rw [h] at hshape
  cases hshape

/-- What a function does to one address, if it keeps shaping contexts with sessions. -/
def Houses (s s' : Controller) (ip : UInt32) : Prop :=
  ∃ v, ViewSet s s' ip v ∧ ((s.view ip).Housed → v.Housed)

theorem Houses.housed (h : Houses s s' ip) (hs : Housed s) : Housed s' := by
  obtain ⟨v, hview, hv⟩ := h
  intro ip'
  by_cases hip : ip' = ip
  · rw [hip, hview.self]
    exact hv (hs ip)
  · rw [hview.other hip]
    exact hs ip'

theorem Houses.refl (s : Controller) (ip : UInt32) : Houses s s ip :=
  ⟨_, ViewSet.refl s ip, id⟩

theorem Houses.trans {s'' : Controller} (h : Houses s s' ip) (h' : Houses s' s'' ip) :
    Houses s s'' ip := by
  obtain ⟨v, hview, hv⟩ := h
  obtain ⟨w, hview', hw⟩ := h'
  rw [hview.self] at hw
  exact ⟨w, hview.trans hview', fun hs => hw (hv hs)⟩

/-- If the session could not be opened, the shaping context is gone too or as before. -/
theorem sessionNew_shape (now : ℤ) (h : (sessionNew cfg now s ip).2 = none) :
    ((sessionNew cfg now s ip).1.view ip).shape = none ∨
      ((sessionNew cfg now s ip).1.view ip).shape = (s.view ip).shape := by
  unfold sessionNew at h ⊢
  cases hfound : s.sessions.retrieve ip with
  | some e => exact Or.inr rfl
  | none =>
    by_cases hnet : checkIp cfg.userNetworks ip = 0
    · rw [if_pos hnet]
      exact Or.inr rfl
    · simp only [if_neg hnet]
      cases hfilter : filterGetId cfg.filters cfg.filterAnonymous with
      | none => exact Or.inr rfl
      | some filterId =>
        simp only [hfound, if_neg hnet, hfilter] at h
        simp only []
        split at h
        · cases h
        · rename_i hopened
          rw [if_neg hopened]
          left
          have hdel := @viewSet_sessionDel_insert cfg s
            { s with
              sessions := s.sessions.insert (freshSession ip filterId now)
              endpoints := (endpointOpen cfg
                { s with sessions := s.sessions.insert (freshSession ip filterId now) } ip).1 }
            (freshSession ip filterId now) hfound rfl rfl rfl
          exact congrArg View.shape hdel.self

/-- **Opening a session.**  It can fail only for an address that has none, and then leaves the
session table as it was. -/
theorem sessionNew_houses (now : ℤ) (s : Controller) (ip : UInt32) :
    Houses s (sessionNew cfg now s ip).1 ip := by
  have hshape := @sessionNew_shape cfg s ip now
  have hnew := @sessionNew_outcome cfg now s ip
  generalize sessionNew cfg now s ip = r at hshape hnew ⊢
  cases hnew with
  | found h => exact .refl s ip
  | opened h hfilter he hview hsource hchain hledger =>
    exact ⟨_, hview, fun _ => View.housed_of_session rfl⟩
  | @refused s' shape h hview hsource hchain hledger =>
    refine ⟨_, hview, ?_⟩
    intro hs
    have hcases := hshape rfl
    rw [hview.self] at hcases
    rcases hcases with hnone | hsame
    · exact View.housed_of_shape hnone
    · intro hsome
      have hbefore : (s.view ip).shape.isSome := by
        rw [← hsame]
        exact hsome
      exact hs hbefore

/-- The session that was found or opened is in the table. -/
theorem sessionNew_session {now : ℤ} {e : SessionEntry} {s' : Controller}
    (h : sessionNew cfg now s ip = (s', some e)) :
    e.ip = ip ∧ (s'.view ip).session = some e := by
  have hnew := @sessionNew_outcome cfg now s ip
  rw [h] at hnew
  cases hnew with
  | found hfound => exact ⟨entry_key hfound, hfound⟩
  | opened hfound hfilter he hview hsource hchain hledger =>
    refine ⟨by rw [he]; rfl, ?_⟩
    rw [hview.self]

theorem sessionStop_houses (now : ℤ) (s : Controller) (ip : UInt32) (filterName : Option String)
    (terminationCause : TermCause) (sessionContext eventContext : String) :
    Houses s (sessionStop cfg now s ip filterName terminationCause sessionContext eventContext).1
      ip := by
  have hhouses := @sessionNew_houses cfg now s ip
  unfold sessionStop
  cases hnew : sessionNew cfg now s ip with
  | mk s' found =>
    rw [hnew] at hhouses
    cases found with
    | none => exact hhouses
    | some e =>
      obtain ⟨rfl, -⟩ := sessionNew_session hnew
      obtain ⟨e', heffect⟩ := @stopFound_effect cfg now s' e filterName terminationCause
        sessionContext eventContext
      exact hhouses.trans ⟨_, heffect.viewSet, fun _ => View.housed_of_session rfl⟩

/-- A session that was started is there. -/
theorem sessionStart_houses (now : ℤ) (s : Controller) (ip : UInt32) (filterName : String)
    (interimInterval : ℤ) (sessionContext eventContext : String) :
    ∃ v, ViewSet s (sessionStart cfg now s ip filterName interimInterval sessionContext
        eventContext).1 ip v ∧ ((s.view ip).Housed → v.Housed) ∧
      ((sessionStart cfg now s ip filterName interimInterval sessionContext eventContext).2 =
        true → v.session.isSome) := by
  obtain ⟨v, hview, hv⟩ := @sessionNew_houses cfg now s ip
  unfold sessionStart
  cases hnew : sessionNew cfg now s ip with
  | mk s' found =>
    rw [hnew] at hview
    cases found with
    | none => exact ⟨v, hview, hv, by simp⟩
    | some e =>
      obtain ⟨rfl, hsession⟩ := sessionNew_session hnew
      have hstart := @startFound_outcome cfg now s' e filterName interimInterval sessionContext
        eventContext
      simp only []
      generalize startFound cfg now s' e filterName interimInterval sessionContext eventContext =
        r at hstart ⊢
      cases hstart with
      | unknown hfilter => exact ⟨v, hview, hv, by simp⟩
      | again e' hstate hip hstate' hid hdn hfilter hview' hsource hchain hledger =>
        exact ⟨_, hview.trans hview', fun _ => View.housed_of_session rfl, fun _ => rfl⟩
      | released e' hstate hip hstate' hid hdn hfilter hview' hsource hchain hledger =>
        exact ⟨_, hview.trans hview', fun _ => View.housed_of_session rfl, fun _ => rfl⟩

/-- Storing a session again. -/
theorem houses_session {e e' : SessionEntry} (h : s.sessions.retrieve ip = some e)
    (hip : e'.ip = e.ip) (hs : s'.sessions = s.sessions.insert e') (hg : s'.gauges = s.gauges)
    (hsh : s'.shapes = s.shapes) : Houses s s' ip :=
  ⟨_, viewSet_session (hip.trans (entry_key h)) hs hg hsh, fun _ => View.housed_of_session rfl⟩

theorem acquireStateid_houses (s : Controller) (ip : UInt32) :
    Houses s (acquireStateid s ip) ip := by
  unfold acquireStateid
  cases h : s.sessions.retrieve ip with
  | none => exact .refl s ip
  | some e =>
    have hip : ({ e with stateid := (if e.stateid = 0x7fffffff then 0 else e.stateid) + 1 } :
        SessionEntry).ip = e.ip := rfl
    exact houses_session h hip rfl rfl rfl

theorem gaugeDel_houses (s : Controller) (ip : UInt32) : Houses s (gaugeDel s ip) ip :=
  ⟨_, viewSet_gaugeDel s ip, fun hs => hs⟩

theorem uamUp_houses (now : ℤ) (s : Controller) (ip : UInt32) (stateid : ℤ) (filterName : String)
    (interimInterval : ℤ) (max : GaugeLimits) (sessionContext eventContext : String) :
    Houses s (uamUp cfg now s ip stateid filterName interimInterval max sessionContext
      eventContext).1 ip := by
  unfold uamUp
  by_cases hverify : verifyStateid s ip stateid = true
  · rw [if_pos hverify]
    obtain ⟨g, hgauge⟩ := viewSet_gaugeNew now s ip max
    have hview := hgauge.trans
      (viewSet_shapeNew (gaugeNew now s ip max) ip max.maxBpsIn max.maxBpsOut)
    obtain ⟨v, hstart, -, hdone⟩ := @sessionStart_houses cfg now
      (shapeNew (gaugeNew now s ip max) ip max.maxBpsIn max.maxBpsOut) ip filterName
      interimInterval sessionContext eventContext
    simp only []
    generalize sessionStart cfg now (shapeNew (gaugeNew now s ip max) ip max.maxBpsIn
      max.maxBpsOut) ip filterName interimInterval sessionContext eventContext = r
      at hstart hdone ⊢
    rcases r with ⟨s', _ | _⟩
    · have hdel := (hview.trans hstart).trans (viewSet_gaugeDel s' ip)
      exact ⟨_, hdel.trans (viewSet_shapeDel (gaugeDel s' ip) ip),
        fun _ => View.housed_of_shape rfl⟩
    · have hstarted : Houses s s' ip :=
        ⟨v, hview.trans hstart, fun _ => View.housed_of_session (hdone rfl)⟩
      exact hstarted.trans (acquireStateid_houses s' ip)
  · rw [if_neg hverify]
    exact .refl s ip

theorem uamDown_houses (now : ℤ) (s : Controller) (ip : UInt32) (stateid : ℤ)
    (filterName sessionContext eventContext : String) :
    Houses s (uamDown cfg now s ip stateid filterName sessionContext eventContext).1 ip := by
  unfold uamDown
  by_cases hverify : verifyStateid s ip stateid = true
  · rw [if_pos hverify]
    have hstop := @sessionStop_houses cfg now s ip (some filterName) .user sessionContext
      eventContext
    generalize sessionStop cfg now s ip (some filterName) .user sessionContext eventContext = r
      at hstop ⊢
    rcases r with ⟨s', _ | _⟩
    · exact hstop
    · exact (hstop.trans (gaugeDel_houses s' ip)).trans
        (acquireStateid_houses (gaugeDel s' ip) ip)
  · rw [if_neg hverify]
    exact .refl s ip

theorem uamRetention_houses (s : Controller) (ip : UInt32) (stateid retention : ℤ) :
    Houses s (uamRetention s ip stateid retention).1 ip := by
  have hserved := uamRetention_outcome s ip stateid retention
  generalize uamRetention s ip stateid retention = r at hserved ⊢
  cases hserved with
  | refused => exact .refl s ip
  | @served s' h =>
    refine Houses.trans ?_ (acquireStateid_houses s' ip)
    cases h with
    | kept hpos => exact .refl s ip
    | @stored e deathday h hpos =>
      exact @houses_session _ _ _ e { e with deathday, retention } h rfl rfl rfl rfl

theorem gaugeOutcome_houses {now : ℤ} {stops : Bool} (h : GaugeOutcome cfg now s ip stops s') :
    Houses s s' ip := by
  cases h with
  | absent h => exact .refl s ip
  | kept h hbooks hview => exact ⟨_, hview, fun hs => hs⟩
  | @cut g g' s₁ terminationCause h hbooks hview =>
    have hcount : Houses s s₁ ip := ⟨_, hview, fun hs => hs⟩
    have hstop := @sessionStop_houses cfg now s₁ ip none terminationCause "" ""
    exact (hcount.trans hstop).trans (gaugeDel_houses _ ip)

theorem expireSessionCb_houses (now : ℤ) (s : Controller) (ip : UInt32) :
    Houses s (expireSessionCb cfg now s ip) ip := by
  have hexpire := @expireSessionCb_outcome cfg now s ip
  generalize expireSessionCb cfg now s ip = s' at hexpire ⊢
  cases hexpire with
  | spared => exact .refl s ip
  | closed h hstate hdead => exact ⟨_, viewSet_sessionDel h, fun _ => View.housed_of_shape rfl⟩
  | @interim e h hstate hinterim =>
    exact @houses_session _ _ _ e { e with interim := now + e.interimInterval } h rfl rfl rfl rfl

/-- **Step lemma.** No event leaves a shaping context without a session. -/
theorem housed_step {ev : Event} (hs : Housed s) : Housed (exec cfg s ev) := by
  obtain ⟨now, op⟩ := ev
  cases op with
  | lookup ip =>
    rw [exec_lookup]
    exact (sessionNew_houses now s ip).housed hs
  | status ip =>
    rw [exec_status]
    exact (sessionNew_houses now s ip).housed hs
  | start ip filterName interimInterval sessionContext eventContext =>
    obtain ⟨v, hview, hv, -⟩ := @sessionStart_houses cfg now s ip filterName interimInterval
      sessionContext eventContext
    exact Houses.housed ⟨v, hview, hv⟩ hs
  | stop ip filterName terminationCause sessionContext eventContext =>
    exact (sessionStop_houses now s ip filterName terminationCause sessionContext
      eventContext).housed hs
  | retention ip stateid retention => exact (uamRetention_houses s ip stateid retention).housed hs
  | up ip stateid filterName interimInterval max sessionContext eventContext =>
    exact (uamUp_houses now s ip stateid filterName interimInterval max sessionContext
      eventContext).housed hs
  | down ip stateid filterName sessionContext eventContext =>
    exact (uamDown_houses now s ip stateid filterName sessionContext eventContext).housed hs
  | account ip octets dir =>
    exact (gaugeOutcome_houses (gaugeUpdate_outcome now s ip octets dir)).housed hs
  | expireGauge ip => exact (gaugeOutcome_houses (expireGaugeCb_outcome now s ip)).housed hs
  | expireSession ip => exact (expireSessionCb_houses now s ip).housed hs
  | commit finalFlag accepts => exact hs

theorem housed_of_run {allowed : Op → Prop} {evs : List Event}
    (hrun : Run (Step cfg allowed) init evs s) : Housed s := by
  refine hrun.invariant (P := Housed) ?_ ?_
  · rintro s ev s' ⟨-, rfl⟩ hs
    exact housed_step hs
  · intro ip
    exact View.housed_of_shape rfl

/-! ## What a failed request leaves -/

theorem Untouched.refl (now : ℤ) (s : Controller) (ip : UInt32) : Untouched cfg now s s ip :=
  ⟨rfl, Or.inl rfl⟩

/-- For an address without a session, `Openable` says whether one is opened. -/
theorem sessionNew_isSome_iff (now : ℤ) (h : s.sessions.retrieve ip = none) :
    (sessionNew cfg now s ip).2.isSome ↔ Openable cfg s ip := by
  unfold sessionNew Openable
  rw [h]
  by_cases hnet : checkIp cfg.userNetworks ip = 0
  · simp [hnet]
  · cases hfilter : filterGetId cfg.filters cfg.filterAnonymous with
    | none => simp [hnet]
    | some filterId =>
      have hopen : (endpointOpen cfg { s with
          sessions := s.sessions.insert (freshSession ip filterId now) } ip).2 =
            (endpointOpen cfg s ip).2 := rfl
      simp only [hnet, if_false, hopen]
      by_cases hopened : (endpointOpen cfg s ip).2 = true <;> simp [hopened, hnet]

/-- Opening a session by itself touches nothing else. -/
theorem sessionNew_untouched (now : ℤ) (hs : Housed s) :
    Untouched cfg now s (sessionNew cfg now s ip).1 ip := by
  have hhoused : Housed (sessionNew cfg now s ip).1 := (sessionNew_houses now s ip).housed hs
  have hnew := @sessionNew_outcome cfg now s ip
  generalize sessionNew cfg now s ip = r at hhoused hnew ⊢
  cases hnew with
  | found h => exact .refl now s ip
  | @opened s' e filterId h hfilter he hview hsource hchain hledger =>
    exact ⟨hchain, Or.inr ⟨h, e, ⟨filterId, _, hfilter, he⟩, hview.self⟩⟩
  | @refused s' shape h hview hsource hchain hledger =>
    refine ⟨hchain, Or.inl ?_⟩
    -- without a session there was no shaping context and there is none
    have hbefore : (s.view ip).shape = none := by
      rw [← Option.not_isSome_iff_eq_none]
      intro hsome
      have hsession : (s.view ip).session = none := h
      have := hs ip hsome
      rw [hsession] at this
      cases this
    have hafter : shape = none := by
      rw [← Option.not_isSome_iff_eq_none]
      intro hsome
      have hsession : (s'.view ip).session = none := by
        rw [hview.self]
        exact h
      have hshape : (s'.view ip).shape.isSome := by
        rw [hview.self]
        exact hsome
      have := hhoused ip hshape
      rw [hsession] at this
      cases this
    rw [hview.self, hafter]
    exact View.ext rfl rfl hbefore.symm

/-- A start that fails has at most opened the session. -/
theorem sessionStart_error {now : ℤ} {filterName : String} {interimInterval : ℤ}
    {sessionContext eventContext : String}
    (h : (sessionStart cfg now s ip filterName interimInterval sessionContext eventContext).2 =
      false) :
    (sessionStart cfg now s ip filterName interimInterval sessionContext eventContext).1 =
      (sessionNew cfg now s ip).1 := by
  unfold sessionStart at h ⊢
  cases hnew : sessionNew cfg now s ip with
  | mk s' found =>
    cases found with
    | none => rfl
    | some e =>
      have hstart := @startFound_outcome cfg now s' e filterName interimInterval sessionContext
        eventContext
      rw [hnew] at h
      simp only [] at h ⊢
      generalize startFound cfg now s' e filterName interimInterval sessionContext eventContext =
        r at hstart h ⊢
      cases hstart with
      | unknown hfilter => rfl
      | again => cases h
      | released => cases h

/-- **A failed `UP`** leaves the address without gauge and shaping context. -/
theorem uamUp_untouched_iff {now stateid : ℤ} {filterName : String} {interimInterval : ℤ}
    {max : GaugeLimits} {sessionContext eventContext : String}
    (hverify : verifyStateid s ip stateid = true)
    (herror : (uamUp cfg now s ip stateid filterName interimInterval max sessionContext
      eventContext).2 = false) :
    Untouched cfg now s (uamUp cfg now s ip stateid filterName interimInterval max sessionContext
        eventContext).1 ip ↔
      (s.view ip).gauge = none ∧ (s.view ip).shape = none := by
  obtain ⟨s₁, hs₁⟩ : ∃ s₁, s₁ =
    shapeNew (gaugeNew now s ip max) ip max.maxBpsIn max.maxBpsOut := ⟨_, rfl⟩
  obtain ⟨g, hgauge⟩ := viewSet_gaugeNew now s ip max
  have hview := hgauge.trans
    (viewSet_shapeNew (gaugeNew now s ip max) ip max.maxBpsIn max.maxBpsOut)
  rw [hgauge.self, ← hs₁] at hview
  have hchain₁ : s₁.acctChain = s.acctChain := by
    rw [hs₁]
    rfl
  have hstart := @sessionStart_error cfg s₁ ip now filterName interimInterval sessionContext
    eventContext
  simp only [uamUp, hverify, if_true, ← hs₁] at herror ⊢
  generalize sessionStart cfg now s₁ ip filterName interimInterval sessionContext eventContext = r
    at hstart herror ⊢
  rcases r with ⟨s', _ | _⟩
  · have hs' : s' = (sessionNew cfg now s₁ ip).1 := hstart rfl
    -- opening the session, and what the deletions leave beside it
    have hsession : s'.acctChain = s.acctChain ∧
        ((s'.view ip).session = (s.view ip).session ∨ (s.view ip).session = none ∧
          ∃ e, IsFresh cfg now ip e ∧ (s'.view ip).session = some e) := by
      have hnew := @sessionNew_outcome cfg now s₁ ip
      rw [hs']
      generalize sessionNew cfg now s₁ ip = r at hnew
      cases hnew with
      | found h => exact ⟨hchain₁, Or.inl (by rw [hview.self])⟩
      | @opened s'' e filterId h hfilter he hview' hsource hchain hledger =>
        refine ⟨hchain.trans hchain₁, Or.inr ⟨?_, e, ⟨filterId, _, hfilter, he⟩, ?_⟩⟩
        · have hnone : (s₁.view ip).session = none := h
          rwa [hview.self] at hnone
        · rw [hview'.self]
      | refused h hview' hsource hchain hledger =>
        refine ⟨hchain.trans hchain₁, Or.inl ?_⟩
        rw [hview'.self, hview.self]
    have hdel := (viewSet_gaugeDel s' ip).trans (viewSet_shapeDel (gaugeDel s' ip) ip)
    have hfinal : (shapeDel (gaugeDel s' ip) ip).view ip = ⟨(s'.view ip).session, none, none⟩ := by
      rw [hdel.self, (viewSet_gaugeDel s' ip).self]
    constructor
    · rintro ⟨-, hsame | ⟨-, e, -, hsame⟩⟩
      · rw [hfinal] at hsame
        exact ⟨(congrArg View.gauge hsame).symm, (congrArg View.shape hsame).symm⟩
      · rw [hfinal] at hsame
        exact ⟨(congrArg View.gauge hsame).symm, (congrArg View.shape hsame).symm⟩
    · rintro ⟨hgnone, hshnone⟩
      obtain ⟨hchain, hcases⟩ := hsession
      refine ⟨hchain, ?_⟩
      rw [hfinal]
      rcases hcases with hsame | ⟨hnone, e, hfresh, hsome⟩
      · exact Or.inl (View.ext hsame hgnone.symm hshnone.symm)
      · exact Or.inr ⟨hnone, e, hfresh, View.ext hsome hgnone.symm hshnone.symm⟩
  · cases herror

/-- A stop that fails for a session that was there. -/
theorem stopFound_untouched_iff {now : ℤ} {e : SessionEntry} {filterName : Option String}
    {terminationCause : TermCause} {sessionContext eventContext : String}
    (h : s.sessions.retrieve e.ip = some e)
    (herror : (stopFound cfg now s e filterName terminationCause sessionContext eventContext).2 =
      false) :
    Untouched cfg now s
        (stopFound cfg now s e filterName terminationCause sessionContext eventContext).1 e.ip ↔
      e.state = .captured ∧
        e.dnFilterName = (stopFilterName cfg filterName e.dnFilterName).2 := by
  obtain ⟨e', heffect⟩ := @stopFound_effect cfg now s e filterName terminationCause sessionContext
    eventContext
  have hfilter : filterGetId cfg.filters (stopFilterName cfg filterName e.dnFilterName).1 =
      none := by
    have hresult := heffect.result_eq
    rw [herror] at hresult
    exact Option.not_isSome_iff_eq_none.1 (by rw [← hresult]; simp)
  constructor
  · rintro ⟨-, hsame | ⟨hnone, -⟩⟩
    · have he : some e' = some e := by
        rw [heffect.viewSet.self] at hsame
        exact (congrArg View.session hsame).trans h
      cases he
      exact ⟨heffect.captured, heffect.dnFilterName_eq⟩
    · have hnone' : s.sessions.retrieve e.ip = none := hnone
      rw [h] at hnone'
      cases hnone'
  · rintro ⟨hcaptured, hdn⟩
    have hstop : (stopFound cfg now s e filterName terminationCause sessionContext
        eventContext).1 = { s with sessions := s.sessions.insert e } := by
      simp only [stopFound, hcaptured, reduceCtorEq, if_false, hfilter, ← hdn]
      cases e
      cases hcaptured
      rfl
    rw [hstop]
    refine ⟨rfl, Or.inl ?_⟩
    rw [(viewSet_session rfl rfl rfl rfl : ViewSet s { s with sessions := s.sessions.insert e }
      e.ip { s.view e.ip with session := some e }).self]
    exact View.ext h.symm rfl rfl

/-- **A failed `DN`** touches every session but a captured one whose `dn_filter_name` stays. -/
theorem sessionStop_untouched_iff {now : ℤ} {filterName sessionContext eventContext : String}
    (hs : Housed s)
    (herror : (sessionStop cfg now s ip (some filterName) .user sessionContext eventContext).2 =
      false) :
    Untouched cfg now s
        (sessionStop cfg now s ip (some filterName) .user sessionContext eventContext).1 ip ↔
      match s.sessions.retrieve ip with
      | none => ¬ Openable cfg s ip
      | some e =>
        e.state = .captured ∧
          e.dnFilterName = (stopFilterName cfg (some filterName) e.dnFilterName).2 := by
  have huntouched : Untouched cfg now s (sessionNew cfg now s ip).1 ip :=
    sessionNew_untouched now hs
  cases h : s.sessions.retrieve ip with
  | some e =>
    obtain rfl := entry_key h
    have hnew : sessionNew cfg now s e.ip = (s, some e) := by
      rw [sessionNew, h]
    unfold sessionStop at herror ⊢
    rw [hnew] at herror ⊢
    exact stopFound_untouched_iff h herror
  | none =>
    have hopenable := @sessionNew_isSome_iff cfg s ip now h
    unfold sessionStop at herror ⊢
    cases hnew : sessionNew cfg now s ip with
    | mk s' found =>
      rw [hnew] at herror huntouched hopenable
      cases found with
      | none =>
        refine iff_of_true huntouched ?_
        simpa using hopenable
      | some e =>
        refine iff_of_false ?_ ?_
        · obtain ⟨rfl, -⟩ := sessionNew_session hnew
          obtain ⟨e', heffect⟩ := @stopFound_effect cfg now s' e (some filterName) .user
            sessionContext eventContext
          have hresult := heffect.result_eq
          rw [herror] at hresult
          -- the filter that is not loaded is none for strangers, so it stays behind as a name
          have hloaded : (filterGetId cfg.filters cfg.filterAnonymous).isSome :=
            (hopenable.1 rfl).2.1
          have hname : filterName ≠ "" := by
            intro hempty
            rw [hempty] at hresult
            simp only [stopFilterName, ne_eq, not_true_eq_false, if_false] at hresult
            rw [← hresult] at hloaded
            cases hloaded
          have hdn : e'.dnFilterName = some filterName := by
            rw [heffect.dnFilterName_eq, stopFilterName, if_pos hname]
          rintro ⟨-, hsame | ⟨-, e'', ⟨filterId, sessionId, -, he''⟩, hsame⟩⟩
          · rw [heffect.viewSet.self] at hsame
            have hsession : some e' = s.sessions.retrieve e.ip := congrArg View.session hsame
            rw [h] at hsession
            cases hsession
          · rw [heffect.viewSet.self] at hsame
            have hsession : some e' = some e'' := congrArg View.session hsame
            cases hsession
            rw [he''] at hdn
            cases hdn
        · rw [not_not]
          exact hopenable.1 rfl

/-- **Errors are atomic where harmless.**  In every state reached, a request that is answered with
an error leaves the address and the queue as they were, but for a session just opened, exactly if it
is one of the harmless ones. -/
theorem serve_untouched_iff {evs : List Event} (hrun : Run (Step cfg fun _ => True) init evs s)
    (now : ℤ) (ip : UInt32) (req : UamRequest) (herror : (serve cfg now s ip req).2 = false) :
    Untouched cfg now s (serve cfg now s ip req).1 ip ↔ Harmless cfg s ip req := by
  have hs := housed_of_run hrun
  cases req with
  | up stateid filterName interimInterval max sessionContext eventContext =>
    cases hverify : verifyStateid s ip stateid with
    | false =>
      have hsame : serve cfg now s ip (.up stateid filterName interimInterval max sessionContext
          eventContext) = (s, false) := by
        simp [serve, uamUp, hverify]
      rw [hsame]
      exact iff_of_true (.refl now s ip) (by simp [Harmless, hverify])
    | true =>
      simp only [Harmless, hverify, true_implies]
      exact uamUp_untouched_iff hverify herror
  | down stateid filterName sessionContext eventContext =>
    cases hverify : verifyStateid s ip stateid with
    | false =>
      have hsame : serve cfg now s ip (.down stateid filterName sessionContext eventContext) =
          (s, false) := by
        simp [serve, uamDown, hverify]
      rw [hsame]
      exact iff_of_true (.refl now s ip) (by simp [Harmless, hverify])
    | true =>
      simp only [Harmless, hverify, true_implies]
      have hstop := @sessionStop_untouched_iff cfg s ip now filterName sessionContext eventContext
        hs
      simp only [serve, uamDown, hverify, if_true] at herror ⊢
      generalize sessionStop cfg now s ip (some filterName) .user sessionContext eventContext = r
        at hstop herror ⊢
      rcases r with ⟨s', _ | _⟩
      · exact hstop rfl
      · cases herror
  | retention stateid retention =>
    refine iff_of_true ?_ trivial
    cases retention with
    | none => exact .refl now s ip
    | some retention =>
      have hserved := uamRetention_outcome s ip stateid retention
      show Untouched cfg now s (uamRetention s ip stateid retention).1 ip
      simp only [serve] at herror
      generalize uamRetention s ip stateid retention = r at hserved herror ⊢
      cases hserved with
      | refused => exact .refl now s ip
      | served h => cases herror

/-- The only user, let in already, asks for a filter that is not loaded, and then for the same as
before with an old state id. -/
theorem serve_untouched_iff_again :
    let s := [upPaid].foldl (exec oneUserConfig) init
    (Untouched oneUserConfig 0 s (serve oneUserConfig 0 s 0x0a000001
        (.up 0 "lost" 0 .unlimited "" "")).1 0x0a000001 ↔
      Harmless oneUserConfig s 0x0a000001 (.up 0 "lost" 0 .unlimited "" "")) ∧
    (Untouched oneUserConfig 0 s (serve oneUserConfig 0 s 0x0a000001
        (.up 7 "paid" 0 .unlimited "" "")).1 0x0a000001 ↔
      Harmless oneUserConfig s 0x0a000001 (.up 7 "paid" 0 .unlimited "" "")) := by
  have hrun : Run (Step oneUserConfig fun _ => True) init [upPaid]
      ([upPaid].foldl (exec oneUserConfig) init) := run_foldl init (by decide)
  exact ⟨serve_untouched_iff hrun 0 0x0a000001 (.up 0 "lost" 0 .unlimited "" "")
      (by decide +kernel),
    serve_untouched_iff hrun 0 0x0a000001 (.up 7 "paid" 0 .unlimited "" "") (by decide +kernel)⟩

/-- The only user, let in already, asks for it and loses the gauge. -/
theorem serve_gaugeLost :
    ¬ ∀ cfg evs s, Run (Step cfg fun op => ¬ op.IsBare) init evs s → ∀ now ip req,
      (serve cfg now s ip req).2 = false → Untouched cfg now s (serve cfg now s ip req).1 ip := by
  intro h
  obtain ⟨s, hs⟩ : ∃ s, s = [upPaid].foldl (exec oneUserConfig) init := ⟨_, rfl⟩
  have huntouched := h oneUserConfig [upPaid] s (hs ▸ run_foldl init (by decide)) 0 0x0a000001
    (.up 0 "lost" 0 .unlimited "" "") (by rw [hs]; decide +kernel)
  have hbefore : (s.gauges.retrieve 0x0a000001).isSome = true := by
    rw [hs]
    decide +kernel
  have hafter : ((serve oneUserConfig 0 s 0x0a000001
      (.up 0 "lost" 0 .unlimited "" "")).1.gauges.retrieve 0x0a000001).isSome = false := by
    rw [hs]
    decide +kernel
  have hsame : ((serve oneUserConfig 0 s 0x0a000001
      (.up 0 "lost" 0 .unlimited "" "")).1.view 0x0a000001).gauge = (s.view 0x0a000001).gauge := by
    rcases huntouched.view with hview | ⟨-, e, -, hview⟩ <;> rw [hview]
  have hgauge : (s.gauges.retrieve 0x0a000001).isSome = false := by
    rw [← hafter]
    exact congrArg Option.isSome hsame.symm
  rw [hbefore] at hgauge
  cases hgauge

end Controller

end Sweetspot
