import Sweetspot.Session.System

/-!
# The terms of a session

A start releases a session with a filter and an interim interval, and gives it a context if it has
one to give.  A stop captures it and may give it a context, too.  What else happens to a session
leaves both alone.

* `SessionTerms`: the filter and the interval of a released session, and the context of any.
* `termsCall`: what an event asks of the session of an address.
* `exec_terms`: what an event does to the terms of a session.
-/

namespace Sweetspot

/-- The filter and the interim interval of a session, if it is released, and its context. -/
structure SessionTerms where
  released : Option (FilterId × ℤ)
  context : Option String

/-- The terms of a session. -/
def SessionEntry.terms (e : SessionEntry) : SessionTerms where
  released := if e.state = .released then some (e.filterId, e.interimInterval) else none
  context := e.sessionContext

/-- What is asked of a session: nothing, to be released, or to be captured. -/
inductive TermsCall
  | nothing
  | start (filterId : FilterId) (interimInterval : ℤ) (sessionContext : String)
  | stop (sessionContext : String)

namespace SessionTerms

/-- The terms of a new session. -/
def fresh : SessionTerms := ⟨none, none⟩

/-- An empty context is none. -/
def giveContext (t : SessionTerms) (sessionContext : String) : Option String :=
  if sessionContext ≠ "" then some sessionContext else t.context

/-- The terms after a call. -/
def after (t : SessionTerms) : TermsCall → SessionTerms
  | .nothing => t
  | .start filterId interimInterval sessionContext =>
    ⟨some (filterId, interimInterval), t.giveContext sessionContext⟩
  | .stop sessionContext => ⟨none, t.giveContext sessionContext⟩

end SessionTerms

namespace Controller

/-- The terms of the session of an address, or of the one it would be opened with. -/
def openingTerms (s : Controller) (ip : UInt32) : SessionTerms :=
  (s.sessions.retrieve ip).elim .fresh SessionEntry.terms

/-- The interim interval a start asks for. -/
def askedInterval (cfg : Config) (interimInterval : ℤ) : ℤ :=
  if interimInterval = 0 then cfg.acctInterimInterval else interimInterval

/-- What a start asks for; nothing comes of a filter that is not loaded. -/
def startCall (cfg : Config) (filterName : String) (interimInterval : ℤ) (sessionContext : String) :
    TermsCall :=
  match startFilterId cfg filterName with
  | none => .nothing
  | some filterId => .start filterId (askedInterval cfg interimInterval) sessionContext

/-- What a stop asks for; one that fails captures the session all the same. -/
def stopCall (ok : Bool) (sessionContext : String) : TermsCall :=
  .stop (if ok then sessionContext else "")

/-- What an event asks of the session of an address. -/
def termsCall (cfg : Config) (ip : UInt32) (s : Controller) (ev : Event) : TermsCall :=
  if ev.op.ip = some ip then
    match ev.op with
    | .start _ filterName interimInterval sessionContext _ =>
      startCall cfg filterName interimInterval sessionContext
    | .up ip' stateid filterName interimInterval _ sessionContext _ =>
      if verifyStateid s ip' stateid then startCall cfg filterName interimInterval sessionContext
      else .nothing
    | .stop ip' filterName terminationCause sessionContext eventContext =>
      stopCall (sessionStop cfg ev.now s ip' filterName terminationCause sessionContext
        eventContext).2 sessionContext
    | .down ip' stateid filterName sessionContext eventContext =>
      if verifyStateid s ip' stateid then
        stopCall (uamDown cfg ev.now s ip' stateid filterName sessionContext eventContext).2
          sessionContext
      else .nothing
    | .account ip' octets dir => if overQuota ev.now s ip' octets dir then .stop "" else .nothing
    | .expireGauge ip' => if gaugeExpired ev.now s ip' then .stop "" else .nothing
    | _ => .nothing
  else .nothing

section Entries

variable {cfg : Config} {now : ℤ} {s s' : Controller} {ip ip' : UInt32} {e e' : SessionEntry}

theorem openingTerms_of_some (h : s.sessions.retrieve ip = some e) :
    openingTerms s ip = e.terms := by
  rw [openingTerms, h, Option.elim_some]

theorem openingTerms_congr (h : s'.sessions = s.sessions) (ip : UInt32) :
    openingTerms s' ip = openingTerms s ip := by
  rw [openingTerms, h, openingTerms]

/-- A stop that gives no context stops a session just the same whether it succeeds. -/
@[simp] theorem stopCall_nil (ok : Bool) : stopCall ok "" = .stop "" := by
  cases ok <;> rfl

/-! ## Opening a session -/

/-- `sw_session_new` returns the session of the address, if it returns one. -/
theorem sessionNew_terms (h : (sessionNew cfg now s ip).2 = some e) :
    e.ip = ip ∧ e.terms = openingTerms s ip := by
  have hnew := @sessionNew_outcome cfg now s ip
  generalize sessionNew cfg now s ip = r at hnew h
  cases hnew with
  | found hs =>
    obtain rfl := Option.some.inj h
    exact ⟨entry_key hs, (openingTerms_of_some hs).symm⟩
  | opened hs hfilter he hview hsource hchain hledger =>
    obtain rfl := Option.some.inj h
    refine ⟨by rw [he]; rfl, ?_⟩
    rw [openingTerms, hs, Option.elim_none, he]
    rfl
  | refused hs hview hsource hchain hledger => cases h

/-- Otherwise there is none. -/
theorem sessionNew_absent (h : (sessionNew cfg now s ip).2 = none) :
    (sessionNew cfg now s ip).1.sessions.retrieve ip = none := by
  have hnew := @sessionNew_outcome cfg now s ip
  generalize sessionNew cfg now s ip = r at hnew h ⊢
  cases hnew with
  | found hs => cases h
  | opened hs hfilter he hview hsource hchain hledger => cases h
  | refused hs hview hsource hchain hledger =>
    exact (congrArg View.session hview.self).trans hs

/-- After `sw_session_new` the sessions there are have the terms they had, or those of a new
one. -/
theorem terms_sessionNew (h : (sessionNew cfg now s ip).1.sessions.retrieve ip' = some e') :
    e'.terms = openingTerms s ip' := by
  have hnew := @sessionNew_outcome cfg now s ip
  generalize sessionNew cfg now s ip = r at hnew h
  cases hnew with
  | found hs => exact (openingTerms_of_some h).symm
  | @opened s₁ e filterId hs hfilter he hview hsource hchain hledger =>
    by_cases hip : ip' = ip
    · subst hip
      have hself : (s₁.view ip').session = some e' := h
      rw [hview.self] at hself
      obtain rfl := Option.some.inj hself
      rw [openingTerms, hs, Option.elim_none, he]
      rfl
    · have hother : (s₁.view ip').session = some e' := h
      rw [hview.other hip] at hother
      exact (openingTerms_of_some hother).symm
  | @refused s₁ shape hs hview hsource hchain hledger =>
    have hsession : (s₁.view ip').session = (s.view ip').session := by
      by_cases hip : ip' = ip
      · rw [hip, hview.self]
      · rw [hview.other hip]
    exact (openingTerms_of_some (hsession.symm.trans h)).symm

/-! ## Starting and stopping -/

theorem stopFound_terms (now : ℤ) (s : Controller) (e : SessionEntry) (filterName : Option String)
    (terminationCause : TermCause) (sessionContext eventContext : String) :
    ∃ e', (stopFound cfg now s e filterName terminationCause sessionContext
        eventContext).1.sessions = s.sessions.insert e' ∧ e'.ip = e.ip ∧
      e'.terms = e.terms.after (stopCall
        (stopFound cfg now s e filterName terminationCause sessionContext eventContext).2
        sessionContext) := by
  unfold stopFound
  by_cases hstate : e.state = .released
  · simp only [hstate, if_true]
    split
    · exact ⟨_, rfl, rfl, rfl⟩
    · exact ⟨_, rfl, rfl, rfl⟩
  · have hcaptured : e.state = .captured := by cases h : e.state <;> simp_all
    simp only [hcaptured, reduceCtorEq, if_false]
    split
    · exact ⟨_, rfl, rfl, by simp [SessionEntry.terms, SessionTerms.after, stopCall,
        SessionTerms.giveContext, hcaptured]⟩
    · exact ⟨_, rfl, rfl, by simp [SessionEntry.terms, SessionTerms.after, stopCall,
        SessionTerms.giveContext, hcaptured]⟩

theorem startFound_terms (now : ℤ) (s : Controller) (e : SessionEntry) (filterName : String)
    (interimInterval : ℤ) (sessionContext eventContext : String) :
    (startCall cfg filterName interimInterval sessionContext = .nothing ∧
      (startFound cfg now s e filterName interimInterval sessionContext
        eventContext).1.sessions = s.sessions) ∨
    ∃ e', (startFound cfg now s e filterName interimInterval sessionContext
        eventContext).1.sessions = s.sessions.insert e' ∧ e'.ip = e.ip ∧
      e'.terms = e.terms.after (startCall cfg filterName interimInterval sessionContext) := by
  unfold startFound startCall
  cases hfilter : startFilterId cfg filterName with
  | none => exact .inl ⟨rfl, rfl⟩
  | some filterId =>
    refine .inr ?_
    cases hstate : e.state with
    | captured =>
      simp only [startedSession, hstate, if_true]
      exact ⟨_, rfl, rfl, rfl⟩
    | released =>
      simp only [startedSession, hstate, reduceCtorEq, if_false]
      refine ⟨_, rfl, rfl, ?_⟩
      simp [SessionEntry.terms, SessionTerms.after, SessionTerms.giveContext, askedInterval, hstate]

/-- The session put into the table, and the others. -/
theorem terms_of_insert {s₁ s₂ : Controller} {call : TermsCall}
    (hs : s₂.sessions = s₁.sessions.insert e) (hip : e.ip = ip)
    (he : e.terms = (openingTerms s ip).after call)
    (hothers : ∀ e', s₁.sessions.retrieve ip' = some e' → e'.terms = openingTerms s ip')
    (h : s₂.sessions.retrieve ip' = some e') :
    e'.terms = (openingTerms s ip').after (if ip' = ip then call else .nothing) := by
  rw [hs, retrieve_insert, hip] at h
  by_cases hip' : ip' = ip
  · rw [if_pos hip'.symm] at h
    obtain rfl := Option.some.inj h
    rw [if_pos hip', he, hip']
  · rw [if_neg (Ne.symm hip')] at h
    rw [if_neg hip']
    exact hothers e' h

/-- Without a session nothing is asked of it. -/
theorem terms_of_absent {s₁ : Controller} {call : TermsCall}
    (habsent : s₁.sessions.retrieve ip = none)
    (hothers : ∀ e', s₁.sessions.retrieve ip' = some e' → e'.terms = openingTerms s ip')
    (h : s₁.sessions.retrieve ip' = some e') :
    e'.terms = (openingTerms s ip').after (if ip' = ip then call else .nothing) := by
  by_cases hip : ip' = ip
  · rw [hip, habsent] at h
    cases h
  · rw [if_neg hip]
    exact hothers e' h

theorem terms_sessionStop {filterName : Option String} {terminationCause : TermCause}
    {sessionContext eventContext : String}
    (h : (sessionStop cfg now s ip filterName terminationCause sessionContext
      eventContext).1.sessions.retrieve ip' = some e') :
    e'.terms = (openingTerms s ip').after (if ip' = ip then stopCall
      (sessionStop cfg now s ip filterName terminationCause sessionContext eventContext).2
      sessionContext else .nothing) := by
  have hothers := fun e' => @terms_sessionNew cfg now s ip ip' e'
  have hfound := fun e => @sessionNew_terms cfg now s ip e
  have habsent := @sessionNew_absent cfg now s ip
  unfold sessionStop at h ⊢
  generalize sessionNew cfg now s ip = r at h hothers hfound habsent ⊢
  rcases r with ⟨s₁, _ | e⟩
  · exact terms_of_absent (habsent rfl) hothers h
  · obtain ⟨hip, hterms⟩ := hfound e rfl
    obtain ⟨e₁, hs₁, hip₁, hterms₁⟩ := @stopFound_terms cfg now s₁ e filterName terminationCause
      sessionContext eventContext
    rw [hterms] at hterms₁
    exact terms_of_insert hs₁ (hip₁.trans hip) hterms₁ hothers h

theorem terms_sessionStart {filterName : String} {interimInterval : ℤ}
    {sessionContext eventContext : String}
    (h : (sessionStart cfg now s ip filterName interimInterval sessionContext
      eventContext).1.sessions.retrieve ip' = some e') :
    e'.terms = (openingTerms s ip').after
      (if ip' = ip then startCall cfg filterName interimInterval sessionContext
      else .nothing) := by
  have hothers := fun e' => @terms_sessionNew cfg now s ip ip' e'
  have hfound := fun e => @sessionNew_terms cfg now s ip e
  have habsent := @sessionNew_absent cfg now s ip
  unfold sessionStart at h
  generalize sessionNew cfg now s ip = r at h hothers hfound habsent
  rcases r with ⟨s₁, _ | e⟩
  · exact terms_of_absent (habsent rfl) hothers h
  · obtain ⟨hip, hterms⟩ := hfound e rfl
    rcases @startFound_terms cfg now s₁ e filterName interimInterval sessionContext eventContext
      with ⟨hcall, hs₁⟩ | ⟨e₁, hs₁, hip₁, hterms₁⟩
    · have hkept : s₁.sessions.retrieve ip' = some e' := hs₁ ▸ h
      rw [hcall, ite_self]
      exact hothers e' hkept
    · rw [hterms] at hterms₁
      exact terms_of_insert hs₁ (hip₁.trans hip) hterms₁ hothers h

/-- A session stored with the terms it had. -/
theorem terms_of_store (e₁ : SessionEntry) (hfound : s.sessions.retrieve ip = some e)
    (hs : s'.sessions = s.sessions.insert e₁) (hip : e₁.ip = e.ip) (hterms : e₁.terms = e.terms)
    (h : s'.sessions.retrieve ip' = some e') :
    ∃ e, s.sessions.retrieve ip' = some e ∧ e'.terms = e.terms := by
  rw [hs, retrieve_insert, hip, entry_key hfound] at h
  split at h
  · rename_i hip'
    obtain rfl := Option.some.inj h
    exact ⟨e, hip' ▸ hfound, hterms⟩
  · exact ⟨e', h, rfl⟩

/-- Counting a modification leaves the terms alone. -/
theorem terms_acquireStateid (h : (acquireStateid s ip).sessions.retrieve ip' = some e') :
    ∃ e, s.sessions.retrieve ip' = some e ∧ e'.terms = e.terms := by
  unfold acquireStateid at h
  cases hs : s.sessions.retrieve ip with
  | none =>
    rw [hs] at h
    exact ⟨e', h, rfl⟩
  | some e =>
    rw [hs] at h
    exact terms_of_store { e with
      stateid := (if e.stateid = 0x7fffffff then 0 else e.stateid) + 1 } hs rfl rfl rfl h

/-- So does a new retention time. -/
theorem terms_uamRetention {stateid retention : ℤ}
    (h : (uamRetention s ip stateid retention).1.sessions.retrieve ip' = some e') :
    e'.terms = openingTerms s ip' := by
  have houtcome := uamRetention_outcome s ip stateid retention
  generalize uamRetention s ip stateid retention = r at houtcome h
  cases houtcome with
  | refused => exact (openingTerms_of_some h).symm
  | @served s₁ hserved =>
    obtain ⟨e, he, hterms⟩ := terms_acquireStateid h
    rw [hterms]
    cases hserved with
    | kept => exact (openingTerms_of_some he).symm
    | @stored e₁ deathday hs =>
      obtain ⟨e₂, he₂, hterms₂⟩ :=
        terms_of_store { e₁ with deathday, retention } hs rfl rfl rfl he
      rw [hterms₂, openingTerms_of_some he₂]

/-- And the pass over the sessions. -/
theorem terms_expireSessionCb
    (h : (expireSessionCb cfg now s ip).sessions.retrieve ip' = some e') :
    e'.terms = openingTerms s ip' := by
  have houtcome := @expireSessionCb_outcome cfg now s ip
  generalize expireSessionCb cfg now s ip = s₁ at houtcome h
  cases houtcome with
  | spared => exact (openingTerms_of_some h).symm
  | closed hs hstate hdead =>
    have hkept := (congrArg View.session ((viewSet_sessionDel hs) ip')).symm.trans h
    split at hkept
    · cases hkept
    · exact (openingTerms_of_some hkept).symm
  | @interim e hs hstate hinterim =>
    obtain ⟨e₂, he₂, hterms₂⟩ :=
      terms_of_store { e with interim := now + e.interimInterval } hs rfl rfl rfl h
    rw [hterms₂, openingTerms_of_some he₂]

/-! ## Requests and gauges -/

theorem terms_uamUp {stateid : ℤ} {filterName : String} {interimInterval : ℤ} {max : GaugeLimits}
    {sessionContext eventContext : String}
    (h : (uamUp cfg now s ip stateid filterName interimInterval max sessionContext
      eventContext).1.sessions.retrieve ip' = some e') :
    e'.terms = (openingTerms s ip').after
      (if ip' = ip then
        if verifyStateid s ip stateid then startCall cfg filterName interimInterval sessionContext
        else .nothing
      else .nothing) := by
  unfold uamUp at h
  by_cases hverify : verifyStateid s ip stateid = true
  · simp only [hverify, if_true] at h ⊢
    have hstart := fun e' => @terms_sessionStart cfg now
      (shapeNew (gaugeNew now s ip max) ip max.maxBpsIn max.maxBpsOut) ip ip' e' filterName
      interimInterval sessionContext eventContext
    generalize sessionStart cfg now _ ip filterName interimInterval sessionContext eventContext = r
      at hstart h
    rcases r with ⟨s₁, _ | _⟩
    · exact hstart e' h
    · obtain ⟨e, he, hterms⟩ := terms_acquireStateid h
      rw [hterms]
      exact hstart e he
  · rw [if_neg hverify] at h
    rw [if_neg hverify, ite_self]
    exact (openingTerms_of_some h).symm

theorem terms_uamDown {stateid : ℤ} {filterName sessionContext eventContext : String}
    (h : (uamDown cfg now s ip stateid filterName sessionContext
      eventContext).1.sessions.retrieve ip' = some e') :
    e'.terms = (openingTerms s ip').after
      (if ip' = ip then
        if verifyStateid s ip stateid then
          stopCall (uamDown cfg now s ip stateid filterName sessionContext eventContext).2
            sessionContext
        else .nothing
      else .nothing) := by
  unfold uamDown at h ⊢
  by_cases hverify : verifyStateid s ip stateid = true
  · simp only [hverify, if_true] at h ⊢
    have hstop := fun e' => @terms_sessionStop cfg now s ip ip' e' (some filterName) .user
      sessionContext eventContext
    generalize sessionStop cfg now s ip (some filterName) .user sessionContext eventContext = r
      at hstop h ⊢
    rcases r with ⟨s₁, _ | _⟩
    · exact hstop e' h
    · obtain ⟨e, he, hterms⟩ := terms_acquireStateid h
      rw [hterms]
      exact hstop e he
  · rw [if_neg hverify] at h
    rw [if_neg hverify, ite_self]
    exact (openingTerms_of_some h).symm

/-- A gauge that changed and may have stopped its session afterwards. -/
theorem terms_of_cut (hs' : s'.sessions = s.sessions) {cut : Bool} {terminationCause : TermCause}
    (h : (if cut then gaugeDel (sessionStop cfg now s' ip none terminationCause "" "").1 ip
      else s').sessions.retrieve ip' = some e') :
    e'.terms = (openingTerms s ip').after
      (if ip' = ip then if cut then .stop "" else .nothing else .nothing) := by
  cases cut with
  | false =>
    rw [show (if ip' = ip then if false = true then TermsCall.stop "" else .nothing
      else .nothing) = .nothing from ite_self _]
    rw [← openingTerms_congr hs']
    exact (openingTerms_of_some h).symm
  | true =>
    have hstop := @terms_sessionStop cfg now s' ip ip' e' none terminationCause "" "" h
    rwa [openingTerms_congr hs', stopCall_nil] at hstop

theorem terms_gaugeUpdate {octets : UInt64} {dir : GaugeDir}
    (h : (gaugeUpdate cfg now s ip octets dir).sessions.retrieve ip' = some e') :
    e'.terms = (openingTerms s ip').after
      (if ip' = ip then if overQuota now s ip octets dir then .stop "" else .nothing
      else .nothing) := by
  unfold gaugeUpdate at h
  rw [overQuota]
  cases hg : s.gauges.retrieve ip with
  | none =>
    rw [hg] at h
    simp only [Option.any_none, Bool.false_eq_true, if_false, ite_self]
    exact (openingTerms_of_some h).symm
  | some g =>
    rw [hg] at h
    rw [Option.any_some]
    refine @terms_of_cut cfg now s _ ip ip' e' ?_ _ _ h
    rfl

theorem terms_expireGaugeCb (h : (expireGaugeCb cfg now s ip).sessions.retrieve ip' = some e') :
    e'.terms = (openingTerms s ip').after
      (if ip' = ip then if gaugeExpired now s ip then .stop "" else .nothing else .nothing) := by
  unfold expireGaugeCb at h
  rw [gaugeExpired]
  cases hg : s.gauges.retrieve ip with
  | none =>
    rw [hg] at h
    simp only [Option.any_none, Bool.false_eq_true, if_false, ite_self]
    exact (openingTerms_of_some h).symm
  | some g =>
    rw [hg] at h
    rw [Option.any_some, ← GaugeEntry.probe_expired g cfg.gaugeRateInterval now]
    refine @terms_of_cut cfg now s _ ip ip' e' ?_ _ _ h
    rfl

/-- **An event does to the terms of a session what its call does.** -/
theorem exec_terms {ev : Event} (h : (exec cfg s ev).sessions.retrieve ip = some e') :
    e'.terms = (openingTerms s ip).after (termsCall cfg ip s ev) := by
  obtain ⟨now, op⟩ := ev
  -- the condition of `termsCall`, turned round
  have hturn : ∀ (ip' : UInt32) (call : TermsCall),
      (if some ip' = some ip then call else .nothing) = if ip = ip' then call else .nothing := by
    intro ip' call
    by_cases hip : ip = ip'
    · rw [if_pos hip, if_pos (congrArg some hip.symm)]
    · rw [if_neg hip, if_neg fun heq => hip (Option.some.inj heq).symm]
  cases op with
  | lookup ip' =>
    rw [exec_lookup] at h
    rw [termsCall, ite_self]
    exact terms_sessionNew h
  | status ip' =>
    rw [exec_status] at h
    rw [termsCall, ite_self]
    exact terms_sessionNew h
  | start ip' filterName interimInterval sessionContext eventContext =>
    rw [termsCall, Op.ip, hturn]
    exact terms_sessionStart h
  | stop ip' filterName terminationCause sessionContext eventContext =>
    rw [termsCall, Op.ip, hturn]
    exact terms_sessionStop h
  | retention ip' stateid retention =>
    rw [termsCall, ite_self]
    exact terms_uamRetention h
  | up ip' stateid filterName interimInterval max sessionContext eventContext =>
    rw [termsCall, Op.ip, hturn]
    exact terms_uamUp h
  | down ip' stateid filterName sessionContext eventContext =>
    rw [termsCall, Op.ip, hturn]
    exact terms_uamDown h
  | account ip' octets dir =>
    rw [termsCall, Op.ip, hturn]
    exact terms_gaugeUpdate h
  | expireGauge ip' =>
    rw [termsCall, Op.ip, hturn]
    exact terms_expireGaugeCb h
  | expireSession ip' =>
    rw [termsCall, ite_self]
    exact terms_expireSessionCb h
  | commit finalFlag accepts => exact (openingTerms_of_some h).symm

end Entries

end Controller

end Sweetspot
