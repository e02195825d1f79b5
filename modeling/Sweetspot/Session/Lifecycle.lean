import Sweetspot.Session.Controller

/-!
# The life of a session

A session is opened captured, with the filter for strangers.  Starting it releases it with a filter
of its own; stopping it captures it again, with the filter named by the stop, or by an earlier stop,
or for strangers.

* `sessionNew`, `sessionDel`, `sessionStart`, `sessionStop`, `sessionRetention`,
  `expireSessionCb`: the operations, in the order the source does things.
* `sessionNew_outcome`, `stopFound_effect`, `startFound_outcome`: what the three that matter do to
  the view of their address, to the queue and to the id counter.
-/

namespace Sweetspot

namespace Controller

variable (cfg : Config)

/-- `sw_session_del`. -/
def sessionDel (s : Controller) (ip : UInt32) : Controller :=
  match s.sessions.retrieve ip with
  | none => s
  | some _ =>
    { s with
      endpoints := if cfg.nat.isSome then s.endpoints.endpointDel ip else s.endpoints
      sessions := s.sessions.delete ip
      shapes := s.shapes.delete ip }

/-- `sw_nat_src_endpoint_new`, if source NAT is on. -/
def endpointOpen (s : Controller) (ip : UInt32) : Endpoints × Bool :=
  match cfg.nat with
  | none => (s.endpoints, true)
  | some nat => s.endpoints.endpointNew nat ip

/-- A session as `sw_session_new` makes it, before it has an id. -/
def freshSession (ip : UInt32) (filterId : FilterSlot) (now : ℤ) : SessionEntry where
  ip := ip
  state := .captured
  sessionId := 0
  sessionContext := none
  dnFilterName := none
  filterId := some filterId
  terminationCause := .none
  interimInterval := 0
  deathday := now + SW_SESSION_DEFAULT_RETENTION
  interim := 0
  retention := SW_SESSION_DEFAULT_RETENTION
  stateid := 0

/-- `sw_session_new`: the session of the address, opened if there is none; `none` is `-1`. -/
def sessionNew (now : ℤ) (s : Controller) (ip : UInt32) : Controller × Option SessionEntry :=
  match s.sessions.retrieve ip with
  | some e => (s, some e)
  | none =>
    if checkIp cfg.userNetworks ip = 0 then (s, none)
    else
      match filterGetId cfg.filters cfg.filterAnonymous with
      | none => (s, none)
      | some filterId =>
        let e := freshSession ip filterId now
        let s := { s with sessions := s.sessions.insert e }
        let (endpoints, opened) := endpointOpen cfg s ip
        let s := { s with endpoints }
        if opened then
          let (sessionId, sourceSessionId) := nextSessionId s.sourceSessionId
          let e := { e with sessionId }
          ({ s with sessions := s.sessions.insert e, sourceSessionId }, some e)
        else (sessionDel cfg s ip, none)

/-- The name of the filter a stop asks for, and the `dn_filter_name` it leaves. -/
def stopFilterName (filterName dnFilterName : Option String) : String × Option String :=
  match filterName, dnFilterName with
  | some name, _ => if name ≠ "" then (name, some name) else (cfg.filterAnonymous, none)
  | none, some name => (name, some name)
  | none, none => (cfg.filterAnonymous, none)

/-- The type of the record that ends a released period. -/
def stopType : TermCause → AcctType
  | .idle | .time => .stopTime
  | _ => .stop

/-- `sw_session_stop` once the session is found or opened; `false` is `-1`.  A session just opened
is captured, so the test for a released one may stand here. -/
def stopFound (now : ℤ) (s : Controller) (e : SessionEntry) (filterName : Option String)
    (terminationCause : TermCause) (sessionContext eventContext : String) : Controller × Bool :=
  let (e, sourceSessionId, acctType) :=
    if e.state = .released then
      let (sessionId, sourceSessionId) := nextSessionId s.sourceSessionId
      ({ e with state := .captured, terminationCause, sessionId }, sourceSessionId,
        some (stopType terminationCause))
    else (e, s.sourceSessionId, none)
  let s := { s with sourceSessionId }
  let (name, dnFilterName) := stopFilterName cfg filterName e.dnFilterName
  let e := { e with dnFilterName }
  match filterGetId cfg.filters name with
  | none => ({ s with sessions := s.sessions.insert e }, false)
  | some filterId =>
    let e :=
      { e with
        filterId := some filterId
        sessionContext := if sessionContext ≠ "" then some sessionContext else e.sessionContext
        deathday := now + e.retention }
    let s := { s with sessions := s.sessions.insert e }
    match acctType with
    | none => (s, true)
    | some type => (s.acctSubmit e.ip type eventContext now, true)

/-- `sw_session_stop`. -/
def sessionStop (now : ℤ) (s : Controller) (ip : UInt32) (filterName : Option String)
    (terminationCause : TermCause) (sessionContext eventContext : String) : Controller × Bool :=
  match sessionNew cfg now s ip with
  | (s, none) => (s, false)
  | (s, some e) => stopFound cfg now s e filterName terminationCause sessionContext eventContext

/-- The filter of a released session: `SW_FILTER_ID_NONE` for an empty name; `none` if the name is
not loaded. -/
def startFilterId (filterName : String) : Option FilterId :=
  if filterName = "" then some none else (filterGetId cfg.filters filterName).map some

/-- A session with the filter, the interim interval and the context of a start. -/
def startedSession (now : ℤ) (e : SessionEntry) (filterId : FilterId) (interimInterval : ℤ)
    (sessionContext : String) : SessionEntry :=
  { e with
    filterId
    interim :=
      if e.interim ≠ 0 then e.interim + (interimInterval - e.interimInterval)
      else now + interimInterval
    interimInterval
    sessionContext := if sessionContext ≠ "" then some sessionContext else e.sessionContext }

/-- `sw_session_start` once the session is found or opened; `false` is `-1`. -/
def startFound (now : ℤ) (s : Controller) (e : SessionEntry) (filterName : String)
    (interimInterval : ℤ) (sessionContext eventContext : String) : Controller × Bool :=
  match startFilterId cfg filterName with
  | none => (s, false)
  | some filterId =>
    let interimInterval := if interimInterval = 0 then cfg.acctInterimInterval else interimInterval
    let e := startedSession now e filterId interimInterval sessionContext
    if e.state = .captured then
      -- the interim records are aligned to the start
      let e := { e with state := .released, interim := now + interimInterval }
      let s := { s with sessions := s.sessions.insert e, ledger := s.ledger.release e.ip }
      (s.acctSubmit e.ip .start eventContext now, true)
    else ({ s with sessions := s.sessions.insert e }, true)

/-- `sw_session_start`. -/
def sessionStart (now : ℤ) (s : Controller) (ip : UInt32) (filterName : String)
    (interimInterval : ℤ) (sessionContext eventContext : String) : Controller × Bool :=
  match sessionNew cfg now s ip with
  | (s, none) => (s, false)
  | (s, some e) => startFound cfg now s e filterName interimInterval sessionContext eventContext

/-- `sw_session_get_filter_id`; `none` is `-1`, also when the session had to be opened first. -/
def sessionGetFilterId (now : ℤ) (s : Controller) (ip : UInt32) : Controller × Option FilterId :=
  match s.sessions.retrieve ip with
  | some e => (s, some e.filterId)
  | none => ((sessionNew cfg now s ip).1, none)

/-- `sw_session_retention` with a new value; `false` is `-1`. -/
def sessionRetention (s : Controller) (ip : UInt32) (retention : ℤ) : Controller × Bool :=
  match s.sessions.retrieve ip with
  | none => (s, false)
  | some e =>
    if retention > 0 then
      let e :=
        { e with
          deathday :=
            if e.deathday ≠ 0 then e.deathday + (retention - e.retention) else e.deathday
          retention }
      ({ s with sessions := s.sessions.insert e }, true)
    else (s, true)

/-- `__expire_session_cb`, which `sw_session_expire` calls on every session. -/
def expireSessionCb (now : ℤ) (s : Controller) (ip : UInt32) : Controller :=
  match s.sessions.retrieve ip with
  | none => s
  | some e =>
    match e.state with
    | .captured => if e.deathday < now then sessionDel cfg s ip else s
    | .released =>
      if e.interim < now then
        let s := s.acctSubmit ip .interim "" now
        { s with sessions := s.sessions.insert { e with interim := now + e.interimInterval } }
      else s

/-! ## What they do -/

variable {cfg}

/-- What `sw_session_new` can do. -/
inductive NewOutcome (cfg : Config) (now : ℤ) (s : Controller) (ip : UInt32) :
    Controller × Option SessionEntry → Prop
  | found {e : SessionEntry} (h : s.sessions.retrieve ip = some e) :
    NewOutcome cfg now s ip (s, some e)
  | opened {s' : Controller} {e : SessionEntry} {filterId : FilterSlot}
    (h : s.sessions.retrieve ip = none)
    (hfilter : filterGetId cfg.filters cfg.filterAnonymous = some filterId)
    (he : e = { freshSession ip filterId now with
      sessionId := (nextSessionId s.sourceSessionId).1 })
    (hview : ViewSet s s' ip { s.view ip with session := some e })
    (hsource : s'.sourceSessionId = (nextSessionId s.sourceSessionId).2)
    (hchain : s'.acctChain = s.acctChain) (hledger : s'.ledger = s.ledger) :
    NewOutcome cfg now s ip (s', some e)
  | refused {s' : Controller} {shape : Option ShapeContext} (h : s.sessions.retrieve ip = none)
    (hview : ViewSet s s' ip { s.view ip with shape })
    (hsource : s'.sourceSessionId = s.sourceSessionId)
    (hchain : s'.acctChain = s.acctChain) (hledger : s'.ledger = s.ledger) :
    NewOutcome cfg now s ip (s', none)

/-- Deleting a session takes the shaping context along. -/
theorem viewSet_sessionDel {s : Controller} {e : SessionEntry} {ip : UInt32}
    (h : s.sessions.retrieve ip = some e) :
    ViewSet s (sessionDel cfg s ip) ip { s.view ip with session := none, shape := none } := by
  intro ip'
  have hdel : sessionDel cfg s ip = { s with
      endpoints := if cfg.nat.isSome then s.endpoints.endpointDel ip else s.endpoints
      sessions := s.sessions.delete ip
      shapes := s.shapes.delete ip } := by
    rw [sessionDel, h]
  rw [hdel]
  simp only [view]
  rw [retrieve_delete, retrieve_delete]
  by_cases hip : ip' = ip
  · simp [hip]
  · simp [hip]

/-- Opening a session and taking it back leaves its address without one. -/
theorem viewSet_sessionDel_insert {s s' : Controller} {e : SessionEntry}
    (h : s.sessions.retrieve e.ip = none) (hs : s'.sessions = s.sessions.insert e)
    (hg : s'.gauges = s.gauges) (hsh : s'.shapes = s.shapes) :
    ViewSet s (sessionDel cfg s' e.ip) e.ip { s.view e.ip with shape := none } := by
  have hfound : s'.sessions.retrieve e.ip = some e := by
    rw [hs, retrieve_insert, if_pos rfl]
  have hset := viewSet_session rfl hs hg hsh
  have hdel := hset.trans (@viewSet_sessionDel cfg _ _ _ hfound)
  have hnone : ({ s.view e.ip with shape := none } : View) = ⟨none, (s.view e.ip).gauge, none⟩ :=
    View.ext h rfl rfl
  rw [hset.self] at hdel
  rw [hnone]
  exact hdel

theorem sessionDel_books (s : Controller) (ip : UInt32) :
    (sessionDel cfg s ip).acctChain = s.acctChain ∧ (sessionDel cfg s ip).ledger = s.ledger ∧
      (sessionDel cfg s ip).sourceSessionId = s.sourceSessionId := by
  unfold sessionDel
  split <;> exact ⟨rfl, rfl, rfl⟩

/-- **Opening a session**: it is there already, or it is made for an address of the user networks,
or nothing comes of it. -/
theorem sessionNew_outcome (now : ℤ) (s : Controller) (ip : UInt32) :
    NewOutcome cfg now s ip (sessionNew cfg now s ip) := by
  unfold sessionNew
  cases h : s.sessions.retrieve ip with
  | some e => exact .found h
  | none =>
    have hrefl : ViewSet s s ip { s.view ip with shape := (s.view ip).shape } := ViewSet.refl s ip
    by_cases hnet : checkIp cfg.userNetworks ip = 0
    · simp only [if_pos hnet]
      exact .refused h hrefl rfl rfl rfl
    · simp only [if_neg hnet]
      cases hfilter : filterGetId cfg.filters cfg.filterAnonymous with
      | none => exact .refused h hrefl rfl rfl rfl
      | some filterId =>
        have hip : (freshSession ip filterId now).ip = ip := rfl
        simp only []
        split
        · refine .opened h hfilter rfl ?_ rfl rfl rfl
          intro ip'
          simp only [view, retrieve_insert, hip]
          by_cases hip' : ip' = ip
          · simp [hip']
          · simp [hip', Ne.symm hip']
        · obtain ⟨hchain, hledger, hsource⟩ := @sessionDel_books cfg _ ip
          refine @NewOutcome.refused cfg now s ip _ none h ?_ hsource hchain hledger
          exact @viewSet_sessionDel_insert cfg s _ (freshSession ip filterId now) h rfl rfl rfl

/-- The record a stop submits: for a released session, if the filter it asks for is loaded. -/
def stopRecords (cfg : Config) (now : ℤ) (s : Controller) (e : SessionEntry)
    (filterName : Option String) (terminationCause : TermCause) (eventContext : String) :
    List AcctEntry :=
  if e.state = .released ∧
      (filterGetId cfg.filters (stopFilterName cfg filterName e.dnFilterName).1).isSome then
    [s.acctRecord e.ip (stopType terminationCause) eventContext now]
  else []

/-- What a stop does to the session `e`, which becomes `e'`. -/
structure StopEffect (cfg : Config) (now : ℤ) (s : Controller) (e : SessionEntry)
    (filterName : Option String) (terminationCause : TermCause) (eventContext : String)
    (r : Controller × Bool) (e' : SessionEntry) : Prop where
  ip_eq : e'.ip = e.ip
  captured : e'.state = .captured
  dnFilterName_eq : e'.dnFilterName = (stopFilterName cfg filterName e.dnFilterName).2
  filterId_eq : e'.filterId =
    ((filterGetId cfg.filters (stopFilterName cfg filterName e.dnFilterName).1).map some).getD
      e.filterId
  result_eq : r.2 =
    (filterGetId cfg.filters (stopFilterName cfg filterName e.dnFilterName).1).isSome
  sessionId_eq : e'.sessionId =
    if e.state = .released then (nextSessionId s.sourceSessionId).1 else e.sessionId
  source_eq : r.1.sourceSessionId =
    if e.state = .released then (nextSessionId s.sourceSessionId).2 else s.sourceSessionId
  viewSet : ViewSet s r.1 e.ip { s.view e.ip with session := some e' }
  chain_eq : r.1.acctChain =
    s.acctChain ++ stopRecords cfg now s e filterName terminationCause eventContext
  ledger_eq : r.1.ledger =
    { s.ledger with
      submitted := s.ledger.submitted ++
        stopRecords cfg now s e filterName terminationCause eventContext }

/-- **Stopping a session** captures it whatever its filter; only the rest of the work depends on
whether the filter is loaded. -/
theorem stopFound_effect (now : ℤ) (s : Controller) (e : SessionEntry) (filterName : Option String)
    (terminationCause : TermCause) (sessionContext eventContext : String) :
    ∃ e', StopEffect cfg now s e filterName terminationCause eventContext
      (stopFound cfg now s e filterName terminationCause sessionContext eventContext) e' := by
  cases hstate : e.state with
  | captured =>
    cases hfilter : filterGetId cfg.filters (stopFilterName cfg filterName e.dnFilterName).1 with
    | none =>
      refine ⟨{ e with dnFilterName := (stopFilterName cfg filterName e.dnFilterName).2 }, ?_⟩
      simp only [stopFound, hstate, hfilter, reduceCtorEq, if_false]
      constructor <;> simp [hfilter, hstate, stopRecords]
      exact viewSet_session rfl rfl rfl rfl
    | some filterId =>
      refine ⟨{ e with
        dnFilterName := (stopFilterName cfg filterName e.dnFilterName).2
        filterId := some filterId
        sessionContext := if sessionContext ≠ "" then some sessionContext else e.sessionContext
        deathday := now + e.retention }, ?_⟩
      simp only [stopFound, hstate, hfilter, reduceCtorEq, if_false]
      constructor <;> simp [hfilter, hstate, stopRecords]
      exact viewSet_session rfl rfl rfl rfl
  | released =>
    cases hfilter : filterGetId cfg.filters (stopFilterName cfg filterName e.dnFilterName).1 with
    | none =>
      refine ⟨{ e with
        state := .captured
        terminationCause
        sessionId := (nextSessionId s.sourceSessionId).1
        dnFilterName := (stopFilterName cfg filterName e.dnFilterName).2 }, ?_⟩
      simp only [stopFound, hstate, hfilter, if_true]
      constructor <;> simp [hfilter, hstate, stopRecords]
      exact viewSet_session rfl rfl rfl rfl
    | some filterId =>
      refine ⟨{ e with
        state := .captured
        terminationCause
        sessionId := (nextSessionId s.sourceSessionId).1
        dnFilterName := (stopFilterName cfg filterName e.dnFilterName).2
        filterId := some filterId
        sessionContext := if sessionContext ≠ "" then some sessionContext else e.sessionContext
        deathday := now + e.retention }, ?_⟩
      simp only [stopFound, hstate, hfilter, if_true]
      constructor <;> simp [hfilter, hstate, stopRecords, acctSubmit, acctRecord]
      exact viewSet_session rfl rfl rfl rfl

/-- The record a release submits. -/
def startRecord (s : Controller) (ip : UInt32) (eventContext : String) (now : ℤ) : AcctEntry :=
  { s.acctRecord ip .start eventContext now with subject := ⟨s.ledger.periods ip + 1, .zero⟩ }

/-- What `sw_session_start` can do to the session `e`. -/
inductive StartOutcome (cfg : Config) (now : ℤ) (s : Controller) (e : SessionEntry)
    (filterName eventContext : String) : Controller × Bool → Prop
  | unknown (hfilter : startFilterId cfg filterName = none) :
    StartOutcome cfg now s e filterName eventContext (s, false)
  | again {s' : Controller} (e' : SessionEntry) (hstate : e.state = .released)
    (hip : e'.ip = e.ip) (hstate' : e'.state = .released) (hid : e'.sessionId = e.sessionId)
    (hdn : e'.dnFilterName = e.dnFilterName)
    (hfilter : startFilterId cfg filterName = some e'.filterId)
    (hview : ViewSet s s' e.ip { s.view e.ip with session := some e' })
    (hsource : s'.sourceSessionId = s.sourceSessionId) (hchain : s'.acctChain = s.acctChain)
    (hledger : s'.ledger = s.ledger) :
    StartOutcome cfg now s e filterName eventContext (s', true)
  | released {s' : Controller} (e' : SessionEntry) (hstate : e.state = .captured)
    (hip : e'.ip = e.ip) (hstate' : e'.state = .released) (hid : e'.sessionId = e.sessionId)
    (hdn : e'.dnFilterName = e.dnFilterName)
    (hfilter : startFilterId cfg filterName = some e'.filterId)
    (hview : ViewSet s s' e.ip { s.view e.ip with session := some e' })
    (hsource : s'.sourceSessionId = s.sourceSessionId)
    (hchain : s'.acctChain = s.acctChain ++ [startRecord s e.ip eventContext now])
    (hledger : s'.ledger =
      { s.ledger.release e.ip with
        submitted := s.ledger.submitted ++ [startRecord s e.ip eventContext now] }) :
    StartOutcome cfg now s e filterName eventContext (s', true)

/-- **Starting a session** releases a captured one and submits a record of it; a released one only
changes its filter. -/
theorem startFound_outcome (now : ℤ) (s : Controller) (e : SessionEntry) (filterName : String)
    (interimInterval : ℤ) (sessionContext eventContext : String) :
    StartOutcome cfg now s e filterName eventContext
      (startFound cfg now s e filterName interimInterval sessionContext eventContext) := by
  cases hfilter : startFilterId cfg filterName with
  | none =>
    simp only [startFound, hfilter]
    exact .unknown hfilter
  | some filterId =>
    obtain ⟨interval, hinterval⟩ : ∃ interval, interval =
        if interimInterval = 0 then cfg.acctInterimInterval else interimInterval := ⟨_, rfl⟩
    have hstarted : (startedSession now e filterId interval sessionContext).state = e.state := rfl
    simp only [startFound, hfilter, ← hinterval, hstarted]
    cases hstate : e.state with
    | released =>
      simp only [reduceCtorEq, if_false]
      exact .again (startedSession now e filterId interval sessionContext) hstate rfl hstate rfl rfl
        hfilter (viewSet_session rfl rfl rfl rfl) rfl rfl rfl
    | captured =>
      simp only [if_true]
      refine .released { startedSession now e filterId interval sessionContext with
          state := .released, interim := now + interval } hstate rfl rfl rfl rfl hfilter
        (viewSet_session rfl rfl rfl rfl) rfl ?_ ?_
      · simp [acctSubmit, acctRecord, startRecord, startedSession, Ledger.release]
      · simp [acctSubmit, acctRecord, startRecord, startedSession, Ledger.release]

/-- What a new retention time can do: there is no session for it, or it is no time, or it is stored
with the time the session dies. -/
inductive RetentionOutcome (s : Controller) (ip : UInt32) (retention : ℤ) :
    Controller × Bool → Prop
  | absent (h : s.sessions.retrieve ip = none) : RetentionOutcome s ip retention (s, false)
  | kept (hretention : ¬ retention > 0) : RetentionOutcome s ip retention (s, true)
  | stored {e : SessionEntry} {deathday : ℤ} (h : s.sessions.retrieve ip = some e)
    (hretention : retention > 0) :
    RetentionOutcome s ip retention
      ({ s with sessions := s.sessions.insert { e with deathday, retention } }, true)

theorem sessionRetention_outcome (s : Controller) (ip : UInt32) (retention : ℤ) :
    RetentionOutcome s ip retention (sessionRetention s ip retention) := by
  unfold sessionRetention
  cases h : s.sessions.retrieve ip with
  | none => exact .absent h
  | some e =>
    by_cases hretention : retention > 0
    · simp only [if_pos hretention]
      exact .stored h hretention
    · simp only [if_neg hretention]
      exact .kept hretention

/-- What `sw_session_expire` can do to a session: it is spared, or closed if it is captured, or
asked for an interim record if it is released. -/
inductive ExpireOutcome (cfg : Config) (now : ℤ) (s : Controller) (ip : UInt32) : Controller → Prop
  | spared : ExpireOutcome cfg now s ip s
  | closed {e : SessionEntry} (h : s.sessions.retrieve ip = some e) (hstate : e.state = .captured)
    (hdead : e.deathday < now) : ExpireOutcome cfg now s ip (sessionDel cfg s ip)
  | interim {e : SessionEntry} (h : s.sessions.retrieve ip = some e) (hstate : e.state = .released)
    (hinterim : e.interim < now) :
    ExpireOutcome cfg now s ip
      { s.acctSubmit ip .interim "" now with
        sessions := s.sessions.insert { e with interim := now + e.interimInterval } }

theorem expireSessionCb_outcome (now : ℤ) (s : Controller) (ip : UInt32) :
    ExpireOutcome cfg now s ip (expireSessionCb cfg now s ip) := by
  unfold expireSessionCb
  cases h : s.sessions.retrieve ip with
  | none => exact .spared
  | some e =>
    cases hstate : e.state with
    | captured =>
      by_cases hdead : e.deathday < now
      · simp only [hstate, if_pos hdead]
        exact .closed h hstate hdead
      · simp only [hstate, if_neg hdead]
        exact .spared
    | released =>
      by_cases hinterim : e.interim < now
      · have hstored := @ExpireOutcome.interim cfg now s ip e h hstate hinterim
        rw [hstate] at hstored
        simp only [hstate, if_pos hinterim]
        exact hstored
      · simp only [hstate, if_neg hinterim]
        exact .spared

/-- A stop asks for the filter whose name it leaves, or for the one for strangers. -/
theorem stopFilterName_fst (filterName dnFilterName : Option String) :
    (stopFilterName cfg filterName dnFilterName).1 =
      (stopFilterName cfg filterName dnFilterName).2.getD cfg.filterAnonymous := by
  rcases filterName with _ | name
  · rcases dnFilterName with _ | name <;> rfl
  · by_cases h : name = "" <;> simp [stopFilterName, h]

end Controller

end Sweetspot
