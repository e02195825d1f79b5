import Sweetspot.Session.System
import Sweetspot.Snat.Withdrawal

/-!
# Sessions and their source-NAT endpoints

With source NAT every address with a session has endpoints.  A session is stored before its
endpoints are made, and deleted again when they cannot be.

* `sessionNewAlloc`, `uamUpAlloc`, `uamDownAlloc`: what opens sessions, with allocations that may
  fail when one is opened; `HostOp`, `hostExec`: these operations, deletion and expiry.
* `HostMove`: what opening a session does to sessions and endpoints, `hostExec_move`.
* `InStep`: the addresses with sessions are those with entries.  `InStep.exec` keeps it always.
* `Orderly`: the indices are right, too.  `Orderly.exec` keeps that unless an address gets a place
  that another one has, and only then (`Orderly.distinct_of_complete`).
* `sessions_endpoints_inStep`: both for whole runs.
-/

namespace Sweetspot

namespace Controller

/-! ## Sessions opened with little memory -/

section Model

variable (cfg : Config) (alloc : Allocs)

/-- `endpointOpen`, also when an allocation fails. -/
def endpointOpenAlloc (s : Controller) (ip : UInt32) : Endpoints × Bool :=
  match cfg.nat with
  | none => (s.endpoints, true)
  | some nat => s.endpoints.endpointNewAlloc nat alloc ip

/-- `sw_session_new`, also when an allocation fails. -/
def sessionNewAlloc (now : ℤ) (s : Controller) (ip : UInt32) : Controller × Option SessionEntry :=
  match s.sessions.retrieve ip with
  | some e => (s, some e)
  | none =>
    if checkIp cfg.userNetworks ip = 0 then (s, none)
    else if !alloc.session then (s, none)
    else
      match filterGetId cfg.filters cfg.filterAnonymous with
      | none => (s, none)
      | some filterId =>
        let e := freshSession ip filterId now
        let s := { s with sessions := s.sessions.insert e }
        let (endpoints, opened) := endpointOpenAlloc cfg alloc s ip
        let s := { s with endpoints }
        if opened then
          let (sessionId, sourceSessionId) := nextSessionId s.sourceSessionId
          let e := { e with sessionId }
          ({ s with sessions := s.sessions.insert e, sourceSessionId }, some e)
        else (sessionDel cfg s ip, none)

/-- `sw_session_start` in these circumstances. -/
def sessionStartAlloc (now : ℤ) (s : Controller) (ip : UInt32) (filterName : String)
    (interimInterval : ℤ) (sessionContext eventContext : String) : Controller × Bool :=
  match sessionNewAlloc cfg alloc now s ip with
  | (s, none) => (s, false)
  | (s, some e) => startFound cfg now s e filterName interimInterval sessionContext eventContext

/-- `sw_session_stop` in these circumstances. -/
def sessionStopAlloc (now : ℤ) (s : Controller) (ip : UInt32) (filterName : Option String)
    (terminationCause : TermCause) (sessionContext eventContext : String) : Controller × Bool :=
  match sessionNewAlloc cfg alloc now s ip with
  | (s, none) => (s, false)
  | (s, some e) => stopFound cfg now s e filterName terminationCause sessionContext eventContext

/-- `UP` in these circumstances. -/
def uamUpAlloc (now : ℤ) (s : Controller) (ip : UInt32) (stateid : ℤ) (filterName : String)
    (interimInterval : ℤ) (max : GaugeLimits) (sessionContext eventContext : String) :
    Controller × Bool :=
  if verifyStateid s ip stateid then
    let s := gaugeNew now s ip max
    let s := shapeNew s ip max.maxBpsIn max.maxBpsOut
    match sessionStartAlloc cfg alloc now s ip filterName interimInterval sessionContext
      eventContext with
    | (s, false) => (shapeDel (gaugeDel s ip) ip, false)
    | (s, true) => (acquireStateid s ip, true)
  else (s, false)

/-- `DN` in these circumstances. -/
def uamDownAlloc (now : ℤ) (s : Controller) (ip : UInt32) (stateid : ℤ)
    (filterName sessionContext eventContext : String) : Controller × Bool :=
  if verifyStateid s ip stateid then
    match sessionStopAlloc cfg alloc now s ip (some filterName) .user sessionContext
      eventContext with
    | (s, false) => (s, false)
    | (s, true) => (acquireStateid (gaugeDel s ip) ip, true)
  else (s, false)

/-- With memory enough it is `sessionNew`. -/
theorem sessionNewAlloc_all (now : ℤ) (s : Controller) (ip : UInt32) :
    sessionNewAlloc cfg .all now s ip = sessionNew cfg now s ip := by
  have hopen : ∀ s, endpointOpenAlloc cfg .all s ip = endpointOpen cfg s ip := by
    intro s
    unfold endpointOpenAlloc endpointOpen
    cases cfg.nat with
    | none => rfl
    | some nat => exact Endpoints.endpointNewAlloc_all s.endpoints ip
  have hsession : Allocs.all.session = true := rfl
  unfold sessionNewAlloc sessionNew
  cases s.sessions.retrieve ip with
  | some e => rfl
  | none =>
    by_cases hip : checkIp cfg.userNetworks ip = 0
    · simp only [if_pos hip]
    cases filterGetId cfg.filters cfg.filterAnonymous with
    | none => simp [hip]
    | some filterId =>
      rcases hmade : endpointOpen cfg
          { s with sessions := s.sessions.insert (freshSession ip filterId now) } ip with
        ⟨endpoints, _ | _⟩ <;>
        simp [hip, hsession, hopen, hmade]

theorem sessionStartAlloc_all (now : ℤ) (s : Controller) (ip : UInt32) (filterName : String)
    (interimInterval : ℤ) (sessionContext eventContext : String) :
    sessionStartAlloc cfg .all now s ip filterName interimInterval sessionContext eventContext =
      sessionStart cfg now s ip filterName interimInterval sessionContext eventContext := by
  unfold sessionStartAlloc sessionStart
  rcases hnew : sessionNew cfg now s ip with ⟨s', _ | e⟩ <;>
    simp only [sessionNewAlloc_all, hnew]

theorem sessionStopAlloc_all (now : ℤ) (s : Controller) (ip : UInt32) (filterName : Option String)
    (terminationCause : TermCause) (sessionContext eventContext : String) :
    sessionStopAlloc cfg .all now s ip filterName terminationCause sessionContext eventContext =
      sessionStop cfg now s ip filterName terminationCause sessionContext eventContext := by
  unfold sessionStopAlloc sessionStop
  rcases hnew : sessionNew cfg now s ip with ⟨s', _ | e⟩ <;>
    simp only [sessionNewAlloc_all, hnew]

theorem uamUpAlloc_all (now : ℤ) (s : Controller) (ip : UInt32) (stateid : ℤ)
    (filterName : String) (interimInterval : ℤ) (max : GaugeLimits)
    (sessionContext eventContext : String) :
    uamUpAlloc cfg .all now s ip stateid filterName interimInterval max sessionContext
        eventContext =
      uamUp cfg now s ip stateid filterName interimInterval max sessionContext eventContext := by
  unfold uamUpAlloc uamUp
  by_cases hverify : verifyStateid s ip stateid
  · rcases hstart : sessionStart cfg now
        (shapeNew (gaugeNew now s ip max) ip max.maxBpsIn max.maxBpsOut) ip filterName
        interimInterval sessionContext eventContext with ⟨s', _ | _⟩ <;>
      simp only [hverify, if_true, sessionStartAlloc_all, hstart]
  · simp only [hverify, Bool.false_eq_true, if_false]

theorem uamDownAlloc_all (now : ℤ) (s : Controller) (ip : UInt32) (stateid : ℤ)
    (filterName sessionContext eventContext : String) :
    uamDownAlloc cfg .all now s ip stateid filterName sessionContext eventContext =
      uamDown cfg now s ip stateid filterName sessionContext eventContext := by
  unfold uamDownAlloc uamDown
  by_cases hverify : verifyStateid s ip stateid
  · rcases hstop : sessionStop cfg now s ip (some filterName) .user sessionContext eventContext
        with ⟨s', _ | _⟩ <;>
      simp only [hverify, if_true, sessionStopAlloc_all, hstop]
  · simp only [hverify, Bool.false_eq_true, if_false]

end Model

/-- What opens and closes sessions. -/
inductive HostOp
  | new (alloc : Allocs) (ip : UInt32)
  | del (ip : UInt32)
  | expire (order : List UInt32)
  | up (alloc : Allocs) (ip : UInt32) (stateid : ℤ) (filterName : String) (interimInterval : ℤ)
    (max : GaugeLimits) (sessionContext eventContext : String)
  | down (alloc : Allocs) (ip : UInt32) (stateid : ℤ)
    (filterName sessionContext eventContext : String)

/-- Such an operation at its time. -/
structure HostEvent where
  now : ℤ
  op : HostOp

/-- Doing it. -/
def hostExec (cfg : Config) (s : Controller) (ev : HostEvent) : Controller :=
  match ev.op with
  | .new alloc ip => (sessionNewAlloc cfg alloc ev.now s ip).1
  | .del ip => sessionDel cfg s ip
  | .expire order => sessionExpire cfg ev.now s order
  | .up alloc ip stateid filterName interimInterval max sessionContext eventContext =>
    (uamUpAlloc cfg alloc ev.now s ip stateid filterName interimInterval max sessionContext
      eventContext).1
  | .down alloc ip stateid filterName sessionContext eventContext =>
    (uamDownAlloc cfg alloc ev.now s ip stateid filterName sessionContext eventContext).1

def HostStep (cfg : Config) (s : Controller) (ev : HostEvent) (s' : Controller) : Prop :=
  s' = hostExec cfg s ev

/-- The session that an operation looks up, and opens if there is none. -/
def HostEvent.wants (s : Controller) (ev : HostEvent) : Option (Allocs × UInt32) :=
  match ev.op with
  | .new alloc ip => some (alloc, ip)
  | .del _ => none
  | .expire _ => none
  | .up alloc ip stateid .. => if verifyStateid s ip stateid then some (alloc, ip) else none
  | .down alloc ip stateid .. => if verifyStateid s ip stateid then some (alloc, ip) else none

/-! ## What an operation does to the hosts -/

/-- The same addresses have sessions, with the same endpoints. -/
structure SameHosts (s s' : Controller) : Prop where
  sessions : ∀ a, (s'.sessions.retrieve a).isSome = (s.sessions.retrieve a).isSome
  endpoints : s'.endpoints = s.endpoints

namespace SameHosts

variable {s s' s'' : Controller}

theorem refl (s : Controller) : SameHosts s s := ⟨fun _ => rfl, rfl⟩

theorem trans (h : SameHosts s s') (h' : SameHosts s' s'') : SameHosts s s'' :=
  ⟨fun a => (h'.sessions a).trans (h.sessions a), h'.endpoints.trans h.endpoints⟩

/-- The session of an address is replaced by another one of that address. -/
theorem store {e e' : SessionEntry} {ip : UInt32} (h : s.sessions.retrieve ip = some e)
    (hs : s'.sessions = s.sessions.insert e') (hend : s'.endpoints = s.endpoints)
    (hip : e'.ip = ip) : SameHosts s s' := by
  subst hip
  refine ⟨fun a => ?_, hend⟩
  rw [hs, retrieve_insert]
  split
  · rename_i ha
    rw [← ha, h]
    rfl
  · rfl

end SameHosts

section Same

variable {cfg : Config} {s : Controller} {e : SessionEntry}

theorem sameHosts_stopFound (h : s.sessions.retrieve e.ip = some e) (now : ℤ)
    (filterName : Option String) (terminationCause : TermCause)
    (sessionContext eventContext : String) :
    SameHosts s (stopFound cfg now s e filterName terminationCause sessionContext
      eventContext).1 := by
  unfold stopFound
  by_cases hreleased : e.state = .released
  · simp only [hreleased, if_true]
    split
    · exact .store h rfl rfl rfl
    · exact .store h rfl rfl rfl
  · simp only [hreleased, if_false]
    split
    · exact .store h rfl rfl rfl
    · exact .store h rfl rfl rfl

theorem sameHosts_startFound (h : s.sessions.retrieve e.ip = some e) (now : ℤ)
    (filterName : String) (interimInterval : ℤ) (sessionContext eventContext : String) :
    SameHosts s (startFound cfg now s e filterName interimInterval sessionContext
      eventContext).1 := by
  unfold startFound
  split
  · exact .refl s
  · generalize (if interimInterval = 0 then cfg.acctInterimInterval else interimInterval) = interval
    dsimp only
    split
    · exact .store h rfl rfl rfl
    · exact .store h rfl rfl rfl

theorem sameHosts_acquireStateid (s : Controller) (ip : UInt32) :
    SameHosts s (acquireStateid s ip) := by
  unfold acquireStateid
  cases h : s.sessions.retrieve ip with
  | none => exact .refl s
  | some e =>
    obtain rfl := entry_key h
    exact .store h rfl rfl rfl

end Same

/-! ## What an operation does to the hosts -/

/-- An address has a session just when it has an entry in each endpoint table. -/
def InStep (s : Controller) : Prop :=
  ∀ a, (s.endpoints.ip.retrieve a).isSome = (s.sessions.retrieve a).isSome ∧
    (s.endpoints.udp.retrieve a).isSome = (s.sessions.retrieve a).isSome ∧
    (s.endpoints.tcp.retrieve a).isSome = (s.sessions.retrieve a).isSome ∧
    (s.endpoints.icmp.retrieve a).isSome = (s.sessions.retrieve a).isSome

/-- Nothing keeps a session from being opened until the index of the UDP handler is written. -/
structure ReachesIndex (cfg : Config) (alloc : Allocs) (s : Controller) (ip : UInt32) : Prop where
  absent : s.sessions.retrieve ip = none
  network : checkIp cfg.userNetworks ip ≠ 0
  filter : (filterGetId cfg.filters cfg.filterAnonymous).isSome
  allocSession : alloc.session = true
  allocIp : alloc.ip = true
  allocUdp : alloc.udp = true

/-- What opening the session of an address does to the hosts; the flag says whether there is a
session in the end. -/
inductive HostMove (cfg : Config) (nat : EndpointConfig) (alloc : Allocs) (s : Controller)
    (ip : UInt32) : Controller → Bool → Prop
  | found {s' : Controller} (h : (s.sessions.retrieve ip).isSome) (hsame : SameHosts s s') :
    HostMove cfg nat alloc s ip s' true
  | refused {s' : Controller} (h : s.sessions.retrieve ip = none)
    (hnot : ¬ ReachesIndex cfg alloc s ip) (hs : s'.sessions = s.sessions)
    (hend : s'.endpoints = s.endpoints) : HostMove cfg nat alloc s ip s' false
  | opened {s' : Controller} (hopens : ReachesIndex cfg alloc s ip) (hnew : (ipNew nat ip).isSome)
    (hs : ∀ a, (s'.sessions.retrieve a).isSome = if a = ip then true
      else (s.sessions.retrieve a).isSome)
    (hend : s'.endpoints = (s.endpoints.endpointNew nat ip).1) :
    HostMove cfg nat alloc s ip s' true
  | withdrawn {s' : Controller} (h : s.sessions.retrieve ip = none)
    (hopens : alloc.ip = true → alloc.udp = true → ReachesIndex cfg alloc s ip)
    (hfail : (s.endpoints.endpointNewAlloc nat alloc ip).2 = false)
    (hs : s'.sessions = s.sessions)
    (hend : s'.endpoints = (s.endpoints.endpointNewAlloc nat alloc ip).1.endpointDel ip) :
    HostMove cfg nat alloc s ip s' false

section Move

variable {cfg : Config} {nat : EndpointConfig} {alloc : Allocs} {s s' s'' : Controller}
  {ip : UInt32}

/-- Opening a session looks at the sessions and the endpoints only. -/
theorem HostMove.congr {flag : Bool} (h : HostMove cfg nat alloc s ip s' flag)
    (hs : s.sessions = s''.sessions) (hend : s.endpoints = s''.endpoints) :
    HostMove cfg nat alloc s'' ip s' flag := by
  have hopens : ReachesIndex cfg alloc s ip ↔ ReachesIndex cfg alloc s'' ip :=
    ⟨fun h => ⟨hs ▸ h.absent, h.network, h.filter, h.allocSession, h.allocIp, h.allocUdp⟩,
      fun h => ⟨hs ▸ h.absent, h.network, h.filter, h.allocSession, h.allocIp, h.allocUdp⟩⟩
  cases h with
  | found h hsame =>
    exact .found (hs ▸ h) ⟨fun a => by rw [hsame.sessions, hs], hsame.endpoints.trans hend⟩
  | refused h hnot hs' hend' =>
    exact .refused (hs ▸ h) (fun h' => hnot (hopens.2 h')) (hs'.trans hs) (hend'.trans hend)
  | opened h hnew hs' hend' => exact .opened (hopens.1 h) hnew (hs ▸ hs') (hend ▸ hend')
  | withdrawn h hopens' hfail hs' hend' =>
    exact .withdrawn (hs ▸ h) (fun h₁ h₂ => hopens.1 (hopens' h₁ h₂)) (hend ▸ hfail)
      (hs'.trans hs) (hend ▸ hend')

/-- What happens to an open session afterwards. -/
theorem HostMove.then (h : HostMove cfg nat alloc s ip s' true) (hsame : SameHosts s' s'') :
    HostMove cfg nat alloc s ip s'' true := by
  cases h with
  | found h hsame' => exact .found h (hsame'.trans hsame)
  | opened hopens hnew hs hend =>
    exact .opened hopens hnew (fun a => (hsame.sessions a).trans (hs a))
      (hsame.endpoints.trans hend)

/-- Without a session nothing happens to the hosts afterwards. -/
theorem HostMove.then_failed (h : HostMove cfg nat alloc s ip s' false)
    (hs : s''.sessions = s'.sessions) (hend : s''.endpoints = s'.endpoints) :
    HostMove cfg nat alloc s ip s'' false := by
  cases h with
  | refused h hnot hs' hend' => exact .refused h hnot (hs.trans hs') (hend.trans hend')
  | withdrawn h hopens hfail hs' hend' =>
    exact .withdrawn h hopens hfail (hs.trans hs') (hend.trans hend')

/-- A session that was opened is the one stored. -/
theorem sessionNewAlloc_stored (now : ℤ) {e : SessionEntry}
    (h : (sessionNewAlloc cfg alloc now s ip).2 = some e) :
    (sessionNewAlloc cfg alloc now s ip).1.sessions.retrieve e.ip = some e := by
  unfold sessionNewAlloc at h ⊢
  cases hfound : s.sessions.retrieve ip with
  | some e' =>
    simp only [hfound] at h ⊢
    obtain rfl := Option.some.inj h
    rw [entry_key hfound, hfound]
  | none =>
    simp only [hfound] at h ⊢
    split_ifs at h ⊢
    split at h
    · cases h
    · split at h
      · obtain rfl := Option.some.inj h
        rename_i hopened
        rw [if_pos hopened]
        simp only [retrieve_insert, if_true]
      · cases h

theorem sessionNewAlloc_move (hnat : cfg.nat = some nat) (now : ℤ) (s : Controller) (ip : UInt32) :
    HostMove cfg nat alloc s ip (sessionNewAlloc cfg alloc now s ip).1
      (sessionNewAlloc cfg alloc now s ip).2.isSome := by
  unfold sessionNewAlloc
  cases hfound : s.sessions.retrieve ip with
  | some e => exact .found (by rw [hfound]; rfl) (.refl s)
  | none =>
    simp only
    split_ifs with hnet hsession
    · exact .refused hfound (fun h => h.network hnet) rfl rfl
    · exact .refused hfound (fun h => by simp [h.allocSession] at hsession) rfl rfl
    · cases hfilter : filterGetId cfg.filters cfg.filterAnonymous with
      | none =>
        refine .refused hfound (fun h => ?_) rfl rfl
        have := h.filter
        rw [hfilter] at this
        cases this
      | some filterId =>
        have hkey : (freshSession ip filterId now).ip = ip := rfl
        have hback := KeyedTable.delete_insert_of_free
          (r := freshSession ip filterId now) (t := s.sessions) hfound
        have hreaches : alloc.ip = true → alloc.udp = true → ReachesIndex cfg alloc s ip :=
          fun h₁ h₂ => ⟨hfound, hnet, by rw [hfilter]; rfl, by simpa using hsession, h₁, h₂⟩
        simp only [endpointOpenAlloc, hnat]
        cases hopened : (s.endpoints.endpointNewAlloc nat alloc ip).2 with
        | true =>
          simp only [if_true]
          obtain ⟨hnew, hip, hudp, heq⟩ := Endpoints.endpointNewAlloc_succeeded hopened
          refine .opened (hreaches hip hudp) hnew (fun a => ?_) heq
          simp only [retrieve_insert, hkey]
          by_cases ha : a = ip
          · simp [ha]
          · simp [ha, Ne.symm ha]
        | false =>
          simp only [Bool.false_eq_true, if_false]
          have hthere : (s.sessions.insert (freshSession ip filterId now)).retrieve ip =
              some (freshSession ip filterId now) := by
            rw [retrieve_insert, if_pos hkey]
          simp only [sessionDel, hthere, hnat, Option.isSome_some, if_true]
          exact .withdrawn hfound hreaches hopened hback rfl

/-- Whether a session can be opened depends on the sessions and the endpoints only. -/
theorem sessionNewAlloc_isSome_congr (hnat : cfg.nat = some nat) (now : ℤ)
    (hs : s''.sessions = s.sessions) (hend : s''.endpoints = s.endpoints) :
    (sessionNewAlloc cfg alloc now s'' ip).2.isSome =
      (sessionNewAlloc cfg alloc now s ip).2.isSome := by
  unfold sessionNewAlloc
  rw [hs]
  cases s.sessions.retrieve ip with
  | some e => rfl
  | none =>
    simp only
    split_ifs
    · rfl
    · rfl
    · cases filterGetId cfg.filters cfg.filterAnonymous with
      | none => rfl
      | some filterId =>
        simp only [endpointOpenAlloc, hnat, hend]
        cases (s.endpoints.endpointNewAlloc nat alloc ip).2 with
        | true => rfl
        | false => rfl

/-! ## One operation -/

/-- **What an operation that wants a session does to the hosts.** -/
theorem hostExec_move (hnat : cfg.nat = some nat) {ev : HostEvent}
    (hwants : ev.wants s = some (alloc, ip)) :
    HostMove cfg nat alloc s ip (hostExec cfg s ev)
      (sessionNewAlloc cfg alloc ev.now s ip).2.isSome := by
  obtain ⟨now, op⟩ := ev
  cases op with
  | new alloc' ip' =>
    obtain ⟨rfl, rfl⟩ := Prod.mk.inj (Option.some.inj hwants)
    exact sessionNewAlloc_move hnat now s ip'
  | del ip' => cases hwants
  | expire order => cases hwants
  | up alloc' ip' stateid filterName interimInterval max sessionContext eventContext =>
    simp only [HostEvent.wants] at hwants
    split_ifs at hwants with hverify
    obtain ⟨rfl, rfl⟩ := Prod.mk.inj (Option.some.inj hwants)
    -- the gauge and the shaping context come first; the hosts are still the same
    have hcongr := @sessionNewAlloc_isSome_congr cfg nat alloc' s
      (shapeNew (gaugeNew now s ip' max) ip' max.maxBpsIn max.maxBpsOut) ip' hnat now rfl rfl
    have hmove := @HostMove.congr cfg nat alloc'
      (shapeNew (gaugeNew now s ip' max) ip' max.maxBpsIn max.maxBpsOut) _ s ip' _
      (@sessionNewAlloc_move cfg nat alloc' hnat now _ ip') rfl rfl
    have hstored := @sessionNewAlloc_stored cfg alloc'
      (shapeNew (gaugeNew now s ip' max) ip' max.maxBpsIn max.maxBpsOut) ip' now
    rw [hcongr] at hmove
    simp only [hostExec, uamUpAlloc, hverify, if_true, sessionStartAlloc]
    generalize sessionNewAlloc cfg alloc' now
      (shapeNew (gaugeNew now s ip' max) ip' max.maxBpsIn max.maxBpsOut) ip' = r
      at hmove hstored hcongr ⊢
    obtain ⟨s₁, _ | e⟩ := r
    · rw [← hcongr] at hmove ⊢
      exact hmove.then_failed rfl rfl
    · have hsame := @sameHosts_startFound cfg s₁ e (hstored rfl) now filterName interimInterval
        sessionContext eventContext
      rw [← hcongr] at hmove ⊢
      simp only at hsame ⊢
      generalize startFound cfg now s₁ e filterName interimInterval sessionContext eventContext = r
        at hsame ⊢
      obtain ⟨s₂, _ | _⟩ := r
      · exact hmove.then (hsame.trans
          (⟨fun _ => rfl, rfl⟩ : SameHosts s₂ (shapeDel (gaugeDel s₂ ip') ip')))
      · exact hmove.then (hsame.trans (sameHosts_acquireStateid _ ip'))
  | down alloc' ip' stateid filterName sessionContext eventContext =>
    simp only [HostEvent.wants] at hwants
    split_ifs at hwants with hverify
    obtain ⟨rfl, rfl⟩ := Prod.mk.inj (Option.some.inj hwants)
    have hmove := @sessionNewAlloc_move cfg nat alloc' hnat now s ip'
    have hstored := @sessionNewAlloc_stored cfg alloc' s ip' now
    simp only [hostExec, uamDownAlloc, hverify, if_true, sessionStopAlloc]
    generalize sessionNewAlloc cfg alloc' now s ip' = r at hmove hstored ⊢
    obtain ⟨s₁, _ | e⟩ := r
    · exact hmove
    · have hsame := @sameHosts_stopFound cfg s₁ e (hstored rfl) now (some filterName) .user
        sessionContext eventContext
      simp only at hsame ⊢
      generalize stopFound cfg now s₁ e (some filterName) .user sessionContext eventContext = r
        at hsame ⊢
      obtain ⟨s₂, _ | _⟩ := r
      · exact hmove.then hsame
      · exact hmove.then (hsame.trans
          (.trans (⟨fun _ => rfl, rfl⟩ : SameHosts s₂ (gaugeDel s₂ ip'))
            (sameHosts_acquireStateid _ ip')))

end Move

/-! ## Sessions and endpoints in step -/

section InStep

variable {cfg : Config} {nat : EndpointConfig} {alloc : Allocs} {s s' : Controller} {ip : UInt32}

theorem InStep.absent (h : InStep s) (hs : s.sessions.retrieve ip = none) :
    s.endpoints.entries ip = .none := by
  obtain ⟨h₁, h₂, h₃, h₄⟩ := h ip
  rw [hs, Option.isSome_none, Option.isSome_eq_false_iff, Option.isNone_iff_eq_none] at h₁ h₂ h₃ h₄
  rw [Endpoints.entries, h₁, h₂, h₃, h₄]
  rfl

/-- It is enough to look at the entries of each address. -/
theorem inStep_iff : InStep s ↔ ∀ a,
    (s.endpoints.entries a).ip.isSome = (s.sessions.retrieve a).isSome ∧
    (s.endpoints.entries a).udp.isSome = (s.sessions.retrieve a).isSome ∧
    (s.endpoints.entries a).tcp.isSome = (s.sessions.retrieve a).isSome ∧
    (s.endpoints.entries a).icmp.isSome = (s.sessions.retrieve a).isSome :=
  Iff.rfl

/-- **Opening a session keeps sessions and endpoints in step**, however it ends. -/
theorem InStep.move (h : InStep s) {flag : Bool} (hmove : HostMove cfg nat alloc s ip s' flag) :
    InStep s' := by
  cases hmove with
  | found _ hsame =>
    intro a
    rw [hsame.endpoints, hsame.sessions]
    exact h a
  | refused _ _ hs hend =>
    intro a
    rw [hend, hs]
    exact h a
  | opened hreaches hnew hs hend =>
    rw [inStep_iff] at h ⊢
    intro a
    rw [hend, hs, Endpoints.entries_endpointNew hnew]
    split
    · obtain ⟨x, hx⟩ := Option.isSome_iff_exists.1 hnew
      simp [Entries.new, hx]
    · exact h a
  | withdrawn habsent _ _ hs hend =>
    rw [inStep_iff] at h ⊢
    intro a
    rw [hend, hs, Endpoints.entries_endpointDel]
    split
    · rename_i ha
      rw [ha, habsent]
      exact ⟨rfl, rfl, rfl, rfl⟩
    · rename_i ha
      rw [Endpoints.entries_endpointNewAlloc_of_ne ha]
      exact h a

theorem InStep.same (h : InStep s) (hsame : SameHosts s s') : InStep s' := by
  intro a
  rw [hsame.endpoints, hsame.sessions]
  exact h a

theorem InStep.del (h : InStep s) (hnat : cfg.nat = some nat) (ip : UInt32) :
    InStep (sessionDel cfg s ip) := by
  cases hfound : s.sessions.retrieve ip with
  | none => simpa only [sessionDel, hfound] using h
  | some e =>
    rw [inStep_iff] at h ⊢
    intro a
    simp only [sessionDel, hfound, hnat, Option.isSome_some, if_true,
      Endpoints.entries_endpointDel, retrieve_delete]
    split
    · exact ⟨rfl, rfl, rfl, rfl⟩
    · exact h a

/-- Apart from opening sessions an operation deletes some, or keeps the hosts. -/
theorem hostExec_invariant {P : Controller → Prop}
    (hsame : ∀ s s', SameHosts s s' → P s → P s') (hdel : ∀ s ip, P s → P (sessionDel cfg s ip))
    {ev : HostEvent} (hmove : ev.wants s ≠ none → P (hostExec cfg s ev)) (h : P s) :
    P (hostExec cfg s ev) := by
  obtain ⟨now, op⟩ := ev
  cases op with
  | new alloc ip => exact hmove (by simp [HostEvent.wants])
  | del ip => exact hdel s ip h
  | expire order =>
    show P (sessionExpire cfg now s order)
    clear hmove
    induction order generalizing s with
    | nil => exact h
    | cons ip order ih =>
      refine ih ?_
      unfold expireSessionCb
      cases hfound : s.sessions.retrieve ip with
      | none => exact h
      | some e =>
        cases hstate : e.state with
        | captured =>
          simp only [hstate]
          split
          · exact hdel s ip h
          · exact h
        | released =>
          simp only [hstate]
          split
          · exact hsame s _ (.store hfound rfl rfl (show e.ip = ip from entry_key hfound)) h
          · exact h
  | up alloc ip stateid =>
    by_cases hverify : verifyStateid s ip stateid = true
    · exact hmove (by simp [HostEvent.wants, hverify])
    · simpa [hostExec, uamUpAlloc, hverify] using h
  | down alloc ip stateid =>
    by_cases hverify : verifyStateid s ip stateid = true
    · exact hmove (by simp [HostEvent.wants, hverify])
    · simpa [hostExec, uamDownAlloc, hverify] using h

theorem InStep.exec (h : InStep s) (hnat : cfg.nat = some nat) (ev : HostEvent) :
    InStep (hostExec cfg s ev) := by
  refine hostExec_invariant (fun _ _ hsame h => h.same hsame) (fun _ ip h => h.del hnat ip) ?_ h
  intro hwants
  obtain ⟨⟨alloc, ip⟩, hwants⟩ := Option.ne_none_iff_exists'.1 hwants
  exact h.move (hostExec_move hnat hwants)

end InStep

/-! ## Places in the indices -/

/-- If the operation opens a session and gets as far as the indices, nobody else has the public
address and the block in question. -/
def Unclashed (cfg : Config) (nat : EndpointConfig) (s : Controller) (ev : HostEvent) : Prop :=
  ∀ alloc ip, ev.wants s = some (alloc, ip) → ReachesIndex cfg alloc s ip →
    Endpoints.Distinct nat s.endpoints ip

/-- The sessions, their endpoints and the indices are all in order. -/
structure Orderly (nat : EndpointConfig) (s : Controller) : Prop where
  inStep : InStep s
  tidy : Endpoints.Tidy nat s.endpoints

section Orderly

variable {cfg : Config} {nat : EndpointConfig} {alloc : Allocs} {s s' : Controller} {ip : UInt32}

theorem Orderly.absent (h : Orderly nat s) (hs : s.sessions.retrieve ip = none)
    (proto : PortProto) : s.endpoints.portEntry proto ip = none := by
  have hentries := h.inStep.absent hs
  have hudp : s.endpoints.udp.retrieve ip = none := congrArg Entries.udp hentries
  have htcp : s.endpoints.tcp.retrieve ip = none := congrArg Entries.tcp hentries
  cases proto with
  | tcp => rw [Endpoints.portEntry, htcp, Option.map_none]
  | udp => rw [Endpoints.portEntry, hudp, Option.map_none]

/-- **A failing `sw_session_new` leaves the tables as they were**, unless it got in another's
place. -/
theorem Orderly.tables_eq (h : Orderly nat s) (hmove : HostMove cfg nat alloc s ip s' false)
    (hdistinct : ReachesIndex cfg alloc s ip → Endpoints.Distinct nat s.endpoints ip) :
    s'.sessions = s.sessions ∧ s'.endpoints = s.endpoints := by
  cases hmove with
  | refused _ _ hs hend => exact ⟨hs, hend⟩
  | withdrawn habsent hreaches hfail hs hend =>
    refine ⟨hs, hend.trans ?_⟩
    refine Endpoints.endpointDel_endpointNewAlloc (h.inStep.absent habsent) hfail ?_
    intro h₁ h₂ proto x hx
    exact h.tidy.free (h.absent habsent) (hdistinct (hreaches h₁ h₂)) proto hx

theorem Orderly.move (h : Orderly nat s) {flag : Bool}
    (hmove : HostMove cfg nat alloc s ip s' flag)
    (hdistinct : ReachesIndex cfg alloc s ip → Endpoints.Distinct nat s.endpoints ip) :
    Orderly nat s' := by
  refine ⟨h.inStep.move hmove, ?_⟩
  cases flag with
  | false =>
    rw [(h.tables_eq hmove hdistinct).2]
    exact h.tidy
  | true =>
    cases hmove with
    | found _ hsame =>
      rw [hsame.endpoints]
      exact h.tidy
    | opened hreaches hnew hs hend =>
      rw [hend]
      exact h.tidy.new hnew (hdistinct hreaches)

/-- **If every entry is still found after a session was opened, its place was free.** -/
theorem Orderly.distinct_of_complete {k : ℕ} (hcfg : Divided nat k) (h : Orderly nat s)
    {flag : Bool} (hmove : HostMove cfg nat alloc s ip s' flag)
    (hcomplete : s'.endpoints.Complete) (hreaches : ReachesIndex cfg alloc s ip) :
    Endpoints.Distinct nat s.endpoints ip := by
  cases hmove with
  | found hfound _ =>
    rw [hreaches.absent] at hfound
    cases hfound
  | refused _ hnot => exact absurd hreaches hnot
  | opened _ _ _ hend => exact h.tidy.distinct_of_complete (hend ▸ hcomplete)
  | withdrawn _ _ _ _ hend =>
    have hudp := @Endpoints.distinct_udp_of_complete nat alloc s.endpoints ip
      ⟨hreaches.allocIp, hreaches.allocUdp⟩ (hend ▸ hcomplete)
    intro proto x hx b y hy hyip hyid
    cases proto with
    | udp => exact hudp hx b y hy hyip hyid
    | tcp =>
      -- the UDP entry of the same address has the same place
      have hyudp : s.endpoints.portEntry .udp b = some y := by
        have hpresent : (s.endpoints.portEntry .udp b).isSome := by
          obtain ⟨-, h₂, h₃, -⟩ := h.inStep b
          have htcp : (s.endpoints.tcp.retrieve b).isSome := by
            rw [← Option.isSome_map (f := EndpointTcp.portEntry)]
            exact Option.isSome_of_eq_some hy
          rw [Endpoints.portEntry, Option.isSome_map, h₂, ← h₃, htcp]
        obtain ⟨z, hz⟩ := Option.isSome_iff_exists.1 hpresent
        have hzy := h.tidy.placed .udp b z hz
        rw [← Endpoints.newPort_tcp_eq_udp hcfg, h.tidy.placed .tcp b y hy] at hzy
        rw [hz, hzy]
      rw [Endpoints.newPort_tcp_eq_udp hcfg] at hx
      exact hudp hx b y hyudp hyip hyid

theorem Orderly.exec (h : Orderly nat s) (hnat : cfg.nat = some nat) {ev : HostEvent}
    (hguard : Unclashed cfg nat s ev) : Orderly nat (hostExec cfg s ev) := by
  refine hostExec_invariant (P := Orderly nat) ?_ ?_ ?_ h
  · exact fun s s' hsame h => ⟨h.inStep.same hsame, hsame.endpoints ▸ h.tidy⟩
  · intro s ip h
    refine ⟨h.inStep.del hnat ip, ?_⟩
    cases hfound : s.sessions.retrieve ip with
    | none => simpa only [sessionDel, hfound] using h.tidy
    | some e =>
      simpa only [sessionDel, hfound, hnat, Option.isSome_some, if_true] using h.tidy.del ip
  · intro hwants
    obtain ⟨⟨alloc, ip⟩, hwants⟩ := Option.ne_none_iff_exists'.1 hwants
    exact h.move (hostExec_move hnat hwants) (hguard alloc ip hwants)

end Orderly

/-- **Sessions and source-NAT endpoints stay in step.**  With source NAT enabled, after every one of
any operations the addresses with sessions are those with entries in each endpoint table.  All along
every TCP and UDP entry is found under its public address and block, and no failing
`sw_session_new` leaves a trace in the tables, exactly if no session is opened for an address whose
public address and block somebody else has. -/
theorem sessions_endpoints_inStep (pubNs : Netset) (cfg : Config) (nat : EndpointConfig)
    (hnat : cfg.nat = some nat) (hcreate : endpointCreate pubNs cfg.userNetworks = some nat)
    (evs : List HostEvent) (s : Controller) (hrun : Run (HostStep cfg) init evs s) :
    Run.Always (HostStep cfg) InStep init evs ∧
    ((Run.Always (HostStep cfg) (fun s => s.endpoints.Complete) init evs ∧
        ∀ pre ev post s₁, evs = pre ++ ev :: post → Run (HostStep cfg) init pre s₁ →
          ∀ alloc ip, ev.wants s₁ = some (alloc, ip) →
            (sessionNewAlloc cfg alloc ev.now s₁ ip).2 = none →
            (hostExec cfg s₁ ev).sessions = s₁.sessions ∧
              (hostExec cfg s₁ ev).endpoints = s₁.endpoints) ↔
      Run.Guarded (HostStep cfg) (Unclashed cfg nat) init evs) := by
  obtain ⟨k, hcfg⟩ := divided_of_endpointCreate hcreate
  have hinit : Orderly nat init := ⟨fun _ => ⟨rfl, rfl, rfl, rfl⟩, Endpoints.tidy_empty nat⟩
  have hdet : ∀ s ev s₁ s₂, HostStep cfg s ev s₁ → HostStep cfg s ev s₂ → s₁ = s₂ := by
    rintro s ev _ _ rfl rfl
    rfl
  have hexact := Run.always_iff_guarded (G := Unclashed cfg nat) (I := Orderly nat)
    (P := fun s => s.endpoints.Complete) hdet (fun _ h => h.tidy.complete)
    (by rintro s ev _ rfl hguard h; exact h.exec hnat hguard)
    (by
      rintro s ev _ rfl h hcomplete alloc ip hwants hreaches
      exact h.distinct_of_complete hcfg (hostExec_move hnat hwants) hcomplete hreaches)
    hrun hinit
  refine ⟨?_, ?_⟩
  · rintro pre post s₁ rfl hpre
    refine hpre.invariant (P := InStep) ?_ hinit.inStep
    rintro s ev _ rfl h
    exact h.exec hnat ev
  · rw [← hexact]
    refine and_iff_left_of_imp fun halways => ?_
    rintro pre ev post s₁ hevs hpre alloc ip hwants hfail
    have hguard := hexact.1 halways
    have horderly : Orderly nat s₁ := by
      rw [hevs] at hguard
      refine Run.invariant_of_guarded (P := Orderly nat) ?_ hpre hguard.of_append hinit
      rintro s ev _ rfl hguard h
      exact h.exec hnat hguard
    have hmove := hostExec_move hnat hwants
    rw [hfail] at hmove
    exact horderly.tables_eq hmove (hguard pre ev post s₁ hevs hpre alloc ip hwants)

/-- With memory enough a session that gets as far as the indices is opened. -/
theorem HostMove.opened_of_all {cfg : Config} {nat : EndpointConfig} {s s' : Controller}
    {ip : UInt32} {flag : Bool} (h : HostMove cfg nat .all s ip s' flag)
    (hreaches : ReachesIndex cfg .all s ip) (hnew : (ipNew nat ip).isSome) :
    (∀ a, (s'.sessions.retrieve a).isSome = if a = ip then true
      else (s.sessions.retrieve a).isSome) ∧
      s'.endpoints = (s.endpoints.endpointNew nat ip).1 := by
  cases h with
  | found hfound =>
    rw [hreaches.absent] at hfound
    cases hfound
  | refused _ hnot => exact absurd hreaches hnot
  | opened _ _ hs hend => exact ⟨hs, hend⟩
  | withdrawn _ _ hfail =>
    rw [Endpoints.endpointNewAlloc_all, Endpoints.endpointNew_snd, hnew] at hfail
    cases hfail

/-! ### Two users behind an address given twice -/

def twoUsers : Netset := [⟨0x0a000001, 0x0a000002, by decide⟩]

/-- `192.0.2.1/32,192.0.2.1/32`. -/
def twicePublic : Netset :=
  [⟨0xc0000201, 0xc0000201, by decide⟩, ⟨0xc0000201, 0xc0000201, by decide⟩]

def twoUsersConfig (nat : EndpointConfig) : Config :=
  { oneUserConfig with userNetworks := twoUsers, nat := some nat }

/-- Both are opened a session. -/
def bothUsers : List HostEvent := [⟨0, .new .all 0x0a000001⟩, ⟨0, .new .all 0x0a000002⟩]

theorem sessions_endpoints_inStep_bothUsers :
    ∃ nat, endpointCreate twicePublic twoUsers = some nat ∧
      Run.Always (HostStep (twoUsersConfig nat)) InStep init bothUsers := by
  obtain ⟨nat, hcreate⟩ := Option.isSome_iff_exists.1
    (show (endpointCreate twicePublic twoUsers).isSome by decide +kernel)
  exact ⟨nat, hcreate, (sessions_endpoints_inStep twicePublic (twoUsersConfig nat) nat rfl hcreate
    bothUsers _ (Run.of_foldl _ _ _)).1⟩

/-- The first user's entries are not found any more. -/
theorem sessions_endpoints_givenTwice : ¬ ∀ (pubNs : Netset) (cfg : Config) (nat : EndpointConfig),
    cfg.nat = some nat → endpointCreate pubNs cfg.userNetworks = some nat →
    ∀ (evs : List HostEvent) (s : Controller), Run (HostStep cfg) init evs s →
      InStep s ∧ s.endpoints.Complete := by
  intro hclaim
  have hfacts : ((endpointCreate twicePublic twoUsers).bind fun nat =>
      (newPort nat .udp 0x0a000001).bind fun y => (newPort nat .udp 0x0a000002).bind fun x =>
        if y.pubIp = x.pubIp ∧ y.id = x.id then some () else none).isSome := by
    decide +kernel
  obtain ⟨_, hfacts⟩ := Option.isSome_iff_exists.1 hfacts
  obtain ⟨nat, hcreate, hfacts⟩ := Option.bind_eq_some_iff.1 hfacts
  obtain ⟨y, hy, hfacts⟩ := Option.bind_eq_some_iff.1 hfacts
  obtain ⟨x, hx, hsame⟩ := Option.bind_eq_some_iff.1 hfacts
  obtain ⟨k, hcfg⟩ := divided_of_endpointCreate hcreate
  have hsame : y.pubIp = x.pubIp ∧ y.id = x.id := by
    by_contra hne
    rw [if_neg hne] at hsame
    cases hsame
  have hnew : (ipNew nat 0x0a000001).isSome := by
    rw [newPort] at hy
    rw [← Option.isSome_map, hy]
    rfl
  have hfilter : (filterGetId oneUserConfig.filters oneUserConfig.filterAnonymous).isSome := by
    decide +kernel
  have hnet₁ : checkIp twoUsers 0x0a000001 ≠ 0 := by decide
  have hnet₂ : checkIp twoUsers 0x0a000002 ≠ 0 := by decide
  -- the first session is opened
  have hinit : Orderly nat init := ⟨fun _ => ⟨rfl, rfl, rfl, rfl⟩, Endpoints.tidy_empty nat⟩
  have hreaches : ReachesIndex (twoUsersConfig nat) .all init 0x0a000001 :=
    ⟨rfl, hnet₁, hfilter, rfl, rfl, rfl⟩
  have hmove := @hostExec_move (twoUsersConfig nat) nat .all init 0x0a000001 rfl
    ⟨0, .new .all 0x0a000001⟩ rfl
  obtain ⟨hs, hend⟩ := hmove.opened_of_all hreaches hnew
  have hfirst := @Endpoints.portEntry_new nat .empty 0x0a000001 0x0a000001 .udp y hy
  rw [if_pos rfl] at hfirst
  have horderly := hinit.move hmove fun _ proto x _ b z hz => by
    cases proto <;> cases hz
  -- the second one takes its place
  have hreaches' : ReachesIndex (twoUsersConfig nat) .all
      (hostExec (twoUsersConfig nat) init ⟨0, .new .all 0x0a000001⟩) 0x0a000002 := by
    refine ⟨?_, hnet₂, hfilter, rfl, rfl, rfl⟩
    have := hs 0x0a000002
    rw [if_neg (by decide)] at this
    exact Option.isSome_eq_false_iff.1 (this.trans rfl) |> Option.isNone_iff_eq_none.1
  have hmove' := @hostExec_move (twoUsersConfig nat) nat .all
    (hostExec (twoUsersConfig nat) init ⟨0, .new .all 0x0a000001⟩) 0x0a000002 rfl
    ⟨0, .new .all 0x0a000002⟩ rfl
  have hcomplete := (hclaim twicePublic (twoUsersConfig nat) nat rfl hcreate bothUsers _
    (Run.of_foldl _ _ _)).2
  have hdistinct := horderly.distinct_of_complete hcfg hmove' hcomplete hreaches'
  rw [hend] at hdistinct
  exact absurd (hdistinct .udp x hx 0x0a000001 y hfirst hsame.1 hsame.2) (by decide)

end Controller

end Sweetspot
