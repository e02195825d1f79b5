import Mathlib.Logic.Relation
import Sweetspot.Session.Refusal

/-!
# The session functions, one lock-held section at a time

Several threads call the session module.  A call looks its session up and, if it is there, does its
work before it releases the lock of the bucket.  If not, it releases the lock, looks again, releases
the lock again, builds a session, and inserts it, with the lock held from there to the end of its
work; so a session that another thread has inserted in between is replaced.

* `Shared`: the controller, and a count of the sessions an address has had.
* `sessionMake`, `startLocked`, `stopLocked`: what is done while the lock is held.
* `Call.advance`: one section of a call; `Advanced`, `advance_advanced`: what it can be.
* `call_alone`: the sections of a call that no other thread runs between are the call as
  `sessionStart`, `sessionStop`, `sessionStatus` and `sessionGetFilterId` have it.
-/

namespace Sweetspot

/-- What the threads share.  The two counts are no part of the source; nothing reads them. -/
structure Shared where
  ctl : Controller
  /-- How many sessions of an address were put into the table. -/
  made : UInt32 → ℕ
  /-- How many modifications the last of them has counted. -/
  modified : UInt32 → ℕ

/-- Where a call stands: before its first lookup, before the one in `sw_session_new`, before the
insert, before `sw_acct_submit`, or at its end, with `false` for `-1`. -/
inductive CallPc
  | find | findAgain | make
  | submit (type : AcctType)
  | done (ok : Bool)
  deriving DecidableEq, Repr

namespace CallPc

/-- The call has not come to its session yet. -/
def waits : CallPc → Bool
  | .find | .findAgain | .make => true
  | .submit _ | .done _ => false

/-- The call has done what it was to do to its session. -/
def worked : CallPc → Bool
  | .submit _ | .done true => true
  | .find | .findAgain | .make | .done false => false

theorem waits_of_worked {pc : CallPc} (h : pc.worked = true) : pc.waits = false := by
  cases pc with
  | find | findAgain | make => cases h
  | submit | done => rfl

theorem worked_of_waits {pc : CallPc} (h : pc.waits = true) : pc.worked = false := by
  cases pc with
  | find | findAgain | make => rfl
  | submit | done => cases h

end CallPc

/-- The calls that open a session where there is none. -/
inductive Call
  | start (filterName : String) (interimInterval : ℤ) (sessionContext eventContext : String)
  | stop (filterName : Option String) (terminationCause : TermCause)
    (sessionContext eventContext : String)
  | status
  | getFilterId

namespace Shared

/-- Nothing has happened yet. -/
def init : Shared := ⟨.init, fun _ => 0, fun _ => 0⟩

/-- The session of an address. -/
abbrev session (m : Shared) (ip : UInt32) : Option SessionEntry := m.ctl.sessions.retrieve ip

/-- A session of the address was put into the table. -/
def remade (m : Shared) (ip : UInt32) (ctl : Controller) : Shared where
  ctl := ctl
  made := Function.update m.made ip (m.made ip + 1)
  modified := Function.update m.modified ip 0

end Shared

namespace Controller

variable (cfg : Config)

/-! ## With the lock held -/

/-- `sw_session_new` after both lookups have missed; the lock is held from the insert on.  `none`
is `-1`. -/
def sessionMake (now : ℤ) (m : Shared) (ip : UInt32) : Shared × Option SessionEntry :=
  if checkIp cfg.userNetworks ip = 0 then (m, none)
  else
    match filterGetId cfg.filters cfg.filterAnonymous with
    | none => (m, none)
    | some filterId =>
      let e := freshSession ip filterId now
      let s := { m.ctl with sessions := m.ctl.sessions.insert e }
      let (endpoints, opened) := endpointOpen cfg s ip
      let s := { s with endpoints }
      if opened then
        let (sessionId, sourceSessionId) := nextSessionId s.sourceSessionId
        let e := { e with sessionId }
        (m.remade ip { s with sessions := s.sessions.insert e, sourceSessionId }, some e)
      else (m.remade ip (sessionDel cfg s ip), none)

/-- `sw_session_start` until it releases the lock. -/
def startLocked (now : ℤ) (s : Controller) (e : SessionEntry) (filterName : String)
    (interimInterval : ℤ) (sessionContext : String) : Controller × CallPc :=
  match startFilterId cfg filterName with
  | none => (s, .done false)
  | some filterId =>
    let interimInterval := if interimInterval = 0 then cfg.acctInterimInterval else interimInterval
    let e := startedSession now e filterId interimInterval sessionContext
    if e.state = .captured then
      let e := { e with state := .released, interim := now + interimInterval }
      ({ s with sessions := s.sessions.insert e, ledger := s.ledger.release e.ip }, .submit .start)
    else ({ s with sessions := s.sessions.insert e }, .done true)

/-- `sw_session_stop` until it releases the lock.  Only a session that its own lookup has `found` is
captured, not one that `sw_session_new` comes with. -/
def stopLocked (now : ℤ) (s : Controller) (e : SessionEntry) (found : Bool)
    (filterName : Option String) (terminationCause : TermCause) (sessionContext : String) :
    Controller × CallPc :=
  let (e, sourceSessionId, pc) :=
    if found = true ∧ e.state = .released then
      let (sessionId, sourceSessionId) := nextSessionId s.sourceSessionId
      ({ e with state := .captured, terminationCause, sessionId }, sourceSessionId,
        CallPc.submit (stopType terminationCause))
    else (e, s.sourceSessionId, .done true)
  let s := { s with sourceSessionId }
  let (name, dnFilterName) := stopFilterName cfg filterName e.dnFilterName
  let e := { e with dnFilterName }
  match filterGetId cfg.filters name with
  | none => ({ s with sessions := s.sessions.insert e }, .done false)
  | some filterId =>
    let e :=
      { e with
        filterId := some filterId
        sessionContext := if sessionContext ≠ "" then some sessionContext else e.sessionContext
        deathday := now + e.retention }
    ({ s with sessions := s.sessions.insert e }, pc)

end Controller

open Controller

namespace Call

/-- The event context of the record a call submits. -/
def eventContext : Call → String
  | .start _ _ _ eventContext | .stop _ _ _ eventContext => eventContext
  | .status | .getFilterId => ""

section Advance

variable (cfg : Config) (now : ℤ)

/-- The work on the session `e`, which the first lookup of the call has `found` or not.  A filter id
is given only for one it has found. -/
def locked (s : Controller) (e : SessionEntry) (found : Bool) : Call → Controller × CallPc
  | .start filterName interimInterval sessionContext _ =>
    startLocked cfg now s e filterName interimInterval sessionContext
  | .stop filterName terminationCause sessionContext _ =>
    stopLocked cfg now s e found filterName terminationCause sessionContext
  | .status => (s, .done (filterGetName cfg.filters e.filterId).isSome)
  | .getFilterId => (s, .done found)

/-- The work on `e`, with what the threads share. -/
def work (m : Shared) (e : SessionEntry) (found : Bool) (c : Call) : Shared × CallPc :=
  ({ m with ctl := (c.locked cfg now m.ctl e found).1 }, (c.locked cfg now m.ctl e found).2)

/-- One lock-held section of a call for an address. -/
def advance (m : Shared) (ip : UInt32) (c : Call) : CallPc → Shared × CallPc
  | .find =>
    match m.session ip with
    | some e => c.work cfg now m e true
    | none => (m, .findAgain)
  | .findAgain =>
    match m.session ip with
    | some e => c.work cfg now m e false
    | none => (m, .make)
  | .make =>
    match sessionMake cfg now m ip with
    | (m, some e) => c.work cfg now m e false
    | (m, none) => (m, .done false)
  | .submit type =>
    ({ m with ctl := m.ctl.acctSubmit ip type c.eventContext now }, .done true)
  | .done ok => (m, .done ok)

end Advance

/-- The work of a call and the record it submits, as one operation. -/
def performFound (cfg : Config) (now : ℤ) (s : Controller) (e : SessionEntry) (found : Bool) :
    Call → Controller × Bool
  | .start filterName interimInterval sessionContext eventContext =>
    startFound cfg now s e filterName interimInterval sessionContext eventContext
  | .stop filterName terminationCause sessionContext eventContext =>
    stopFound cfg now s e filterName terminationCause sessionContext eventContext
  | .status => (s, (filterGetName cfg.filters e.filterId).isSome)
  | .getFilterId => (s, found)

/-- The call as one operation. -/
def perform (cfg : Config) (now : ℤ) (s : Controller) (ip : UInt32) : Call → Controller × Bool
  | .start filterName interimInterval sessionContext eventContext =>
    sessionStart cfg now s ip filterName interimInterval sessionContext eventContext
  | .stop filterName terminationCause sessionContext eventContext =>
    sessionStop cfg now s ip filterName terminationCause sessionContext eventContext
  | .status => ((sessionStatus cfg now s ip).1, (sessionStatus cfg now s ip).2.isSome)
  | .getFilterId =>
    ((sessionGetFilterId cfg now s ip).1, (sessionGetFilterId cfg now s ip).2.isSome)

end Call

variable {cfg : Config} {now : ℤ} {m : Shared} {ip : UInt32} {c : Call}

/-! ## What is put into the table -/

/-- The session of one address is put into the table. -/
theorem retrieve_put {s s' : Controller} {e : SessionEntry}
    (h : s'.sessions = s.sessions.insert e) (hip : e.ip = ip) (ip' : UInt32) :
    s'.sessions.retrieve ip' = if ip' = ip then some e else s.sessions.retrieve ip' := by
  rw [h, retrieve_insert, hip]
  by_cases hne : ip' = ip
  · rw [if_pos hne, if_pos hne.symm]
  · rw [if_neg hne, if_neg (Ne.symm hne)]

/-- What the work of a call does to the session table: nothing, or it changes `e`, but neither its
address nor its state id. -/
inductive Worked (s : Controller) (e : SessionEntry) (s' : Controller) : Prop
  | same (h : s'.sessions = s.sessions)
  | changed {e' : SessionEntry} (h : s'.sessions = s.sessions.insert e') (hip : e'.ip = e.ip)
    (hstateid : e'.stateid = e.stateid)

/-- What the work of a start can be: nothing, or the session is released. -/
inductive StartWork (cfg : Config) (s : Controller) (e : SessionEntry)
    (filterName sessionContext : String) : Controller × CallPc → Prop
  | unknown (hfilter : startFilterId cfg filterName = none) :
    StartWork cfg s e filterName sessionContext (s, .done false)
  | set {s' : Controller} {pc : CallPc} {e' : SessionEntry}
    (hs : s'.sessions = s.sessions.insert e') (hip : e'.ip = e.ip)
    (hstateid : e'.stateid = e.stateid) (hstate : e'.state = .released)
    (hfilter : startFilterId cfg filterName = some e'.filterId)
    (hcontext : e'.sessionContext =
      if sessionContext ≠ "" then some sessionContext else e.sessionContext)
    (hpc : pc.worked = true) : StartWork cfg s e filterName sessionContext (s', pc)

theorem startLocked_work (now : ℤ) (s : Controller) (e : SessionEntry) (filterName : String)
    (interimInterval : ℤ) (sessionContext : String) :
    StartWork cfg s e filterName sessionContext
      (startLocked cfg now s e filterName interimInterval sessionContext) := by
  unfold startLocked
  cases hfilter : startFilterId cfg filterName with
  | none => exact .unknown hfilter
  | some filterId =>
    generalize (if interimInterval = 0 then cfg.acctInterimInterval else interimInterval) = interval
    have hstarted : (startedSession now e filterId interval sessionContext).state = e.state := rfl
    simp only [hstarted]
    cases hstate : e.state with
    | captured =>
      simp only [if_true]
      exact .set rfl rfl rfl rfl hfilter rfl rfl
    | released =>
      simp only [reduceCtorEq, if_false]
      exact .set rfl rfl rfl hstate hfilter rfl rfl

/-- What the work of a stop can be: the filter is not loaded, or the session is under it. -/
inductive StopWork (cfg : Config) (s : Controller) (e : SessionEntry) (found : Bool)
    (filterName : Option String) (sessionContext : String) : Controller × CallPc → Prop
  | unknown {s' : Controller} {e' : SessionEntry} (hs : s'.sessions = s.sessions.insert e')
    (hip : e'.ip = e.ip) (hstateid : e'.stateid = e.stateid)
    (hfilter : filterGetId cfg.filters (stopFilterName cfg filterName e.dnFilterName).1 = none) :
    StopWork cfg s e found filterName sessionContext (s', .done false)
  | set {s' : Controller} {pc : CallPc} {e' : SessionEntry}
    (hs : s'.sessions = s.sessions.insert e') (hip : e'.ip = e.ip)
    (hstateid : e'.stateid = e.stateid)
    (hstate : found = true ∨ e.state = .captured → e'.state = .captured)
    (hfilter : (filterGetId cfg.filters (stopFilterName cfg filterName e.dnFilterName).1).map some =
      some e'.filterId)
    (hcontext : e'.sessionContext =
      if sessionContext ≠ "" then some sessionContext else e.sessionContext)
    (hpc : pc.worked = true) : StopWork cfg s e found filterName sessionContext (s', pc)

theorem stopLocked_work (now : ℤ) (s : Controller) (e : SessionEntry) (found : Bool)
    (filterName : Option String) (terminationCause : TermCause) (sessionContext : String) :
    StopWork cfg s e found filterName sessionContext
      (stopLocked cfg now s e found filterName terminationCause sessionContext) := by
  unfold stopLocked
  by_cases hreleased : found = true ∧ e.state = .released
  · simp only [if_pos hreleased]
    cases hfilter : filterGetId cfg.filters (stopFilterName cfg filterName e.dnFilterName).1 with
    | none => exact .unknown rfl rfl rfl hfilter
    | some filterId =>
      exact .set rfl rfl rfl (fun _ => rfl) (congrArg (Option.map some) hfilter) rfl rfl
  · simp only [if_neg hreleased]
    have hstate : found = true ∨ e.state = .captured → e.state = .captured := by
      rintro (hfound | hcaptured)
      · cases h : e.state with
        | captured => rfl
        | released => exact absurd ⟨hfound, h⟩ hreleased
      · exact hcaptured
    cases hfilter : filterGetId cfg.filters (stopFilterName cfg filterName e.dnFilterName).1 with
    | none => exact .unknown rfl rfl rfl hfilter
    | some filterId => exact .set rfl rfl rfl hstate (congrArg (Option.map some) hfilter) rfl rfl

/-- **The work of a call** changes no session but its own. -/
theorem locked_worked (s : Controller) (e : SessionEntry) (found : Bool) (c : Call) :
    Worked s e (c.locked cfg now s e found).1 := by
  cases c with
  | start filterName interimInterval sessionContext eventContext =>
    have hwork := @startLocked_work cfg now s e filterName interimInterval sessionContext
    simp only [Call.locked]
    generalize startLocked cfg now s e filterName interimInterval sessionContext = r at hwork ⊢
    cases hwork with
    | unknown hfilter => exact .same rfl
    | set hs hip hstateid => exact .changed hs hip hstateid
  | stop filterName terminationCause sessionContext eventContext =>
    have hwork := @stopLocked_work cfg now s e found filterName terminationCause sessionContext
    simp only [Call.locked]
    generalize stopLocked cfg now s e found filterName terminationCause sessionContext = r
      at hwork ⊢
    cases hwork with
    | unknown hs hip hstateid => exact .changed hs hip hstateid
    | set hs hip hstateid => exact .changed hs hip hstateid
  | status => exact .same rfl
  | getFilterId => exact .same rfl

/-- What the insert of a call does: nothing, if no session may be made for the address; or it makes
one, which stays or is taken back. -/
inductive Made (cfg : Config) (now : ℤ) (m : Shared) (ip : UInt32) :
    Shared × Option SessionEntry → Prop
  | barred (h : checkIp cfg.userNetworks ip = 0 ∨
      filterGetId cfg.filters cfg.filterAnonymous = none) : Made cfg now m ip (m, none)
  | kept {s : Controller} {e : SessionEntry} {filterId : FilterSlot}
    (hnet : checkIp cfg.userNetworks ip ≠ 0)
    (hfilter : filterGetId cfg.filters cfg.filterAnonymous = some filterId)
    (he : e = { freshSession ip filterId now with
      sessionId := (nextSessionId m.ctl.sourceSessionId).1 })
    (hs : ∀ ip', s.sessions.retrieve ip' = if ip' = ip then some e else m.session ip') :
    Made cfg now m ip (m.remade ip s, some e)
  | dropped {s : Controller}
    (hs : ∀ ip', s.sessions.retrieve ip' = if ip' = ip then none else m.session ip') :
    Made cfg now m ip (m.remade ip s, none)

theorem sessionMake_made (now : ℤ) (m : Shared) (ip : UInt32) :
    Made cfg now m ip (sessionMake cfg now m ip) := by
  unfold sessionMake
  by_cases hnet : checkIp cfg.userNetworks ip = 0
  · rw [if_pos hnet]
    exact .barred (Or.inl hnet)
  · simp only [if_neg hnet]
    cases hfilter : filterGetId cfg.filters cfg.filterAnonymous with
    | none => exact .barred (Or.inr hfilter)
    | some filterId =>
      simp only []
      split
      · refine .kept hnet hfilter rfl ?_
        intro ip'
        simp only [retrieve_insert]
        by_cases hip : ip' = ip
        · simp [freshSession, hip]
        · simp [freshSession, hip, Ne.symm hip]
      · refine .dropped ?_
        intro ip'
        have hfound : (m.ctl.sessions.insert (freshSession ip filterId now)).retrieve ip =
            some (freshSession ip filterId now) := by
          rw [retrieve_insert]
          exact if_pos rfl
        simp only [sessionDel, hfound, retrieve_delete, retrieve_insert]
        by_cases hip : ip' = ip
        · simp [hip]
        · simp [freshSession, hip, Ne.symm hip]

/-! ## One section -/

/-- What a section of a call does: it misses, or works on the session it has found or made, or comes
back without one, or submits a record, or there is nothing left to do. -/
inductive Advanced (cfg : Config) (now : ℤ) (m : Shared) (ip : UInt32) (c : Call) :
    CallPc → Shared × CallPc → Prop
  | missed (h : m.session ip = none) : Advanced cfg now m ip c .find (m, .findAgain)
  | missedAgain (h : m.session ip = none) : Advanced cfg now m ip c .findAgain (m, .make)
  | found {e : SessionEntry} (h : m.session ip = some e) :
    Advanced cfg now m ip c .find (c.work cfg now m e true)
  | foundAgain {e : SessionEntry} (h : m.session ip = some e) :
    Advanced cfg now m ip c .findAgain (c.work cfg now m e false)
  | made {m' : Shared} {e : SessionEntry} (h : sessionMake cfg now m ip = (m', some e)) :
    Advanced cfg now m ip c .make (c.work cfg now m' e false)
  | refused {m' : Shared} (h : sessionMake cfg now m ip = (m', none)) :
    Advanced cfg now m ip c .make (m', .done false)
  | submitted (type : AcctType) : Advanced cfg now m ip c (.submit type)
      ({ m with ctl := m.ctl.acctSubmit ip type c.eventContext now }, .done true)
  | rest (ok : Bool) : Advanced cfg now m ip c (.done ok) (m, .done ok)

theorem advance_advanced (now : ℤ) (m : Shared) (ip : UInt32) (c : Call) (pc : CallPc) :
    Advanced cfg now m ip c pc (c.advance cfg now m ip pc) := by
  cases pc with
  | find =>
    simp only [Call.advance]
    cases h : m.session ip with
    | none => exact .missed h
    | some e => exact .found h
  | findAgain =>
    simp only [Call.advance]
    cases h : m.session ip with
    | none => exact .missedAgain h
    | some e => exact .foundAgain h
  | make =>
    simp only [Call.advance]
    cases h : sessionMake cfg now m ip with
    | mk m' found =>
      cases found with
      | none => exact .refused h
      | some e => exact .made h
  | submit type => exact .submitted type
  | done ok => exact .rest ok

/-! ## A call that is not interrupted -/

/-- Sections of one call, with no other thread between them. -/
abbrev Alone (cfg : Config) (now : ℤ) (ip : UInt32) (c : Call) :
    Shared × CallPc → Shared × CallPc → Prop :=
  Relation.ReflTransGen fun p q => q = c.advance cfg now p.1 ip p.2

/-- The work of a call that has found its session, or comes with a captured one. -/
theorem work_alone (m : Shared) {e : SessionEntry} (he : e.ip = ip) {found : Bool}
    (hfound : found = true ∨ e.state = .captured) (c : Call) :
    ∃ m', Alone cfg now ip c (c.work cfg now m e found)
        (m', .done (c.performFound cfg now m.ctl e found).2) ∧
      m'.ctl = (c.performFound cfg now m.ctl e found).1 := by
  subst he
  cases c with
  | start filterName interimInterval sessionContext eventContext =>
    simp only [Call.work, Call.locked, Call.performFound, startLocked, startFound]
    cases hfilter : startFilterId cfg filterName with
    | none => exact ⟨m, .refl, rfl⟩
    | some filterId =>
      generalize (if interimInterval = 0 then cfg.acctInterimInterval else interimInterval) =
        interval
      simp only []
      split
      · exact ⟨_, .single rfl, rfl⟩
      · exact ⟨_, .refl, rfl⟩
  | stop filterName terminationCause sessionContext eventContext =>
    simp only [Call.work, Call.locked, Call.performFound, stopLocked, stopFound]
    cases hstate : e.state with
    | captured =>
      simp only [reduceCtorEq, and_false, if_false]
      cases hfilter : filterGetId cfg.filters (stopFilterName cfg filterName e.dnFilterName).1 with
      | none => exact ⟨_, .refl, rfl⟩
      | some filterId => exact ⟨_, .refl, rfl⟩
    | released =>
      have hfound' : found = true := by
        rcases hfound with h | h
        · exact h
        · rw [hstate] at h
          cases h
      simp only [hfound', and_self, if_true]
      cases hfilter : filterGetId cfg.filters (stopFilterName cfg filterName e.dnFilterName).1 with
      | none => exact ⟨_, .refl, rfl⟩
      | some filterId => exact ⟨_, .single rfl, rfl⟩
  | status => exact ⟨m, .refl, rfl⟩
  | getFilterId => exact ⟨m, .refl, rfl⟩

/-- Opening a session where there is none. -/
theorem sessionNew_eq_make (h : m.session ip = none) :
    sessionNew cfg now m.ctl ip =
      ((sessionMake cfg now m ip).1.ctl, (sessionMake cfg now m ip).2) := by
  have hnone : m.ctl.sessions.retrieve ip = none := h
  unfold sessionNew sessionMake
  rw [hnone]
  by_cases hnet : checkIp cfg.userNetworks ip = 0
  · simp only [if_pos hnet]
  · simp only [if_neg hnet]
    cases hfilter : filterGetId cfg.filters cfg.filterAnonymous with
    | none => rfl
    | some filterId =>
      simp only []
      split
      · rfl
      · rfl

/-- A call as one operation, from what `sw_session_new` comes with. -/
theorem perform_eq (s : Controller) (c : Call) :
    c.perform cfg now s ip =
      match sessionNew cfg now s ip with
      | (s', some e) => c.performFound cfg now s' e (s.sessions.retrieve ip).isSome
      | (s', none) => (s', false) := by
  cases c with
  | start filterName interimInterval sessionContext eventContext =>
    simp only [Call.perform, sessionStart]
    rcases sessionNew cfg now s ip with ⟨s', _ | e⟩ <;> rfl
  | stop filterName terminationCause sessionContext eventContext =>
    simp only [Call.perform, sessionStop]
    rcases sessionNew cfg now s ip with ⟨s', _ | e⟩ <;> rfl
  | status =>
    simp only [Call.perform, sessionStatus]
    rcases sessionNew cfg now s ip with ⟨s', _ | e⟩
    · rfl
    · simp [Call.performFound]
  | getFilterId =>
    simp only [Call.perform, sessionGetFilterId]
    cases h : s.sessions.retrieve ip with
    | some e =>
      rw [sessionNew, h]
      rfl
    | none => rcases sessionNew cfg now s ip with ⟨s', _ | e⟩ <;> rfl

/-- **A call that no other thread interrupts** does what it does as one operation. -/
theorem call_alone (now : ℤ) (m : Shared) (ip : UInt32) (c : Call) :
    ∃ m', Alone cfg now ip c (m, .find) (m', .done (c.perform cfg now m.ctl ip).2) ∧
      m'.ctl = (c.perform cfg now m.ctl ip).1 := by
  rw [perform_eq]
  cases h : m.session ip with
  | some e =>
    have hfind : c.advance cfg now m ip .find = c.work cfg now m e true := by
      simp only [Call.advance, h]
    have hfound : m.ctl.sessions.retrieve ip = some e := h
    have hnew : sessionNew cfg now m.ctl ip = (m.ctl, some e) := by
      rw [sessionNew, hfound]
    obtain ⟨m', hsteps, hctl⟩ := @work_alone cfg now ip m e (entry_key h) true (Or.inl rfl) c
    rw [hnew, hfound]
    exact ⟨m', .head hfind.symm hsteps, hctl⟩
  | none =>
    have hfind : c.advance cfg now m ip .find = (m, .findAgain) := by
      simp only [Call.advance, h]
    have hfindAgain : c.advance cfg now m ip .findAgain = (m, .make) := by
      simp only [Call.advance, h]
    have hnone : m.ctl.sessions.retrieve ip = none := h
    have hmissed : Alone cfg now ip c (m, .find) (m, .make) :=
      .tail (.single hfind.symm) hfindAgain.symm
    have hmade := @sessionMake_made cfg now m ip
    rw [sessionNew_eq_make h, hnone]
    cases hmake : sessionMake cfg now m ip with
    | mk m₁ made =>
      rw [hmake] at hmade
      cases made with
      | none =>
        have hlast : c.advance cfg now m ip .make = (m₁, .done false) := by
          simp only [Call.advance, hmake]
        exact ⟨m₁, hmissed.tail hlast.symm, rfl⟩
      | some e =>
        have hlast : c.advance cfg now m ip .make = c.work cfg now m₁ e false := by
          simp only [Call.advance, hmake]
        have hfresh : e.ip = ip ∧ e.state = .captured := by
          cases hmade with
          | kept hnet hfilter he hs => exact ⟨by rw [he]; rfl, by rw [he]; rfl⟩
        obtain ⟨m', hsteps, hctl⟩ := @work_alone cfg now ip m₁ e hfresh.1 false
          (Or.inr hfresh.2) c
        exact ⟨m', (hmissed.tail hlast.symm).trans hsteps, hctl⟩

end Sweetspot
