import Sweetspot.Lib.Trail
import Sweetspot.Session.System

/-!
# Session timers

A captured session is closed when it was left alone for its retention time, and a released one is
asked for an interim record at every interval.  Both deadlines are stored with the time already
added, and a new retention time or a new interval moves them by the difference.

* `SessionTimes`: the fields that decide, and what each call does to them.
* `timerCall`: the call of the session module that an event makes for an address, with its success.
* `exec_times`: an event does to the times of a session what its call does.
* `SessionTimes.Positive`: neither deadline is ever 0, which the code takes for none.
* `times_captured`, `times_released`: the deadlines in terms of what happened last, in every run.
* `sessionExpire_timers`: what a pass does to a session, in these terms.
-/

namespace Sweetspot

/-! ## The times of a session -/

/-- The fields of a session that its timers depend on. -/
@[ext] structure SessionTimes where
  state : SessionState
  deathday : ℤ
  retention : ℤ
  interim : ℤ
  interimInterval : ℤ
  deriving DecidableEq

def SessionEntry.times (e : SessionEntry) : SessionTimes :=
  ⟨e.state, e.deathday, e.retention, e.interim, e.interimInterval⟩

/-- A call of the session module for an address, as far as it got: a start and a new retention time
count only if they succeed, and a pass only if it submits a record. -/
inductive TimerCall
  | nothing
  | start (interval : ℤ)
  | stop (ok : Bool)
  | retention (retention : ℤ)
  | interim
  deriving DecidableEq

namespace SessionTimes

/-- Those of a session just opened. -/
def fresh (now : ℤ) : SessionTimes :=
  ⟨.captured, now + SW_SESSION_DEFAULT_RETENTION, SW_SESSION_DEFAULT_RETENTION, 0, 0⟩

/-- What a call does to them. -/
def after (t : SessionTimes) (now : ℤ) : TimerCall → SessionTimes
  | .nothing => t
  | .start interval =>
    { t with
      state := .released
      interim :=
        if t.state = .captured then now + interval
        else if t.interim ≠ 0 then t.interim + (interval - t.interimInterval)
        else now + interval
      interimInterval := interval }
  | .stop ok =>
    { t with
      state := .captured
      deathday := if ok then now + t.retention else t.deathday }
  | .retention retention =>
    { t with
      deathday := if t.deathday ≠ 0 then t.deathday + (retention - t.retention) else t.deathday
      retention }
  | .interim => { t with interim := now + t.interimInterval }

/-- The time since which a captured session was left alone, and the one at which a released one was
last accounted, are past 0, and so are the retention time and the interval. -/
structure Positive (t : SessionTimes) : Prop where
  retention : 0 < t.retention
  base : 0 < t.deathday - t.retention
  interval : t.state = .released → 0 < t.interimInterval
  tick : t.state = .released → 0 < t.interim - t.interimInterval

theorem positive_fresh {now : ℤ} (hnow : 0 < now) : (fresh now).Positive := by
  have hretention : 0 < SW_SESSION_DEFAULT_RETENTION := by decide
  refine ⟨hretention, ?_, by rintro ⟨⟩, by rintro ⟨⟩⟩
  simpa [fresh] using hnow

/-- The times a call brings in are past 0. -/
def CallPositive (now : ℤ) : TimerCall → Prop
  | .start interval => 0 < now ∧ 0 < interval
  | .retention retention => 0 < retention
  | .stop _ | .interim => 0 < now
  | .nothing => True

/-- **No call makes a deadline 0.** -/
theorem Positive.after {t : SessionTimes} (h : t.Positive) {now : ℤ} {call : TimerCall}
    (hcall : CallPositive now call) : (t.after now call).Positive := by
  obtain ⟨hretention, hbase, hinterval, htick⟩ := h
  cases call with
  | nothing => exact ⟨hretention, hbase, hinterval, htick⟩
  | start interval =>
    obtain ⟨hnow, hpos⟩ := hcall
    refine ⟨hretention, hbase, fun _ => hpos, fun _ => ?_⟩
    show 0 < (if t.state = .captured then now + interval
      else if t.interim ≠ 0 then t.interim + (interval - t.interimInterval)
      else now + interval) - interval
    cases hstate : t.state with
    | captured => simpa using hnow
    | released =>
      have htick := htick hstate
      simp only [reduceCtorEq, if_false]
      split <;> omega
  | stop ok =>
    refine ⟨hretention, ?_, by rintro ⟨⟩, by rintro ⟨⟩⟩
    show 0 < (if ok then now + t.retention else t.deathday) - t.retention
    cases ok with
    | false => exact hbase
    | true =>
      have hnow : 0 < now := hcall
      simpa using hnow
  | retention retention =>
    have hdeathday : t.deathday ≠ 0 := by omega
    refine ⟨hcall, ?_, hinterval, htick⟩
    show 0 < (if t.deathday ≠ 0 then t.deathday + (retention - t.retention)
      else t.deathday) - retention
    rw [if_pos hdeathday]
    omega
  | interim =>
    refine ⟨hretention, hbase, hinterval, fun _ => ?_⟩
    have hnow : 0 < now := hcall
    show 0 < now + t.interimInterval - t.interimInterval
    simpa using hnow

/-! ### What the deadlines stand for -/

variable (t : SessionTimes) (now : ℤ)

/-- The time since which a session was left alone. -/
def base : ℤ := t.deathday - t.retention

/-- The time at which it was last accounted. -/
def tick : ℤ := t.interim - t.interimInterval

variable {t now} {call : TimerCall}

/-- Only a successful stop changes the one. -/
theorem base_after (h : t.Positive) :
    (t.after now call).base = if call = .stop true then now else t.base := by
  have hdeathday : t.deathday ≠ 0 := by
    have hretention := h.retention
    have hbase := h.base
    omega
  cases call with
  | nothing | interim | start interval => rfl
  | stop ok =>
    cases ok with
    | false => rfl
    | true => simp [after, base]
  | retention retention =>
    simp only [after, base, if_pos hdeathday, reduceCtorEq, if_false]
    omega

/-- Only a release and an interim record change the other. -/
theorem tick_after (h : t.Positive) (hreleased : (t.after now call).state = .released) :
    (t.after now call).tick =
      if call = .interim ∨ t.state = .captured then now else t.tick := by
  cases call with
  | nothing | retention =>
    have hstate : t.state = .released := hreleased
    simp [after, tick, hstate]
  | start interval =>
    cases hstate : t.state with
    | captured => simp [after, tick, hstate]
    | released =>
      have hinterim : t.interim ≠ 0 := by
        have hinterval := h.interval hstate
        have htick := h.tick hstate
        omega
      simp only [after, tick, hstate, if_pos hinterim, reduceCtorEq, if_false, or_self]
      omega
  | stop ok => cases hreleased
  | interim => simp [after, tick]

end SessionTimes

/-! ## Calls -/

namespace Controller

/-- The entry of an address, or the one it would be opened with. -/
def openingTimes (now : ℤ) (s : Controller) (ip : UInt32) : SessionTimes :=
  (s.sessions.retrieve ip).elim (.fresh now) SessionEntry.times

/-- The operations of the session module by themselves; the passes over the queue may come between
them. -/
def IsSessionCall : Op → Prop
  | .up .. | .down .. | .account .. | .expireGauge _ => False
  | _ => True

/-- The interval a start asks for. -/
def effectiveInterval (cfg : Config) (interimInterval : ℤ) : ℤ :=
  if interimInterval = 0 then cfg.acctInterimInterval else interimInterval

/-- The session of the address is due for an interim record. -/
def interimDue (now : ℤ) (s : Controller) (ip : UInt32) : Bool :=
  (s.sessions.retrieve ip).any fun e => e.state = .released && e.interim < now

/-- The call that an event makes for an address. -/
def timerCall (cfg : Config) (ip : UInt32) (s : Controller) (ev : Event) : TimerCall :=
  if ev.op.ip = some ip then
    match ev.op with
    | .start ip' filterName interimInterval sessionContext eventContext =>
      if (sessionStart cfg ev.now s ip' filterName interimInterval sessionContext eventContext).2
      then .start (effectiveInterval cfg interimInterval)
      else .nothing
    | .stop ip' filterName terminationCause sessionContext eventContext =>
      .stop (sessionStop cfg ev.now s ip' filterName terminationCause sessionContext eventContext).2
    | .retention ip' stateid retention =>
      if (uamRetention s ip' stateid retention).2 ∧ 0 < retention then .retention retention
      else .nothing
    | .expireSession ip' => if interimDue ev.now s ip' then .interim else .nothing
    | _ => .nothing
  else .nothing

section Entries

variable {cfg : Config} {now : ℤ} {s : Controller} {ip ip' : UInt32} {e e' : SessionEntry}

theorem openingTimes_of_some (h : s.sessions.retrieve ip = some e) :
    openingTimes now s ip = e.times := by
  rw [openingTimes, h, Option.elim_some]

/-- `sw_session_new` returns the session of the address. -/
theorem sessionNew_found (h : (sessionNew cfg now s ip).2 = some e) :
    e.ip = ip ∧ e.times = openingTimes now s ip := by
  have hnew := @sessionNew_outcome cfg now s ip
  generalize sessionNew cfg now s ip = r at hnew h
  cases hnew with
  | found hs =>
    obtain rfl := Option.some.inj h
    exact ⟨entry_key hs, (openingTimes_of_some hs).symm⟩
  | opened hs hfilter he hview hsource hchain hledger =>
    obtain rfl := Option.some.inj h
    refine ⟨by rw [he]; rfl, ?_⟩
    rw [openingTimes, hs, Option.elim_none, he]
    rfl
  | refused hs hview hsource hchain hledger => cases h

/-- After `sw_session_new` the sessions there are have the times they had, or those of a new
one. -/
theorem times_sessionNew (h : (sessionNew cfg now s ip).1.sessions.retrieve ip' = some e') :
    e'.times = openingTimes now s ip' := by
  have hnew := @sessionNew_outcome cfg now s ip
  generalize sessionNew cfg now s ip = r at hnew h
  cases hnew with
  | found hs => exact (openingTimes_of_some h).symm
  | @opened s' e filterId hs hfilter he hview hsource hchain hledger =>
    by_cases hip : ip' = ip
    · subst hip
      have hself : (s'.view ip').session = some e' := h
      rw [hview.self] at hself
      obtain rfl := Option.some.inj hself
      rw [openingTimes, hs, Option.elim_none, he]
      rfl
    · have hother : (s'.view ip').session = some e' := h
      rw [hview.other hip] at hother
      exact (openingTimes_of_some hother).symm
  | @refused s' shape hs hview hsource hchain hledger =>
    have hsession : (s'.view ip').session = (s.view ip').session := by
      by_cases hip : ip' = ip
      · rw [hip, hview.self]
      · rw [hview.other hip]
    exact (openingTimes_of_some (hsession.symm.trans h)).symm

theorem stopFound_sessions (now : ℤ) (s : Controller) (e : SessionEntry)
    (filterName : Option String) (terminationCause : TermCause)
    (sessionContext eventContext : String) :
    ∃ e', (stopFound cfg now s e filterName terminationCause sessionContext
        eventContext).1.sessions = s.sessions.insert e' ∧ e'.ip = e.ip ∧
      e'.times = e.times.after now (.stop
        (stopFound cfg now s e filterName terminationCause sessionContext eventContext).2) := by
  unfold stopFound
  cases hstate : e.state with
  | captured =>
    simp only [reduceCtorEq, if_false]
    split
    · exact ⟨_, rfl, rfl, by simp [SessionEntry.times, SessionTimes.after, hstate]⟩
    · exact ⟨_, rfl, rfl, by simp [SessionEntry.times, SessionTimes.after, hstate]⟩
  | released =>
    simp only [if_true]
    split
    · exact ⟨_, rfl, rfl, by simp [SessionEntry.times, SessionTimes.after]⟩
    · exact ⟨_, rfl, rfl, by simp [SessionEntry.times, SessionTimes.after]⟩

theorem startFound_sessions (now : ℤ) (s : Controller) (e : SessionEntry) (filterName : String)
    (interimInterval : ℤ) (sessionContext eventContext : String) :
    let r := startFound cfg now s e filterName interimInterval sessionContext eventContext
    (r.2 = false ∧ r.1.sessions = s.sessions) ∨
    (r.2 = true ∧ ∃ e', r.1.sessions = s.sessions.insert e' ∧ e'.ip = e.ip ∧
      e'.times = e.times.after now (.start (effectiveInterval cfg interimInterval))) := by
  unfold startFound
  cases hfilter : startFilterId cfg filterName with
  | none => exact .inl ⟨rfl, rfl⟩
  | some filterId =>
    cases hstate : e.state with
    | captured =>
      refine .inr ⟨?_, ?_⟩ <;> simp only [startedSession, hstate, if_true]
      refine ⟨_, rfl, rfl, ?_⟩
      simp [SessionEntry.times, SessionTimes.after, effectiveInterval, hstate]
    | released =>
      refine .inr ⟨?_, ?_⟩ <;> simp only [startedSession, hstate, reduceCtorEq, if_false]
      refine ⟨_, rfl, rfl, ?_⟩
      simp [SessionEntry.times, SessionTimes.after, effectiveInterval, hstate]

/-- The session put into the table, and the others. -/
theorem times_of_insert {s₁ s₂ : Controller} {call : TimerCall}
    (hs : s₂.sessions = s₁.sessions.insert e) (hip : e.ip = ip)
    (he : e.times = (openingTimes now s ip).after now call)
    (hothers : ∀ e', s₁.sessions.retrieve ip' = some e' → e'.times = openingTimes now s ip')
    (h : s₂.sessions.retrieve ip' = some e') :
    e'.times = (openingTimes now s ip').after now (if ip' = ip then call else .nothing) := by
  rw [hs, retrieve_insert, hip] at h
  by_cases hip' : ip' = ip
  · rw [if_pos hip'.symm] at h
    obtain rfl := Option.some.inj h
    rw [if_pos hip', he, hip']
  · rw [if_neg (Ne.symm hip')] at h
    rw [if_neg hip']
    exact hothers e' h

theorem times_sessionStop {filterName : Option String} {terminationCause : TermCause}
    {sessionContext eventContext : String}
    (h : (sessionStop cfg now s ip filterName terminationCause sessionContext
      eventContext).1.sessions.retrieve ip' = some e') :
    e'.times = (openingTimes now s ip').after now
      (if ip' = ip then .stop (sessionStop cfg now s ip filterName terminationCause sessionContext
        eventContext).2 else .nothing) := by
  have hothers := fun e' => @times_sessionNew cfg now s ip ip' e'
  have hfound := fun e => @sessionNew_found cfg now s ip e
  have hnone := @sessionNew_outcome cfg now s ip
  unfold sessionStop at h ⊢
  generalize sessionNew cfg now s ip = r at h hothers hfound hnone ⊢
  rcases r with ⟨s₁, _ | e⟩
  · -- nothing was opened, so there is no session to speak of
    by_cases hip : ip' = ip
    · cases hnone with
      | refused hs hview hsource hchain hledger =>
        have hself : (s₁.view ip').session = some e' := h
        rw [hip, hview.self] at hself
        exact absurd (hs.symm.trans hself) (by simp)
    · rw [if_neg hip]
      exact hothers e' h
  · obtain ⟨hip, htimes⟩ := hfound e rfl
    obtain ⟨e₁, hs₁, hip₁, htimes₁⟩ := @stopFound_sessions cfg now s₁ e filterName terminationCause
      sessionContext eventContext
    rw [htimes] at htimes₁
    exact times_of_insert hs₁ (hip₁.trans hip) htimes₁ hothers h

theorem times_sessionStart {filterName : String} {interimInterval : ℤ}
    {sessionContext eventContext : String}
    (h : (sessionStart cfg now s ip filterName interimInterval sessionContext
      eventContext).1.sessions.retrieve ip' = some e') :
    e'.times = (openingTimes now s ip').after now
      (if ip' = ip then
        if (sessionStart cfg now s ip filterName interimInterval sessionContext eventContext).2
        then .start (effectiveInterval cfg interimInterval) else .nothing
      else .nothing) := by
  have hothers := fun e' => @times_sessionNew cfg now s ip ip' e'
  have hfound := fun e => @sessionNew_found cfg now s ip e
  unfold sessionStart at h ⊢
  generalize sessionNew cfg now s ip = r at h hothers hfound ⊢
  rcases r with ⟨s₁, _ | e⟩
  · simp only [Bool.false_eq_true, if_false, ite_self]
    exact hothers e' h
  · obtain ⟨hip, htimes⟩ := hfound e rfl
    have hstart := @startFound_sessions cfg now s₁ e filterName interimInterval sessionContext
      eventContext
    dsimp only at hstart h ⊢
    rcases hstart with ⟨hresult, hs₁⟩ | ⟨hresult, e₁, hs₁, hip₁, htimes₁⟩
    · simp only [hresult, Bool.false_eq_true, if_false, ite_self]
      rw [hs₁] at h
      exact hothers e' h
    · rw [htimes] at htimes₁
      simp only [hresult, if_true]
      exact times_of_insert hs₁ (hip₁.trans hip) htimes₁ hothers h

theorem times_acquireStateid (h : (acquireStateid s ip).sessions.retrieve ip' = some e') :
    ∃ e, s.sessions.retrieve ip' = some e ∧ e'.times = e.times := by
  unfold acquireStateid at h
  cases hs : s.sessions.retrieve ip with
  | none =>
    rw [hs] at h
    exact ⟨e', h, rfl⟩
  | some e =>
    rw [hs] at h
    dsimp only at h
    generalize (if e.stateid = 0x7fffffff then 0 else e.stateid) + 1 = stateid at h
    rw [retrieve_insert] at h
    by_cases hip : e.ip = ip'
    · have hstored : some { e with stateid } = some e' := (if_pos hip).symm.trans h
      obtain rfl := Option.some.inj hstored
      exact ⟨e, hip ▸ entry_key hs ▸ hs, rfl⟩
    · exact ⟨e', (if_neg hip).symm.trans h, rfl⟩

theorem times_sessionRetention {retention : ℤ}
    (h : (sessionRetention s ip retention).1.sessions.retrieve ip' = some e') :
    e'.times = (openingTimes now s ip').after now
      (if ip' = ip then
        if (sessionRetention s ip retention).2 ∧ 0 < retention then .retention retention
        else .nothing
      else .nothing) := by
  have hothers : ∀ e', s.sessions.retrieve ip' = some e' → e'.times = openingTimes now s ip' :=
    fun e' he' => (openingTimes_of_some he').symm
  unfold sessionRetention at h ⊢
  cases hs : s.sessions.retrieve ip with
  | none =>
    rw [hs] at h
    simp only [Bool.false_eq_true, false_and, if_false, ite_self]
    exact hothers e' h
  | some e =>
    rw [hs] at h
    dsimp only at h ⊢
    by_cases hpos : 0 < retention
    · rw [if_pos hpos] at h
      simp only [gt_iff_lt, hpos, if_true, and_true]
      have hip : e.ip = ip := entry_key hs
      refine times_of_insert (e := { e with
        deathday := if e.deathday ≠ 0 then e.deathday + (retention - e.retention) else e.deathday
        retention }) rfl hip ?_ hothers h
      rw [openingTimes_of_some hs]
      rfl
    · rw [if_neg hpos] at h
      simp only [gt_iff_lt, hpos, if_false, and_false, ite_self]
      exact hothers e' h

theorem times_uamRetention {stateid retention : ℤ}
    (h : (uamRetention s ip stateid retention).1.sessions.retrieve ip' = some e') :
    e'.times = (openingTimes now s ip').after now
      (if ip' = ip then
        if (uamRetention s ip stateid retention).2 ∧ 0 < retention then .retention retention
        else .nothing
      else .nothing) := by
  have hretention := fun e' => @times_sessionRetention now s ip ip' e' retention
  unfold uamRetention at h ⊢
  by_cases hverify : verifyStateid s ip stateid = true
  · simp only [hverify, if_true] at h ⊢
    generalize sessionRetention s ip retention = r at h hretention ⊢
    rcases r with ⟨s₁, _ | _⟩
    · exact hretention e' h
    · obtain ⟨e, he, htimes⟩ := times_acquireStateid h
      rw [htimes]
      exact hretention e he
  · simp only [hverify, Bool.false_eq_true, if_false, false_and, ite_self] at h ⊢
    exact (openingTimes_of_some h).symm

theorem times_expireSessionCb (h : (expireSessionCb cfg now s ip).sessions.retrieve ip' = some e') :
    e'.times = (openingTimes now s ip').after now
      (if ip' = ip then if interimDue now s ip then .interim else .nothing else .nothing) := by
  have hothers : ∀ e', s.sessions.retrieve ip' = some e' → e'.times = openingTimes now s ip' :=
    fun e' he' => (openingTimes_of_some he').symm
  unfold expireSessionCb at h
  cases hs : s.sessions.retrieve ip with
  | none =>
    rw [hs] at h
    simp only [interimDue, hs, Option.any_none, Bool.false_eq_true, if_false, ite_self]
    exact hothers e' h
  | some e =>
    rw [hs] at h
    cases hstate : e.state with
    | captured =>
      have hkept : s.sessions.retrieve ip' = some e' := by
        simp only [hstate] at h
        split at h
        · rw [sessionDel, hs] at h
          dsimp only at h
          rw [retrieve_delete] at h
          split at h
          · cases h
          · exact h
        · exact h
      simp only [interimDue, hs, hstate, Option.any_some, reduceCtorEq, decide_false,
        Bool.false_and, Bool.false_eq_true, if_false, ite_self]
      exact hothers e' hkept
    | released =>
      simp only [hstate] at h
      by_cases hdue : e.interim < now
      · have hinterim : interimDue now s ip = true := by
          simp [interimDue, hs, hstate, hdue]
        rw [if_pos hdue] at h
        simp only [hinterim, if_true]
        have hip : e.ip = ip := entry_key hs
        refine times_of_insert (e := { e with
          state := .released
          interim := now + e.interimInterval }) rfl hip ?_ hothers h
        rw [openingTimes_of_some hs]
        simp [SessionEntry.times, SessionTimes.after, hstate]
      · have hinterim : interimDue now s ip = false := by
          simp [interimDue, hs, hdue]
        rw [if_neg hdue] at h
        simp only [hinterim, Bool.false_eq_true, if_false, ite_self]
        exact hothers e' h

/-- **An event does to the times of a session what its call does.** -/
theorem exec_times {ev : Event} (hcall : IsSessionCall ev.op)
    (h : (exec cfg s ev).sessions.retrieve ip = some e') :
    e'.times = (openingTimes ev.now s ip).after ev.now (timerCall cfg ip s ev) := by
  obtain ⟨now, op⟩ := ev
  -- the condition of `timerCall`, turned round
  have hturn : ∀ (ip' : UInt32) (call : TimerCall),
      (if some ip' = some ip then call else .nothing) = if ip = ip' then call else .nothing := by
    intro ip' call
    by_cases hip : ip = ip'
    · rw [if_pos hip, if_pos (congrArg some hip.symm)]
    · rw [if_neg hip, if_neg fun heq => hip (Option.some.inj heq).symm]
  cases op with
  | lookup ip' =>
    rw [exec_lookup] at h
    have htimes := times_sessionNew h
    unfold timerCall
    split <;> exact htimes
  | status ip' =>
    rw [exec_status] at h
    have htimes := times_sessionNew h
    unfold timerCall
    split <;> exact htimes
  | start ip' filterName interimInterval sessionContext eventContext =>
    rw [timerCall, Op.ip, hturn]
    exact times_sessionStart h
  | stop ip' filterName terminationCause sessionContext eventContext =>
    rw [timerCall, Op.ip, hturn]
    exact times_sessionStop h
  | retention ip' stateid retention =>
    rw [timerCall, Op.ip, hturn]
    exact times_uamRetention h
  | expireSession ip' =>
    rw [timerCall, Op.ip, hturn]
    exact times_expireSessionCb h
  | commit finalFlag accepts => exact (openingTimes_of_some h).symm
  | up ip' stateid filterName interimInterval max sessionContext eventContext => cases hcall
  | down ip' stateid filterName sessionContext eventContext => cases hcall
  | account ip' octets dir => cases hcall
  | expireGauge ip' => cases hcall

end Entries

/-! ## What happened last -/

section Marks

variable (cfg : Config) (ip : UInt32) (s : Controller) (ev : Event)

/-- The session of the address is opened. -/
def sessionOpened : Bool :=
  (s.sessions.retrieve ip).isNone && ((exec cfg s ev).sessions.retrieve ip).isSome

/-- The session of the address is there and released. -/
def isReleased : Bool := (s.sessions.retrieve ip).any fun e => e.state = .released

/-- The time, if the session is opened or a stop succeeds. -/
def baseMark : Option ℤ :=
  if sessionOpened cfg ip s ev ∨ timerCall cfg ip s ev = .stop true then some ev.now else none

/-- The retention time a session is opened with or given. -/
def retentionMark : Option ℤ :=
  match timerCall cfg ip s ev with
  | .retention retention => some retention
  | _ => if sessionOpened cfg ip s ev then some SW_SESSION_DEFAULT_RETENTION else none

/-- The interval a start puts in force. -/
def intervalMark : Option ℤ :=
  match timerCall cfg ip s ev with
  | .start interval => some interval
  | _ => none

/-- The time, if a start releases the session or an interim record is submitted. -/
def tickMark : Option ℤ :=
  match timerCall cfg ip s ev with
  | .start _ => if isReleased ip s then none else some ev.now
  | .interim => some ev.now
  | _ => none

end Marks

/-- A start asks for an interval past 0. -/
def AsksPositive (cfg : Config) : Op → Prop
  | .start _ _ interimInterval _ _ => 0 < effectiveInterval cfg interimInterval
  | _ => True

/-- A call of the session module on a clock past 0, with an interval past 0. -/
structure Timely (cfg : Config) (ev : Event) : Prop where
  call : IsSessionCall ev.op
  now : 0 < ev.now
  interval : AsksPositive cfg ev.op

/-- No deadline is 0. -/
def TimersPositive (s : Controller) : Prop :=
  ∀ ip e, s.sessions.retrieve ip = some e → e.times.Positive

section Runs

variable {cfg : Config} {s : Controller} {ip : UInt32} {ev : Event} {e : SessionEntry}

theorem callPositive_timerCall (hev : Timely cfg ev) :
    SessionTimes.CallPositive ev.now (timerCall cfg ip s ev) := by
  obtain ⟨now, op⟩ := ev
  obtain ⟨-, hnow, hinterval⟩ := hev
  unfold timerCall
  split
  · cases op with
    | start ip' filterName interimInterval sessionContext eventContext =>
      dsimp only
      split
      · exact ⟨hnow, hinterval⟩
      · trivial
    | retention ip' stateid retention =>
      dsimp only
      split
      · rename_i hserved
        exact hserved.2
      · trivial
    | expireSession ip' =>
      dsimp only
      split
      · exact hnow
      · trivial
    | stop ip' filterName terminationCause sessionContext eventContext => exact hnow
    | _ => trivial
  · trivial

theorem positive_openingTimes (hnow : 0 < ev.now) (hs : TimersPositive s) :
    (openingTimes ev.now s ip).Positive := by
  cases h : s.sessions.retrieve ip with
  | none =>
    rw [openingTimes, h, Option.elim_none]
    exact SessionTimes.positive_fresh hnow
  | some e =>
    rw [openingTimes_of_some h]
    exact hs ip e h

theorem timersPositive_exec (hev : Timely cfg ev) (hs : TimersPositive s) :
    TimersPositive (exec cfg s ev) := by
  intro ip e he
  rw [exec_times hev.call he]
  exact (positive_openingTimes hev.now hs).after (callPositive_timerCall hev)

/-- A session just opened, or one there before. -/
theorem sessionOpened_or (h : (exec cfg s ev).sessions.retrieve ip = some e) :
    (sessionOpened cfg ip s ev = true ∧ s.sessions.retrieve ip = none ∧
      openingTimes ev.now s ip = .fresh ev.now) ∨
    (sessionOpened cfg ip s ev = false ∧ ∃ e₀, s.sessions.retrieve ip = some e₀ ∧
      openingTimes ev.now s ip = e₀.times) := by
  cases hs : s.sessions.retrieve ip with
  | none => exact .inl ⟨by simp [sessionOpened, hs, h], rfl, by rw [openingTimes, hs]; rfl⟩
  | some e₀ => exact .inr ⟨by simp [sessionOpened, hs], e₀, rfl, openingTimes_of_some hs⟩

/-- **The deadline of a captured session**: the time it was opened at or stopped with success, and
the retention time it was given last. -/
theorem times_captured {evs : List Event} (hevs : ∀ ev ∈ evs, Timely cfg ev)
    (he : (evs.foldl (exec cfg) init).sessions.retrieve ip = some e) :
    latestMark (baseMark cfg ip) (trail (exec cfg) init evs) = some (e.deathday - e.retention) ∧
    latestMark (retentionMark cfg ip) (trail (exec cfg) init evs) = some e.retention := by
  have hinit : TimersPositive init := by
    rintro ip e ⟨⟩
  constructor
  · refine (latestMark_of_tracks (G := Timely cfg) (I := TimersPositive)
      (q := fun s => (s.sessions.retrieve ip).map fun e => e.times.base)
      (fun _ _ => timersPositive_exec) ?_ hinit rfl hevs).2 _ ?_
    · intro s ev v hev hs hv
      obtain ⟨e', he', rfl⟩ := Option.map_eq_some_iff.1 hv
      rw [exec_times hev.call he', SessionTimes.base_after (positive_openingTimes hev.now hs),
        baseMark]
      rcases sessionOpened_or he' with ⟨hopened, hnone, hopening⟩ | ⟨hopened, e₀, he₀, hopening⟩
      · simp [hopened, hopening, SessionTimes.base, SessionTimes.fresh]
      · by_cases hstop : timerCall cfg ip s ev = .stop true
        · simp [hstop]
        · simp [hstop, hopened, he₀, hopening]
    · rw [he]
      rfl
  · refine (latestMark_of_tracks (G := Timely cfg) (I := TimersPositive)
      (q := fun s => (s.sessions.retrieve ip).map fun e => e.times.retention)
      (fun _ _ => timersPositive_exec) ?_ hinit rfl hevs).2 _ ?_
    · intro s ev v hev hs hv
      obtain ⟨e', he', rfl⟩ := Option.map_eq_some_iff.1 hv
      rw [exec_times hev.call he', retentionMark]
      rcases sessionOpened_or he' with ⟨hopened, hnone, hopening⟩ | ⟨hopened, e₀, he₀, hopening⟩
      · cases timerCall cfg ip s ev <;>
          simp [hopened, hopening, SessionTimes.after, SessionTimes.fresh]
      · cases timerCall cfg ip s ev <;> simp [hopened, he₀, hopening, SessionTimes.after]
    · rw [he]
      rfl

/-- What a released session has of a quantity. -/
def ofReleased (F : SessionTimes → ℤ) (ip : UInt32) (s : Controller) : Option ℤ :=
  (s.sessions.retrieve ip).bind fun e => if e.state = .released then some (F e.times) else none

theorem isReleased_eq (now : ℤ) (ip : UInt32) (s : Controller) :
    isReleased ip s = decide ((openingTimes now s ip).state = .released) := by
  unfold isReleased openingTimes
  cases s.sessions.retrieve ip <;> rfl

theorem ofReleased_eq (F : SessionTimes → ℤ) (now : ℤ) (ip : UInt32) (s : Controller) :
    ofReleased F ip s = if (openingTimes now s ip).state = .released then
      some (F (openingTimes now s ip)) else none := by
  unfold ofReleased openingTimes
  cases s.sessions.retrieve ip <;> rfl

/-- A session is released because a start released it or because it was. -/
theorem released_cases {t : SessionTimes} {now : ℤ} {call : TimerCall}
    (h : (t.after now call).state = .released) :
    (∃ interval, call = .start interval) ∨ (t.state = .released ∧ ∀ ok, call ≠ .stop ok) := by
  cases call with
  | start interval => exact .inl ⟨interval, rfl⟩
  | stop ok => cases h
  | nothing | retention | interim => exact .inr ⟨h, by simp⟩

/-- A quantity of released sessions that each event marks or leaves alone is the one marked last. -/
theorem latestMark_released {F : SessionTimes → ℤ} {mark : Controller → Event → Option ℤ}
    (hmark : ∀ s ev e', Timely cfg ev → TimersPositive s →
      (exec cfg s ev).sessions.retrieve ip = some e' → e'.state = .released →
      (mark s ev).or (ofReleased F ip s) = some (F e'.times))
    {evs : List Event} (hevs : ∀ ev ∈ evs, Timely cfg ev)
    (he : (evs.foldl (exec cfg) init).sessions.retrieve ip = some e)
    (hstate : e.state = .released) :
    latestMark mark (trail (exec cfg) init evs) = some (F e.times) := by
  have hinit : TimersPositive init := by
    rintro ip e ⟨⟩
  refine (latestMark_of_tracks (G := Timely cfg) (I := TimersPositive) (q := ofReleased F ip)
    (fun _ _ => timersPositive_exec) ?_ hinit rfl hevs).2 _ ?_
  · intro s ev v hev hs hv
    obtain ⟨e', he', hv⟩ := Option.bind_eq_some_iff.1 hv
    obtain ⟨hstate', hv⟩ := Option.ite_none_right_eq_some.1 hv
    exact (hmark s ev e' hev hs he' hstate').trans hv
  · rw [ofReleased, he, Option.bind_some, if_pos hstate]

/-- **The deadline of a released session**: the time it was released at or last accounted for, and
the interval that the last start put in force. -/
theorem times_released {evs : List Event} (hevs : ∀ ev ∈ evs, Timely cfg ev)
    (he : (evs.foldl (exec cfg) init).sessions.retrieve ip = some e)
    (hstate : e.state = .released) :
    latestMark (tickMark cfg ip) (trail (exec cfg) init evs) =
      some (e.interim - e.interimInterval) ∧
    latestMark (intervalMark cfg ip) (trail (exec cfg) init evs) = some e.interimInterval := by
  constructor
  · refine @latestMark_released cfg ip e SessionTimes.tick (tickMark cfg ip) ?_ evs hevs he hstate
    intro s ev e' hev hs he' hstate'
    have htimes := exec_times hev.call he'
    have hafter : (e'.times).state = .released := hstate'
    rw [htimes] at hafter
    rw [htimes, SessionTimes.tick_after (positive_openingTimes hev.now hs) hafter, tickMark,
      isReleased_eq ev.now, ofReleased_eq _ ev.now]
    rcases released_cases hafter with ⟨interval, hcall⟩ | ⟨hreleased, hstop⟩
    · cases hopening : (openingTimes ev.now s ip).state <;> simp [hcall]
    · cases hcall : timerCall cfg ip s ev with
      | stop ok => exact absurd hcall (hstop ok)
      | nothing | start | retention | interim => simp [hreleased]
  · refine @latestMark_released cfg ip e SessionTimes.interimInterval (intervalMark cfg ip) ?_ evs
      hevs he hstate
    intro s ev e' hev hs he' hstate'
    have htimes := exec_times hev.call he'
    have hafter : (e'.times).state = .released := hstate'
    rw [htimes] at hafter
    rw [htimes, intervalMark, ofReleased_eq _ ev.now]
    rcases released_cases hafter with ⟨interval, hcall⟩ | ⟨hreleased, hstop⟩
    · rw [hcall]
      rfl
    · rw [if_pos hreleased]
      cases hcall : timerCall cfg ip s ev with
      | stop ok => exact absurd hcall (hstop ok)
      | nothing | start | retention | interim => rfl

end Runs

/-! ## Passes -/

/-- The records submitted for an address. -/
def recordsOf (s : Controller) (ip : UInt32) : List AcctEntry :=
  s.ledger.submitted.filter fun e => e.ip = ip

/-- What a pass over the sessions reads and changes of an address. -/
structure TimerView where
  session : Option SessionEntry
  records : List AcctEntry
  periods : ℕ
  counted : Totals

def timerView (s : Controller) (ip : UInt32) : TimerView :=
  ⟨s.sessions.retrieve ip, recordsOf s ip, s.ledger.periods ip, s.ledger.counted ip⟩

section Passes

variable {cfg : Config} {s : Controller} {ip : UInt32} {e : SessionEntry}

theorem acctRecord_congr {s s' : Controller} (h : timerView s' ip = timerView s ip)
    (type : AcctType) (eventContext : String) (now : ℤ) :
    s'.acctRecord ip type eventContext now = s.acctRecord ip type eventContext now := by
  rw [acctRecord, acctRecord, show s'.ledger.periods ip = _ from congrArg TimerView.periods h,
    show s'.ledger.counted ip = _ from congrArg TimerView.counted h]
  rfl

/-- The session of one address is nothing to another. -/
theorem timerView_expireSessionCb_of_ne (now : ℤ) (s : Controller) {ip ip' : UInt32}
    (hne : ip' ≠ ip) : timerView (expireSessionCb cfg now s ip) ip' = timerView s ip' := by
  have hexpire := @expireSessionCb_outcome cfg now s ip
  generalize expireSessionCb cfg now s ip = s' at hexpire
  cases hexpire with
  | spared => rfl
  | @closed e h hstate hdead =>
    obtain ⟨-, hledger, -⟩ := @sessionDel_books cfg s ip
    have hsession : (sessionDel cfg s ip).sessions.retrieve ip' = s.sessions.retrieve ip' :=
      congrArg View.session ((@viewSet_sessionDel cfg s e ip h).other hne)
    rw [timerView, recordsOf, hsession, hledger]
    rfl
  | @interim e h hstate hinterim =>
    have hip : ({ e with interim := now + e.interimInterval } : SessionEntry).ip ≠ ip' := by
      rw [show _ = ip from entry_key h]
      exact Ne.symm hne
    have hrecord : (s.acctRecord ip .interim "" now).ip ≠ ip' := Ne.symm hne
    rw [timerView, recordsOf]
    dsimp only
    rw [retrieve_insert, if_neg hip]
    simp [timerView, recordsOf, acctSubmit, List.filter_append, hrecord]

theorem expireSessionCb_captured (he : s.sessions.retrieve ip = some e)
    (hstate : e.state = .captured) (now : ℤ) :
    (expireSessionCb cfg now s ip).sessions.retrieve ip = none ↔ e.deathday < now := by
  rw [expireSessionCb, he]
  dsimp only
  rw [hstate]
  dsimp only
  by_cases hdead : e.deathday < now
  · rw [if_pos hdead, sessionDel, he]
    simp [retrieve_delete, hdead]
  · rw [if_neg hdead, he]
    simp [hdead]

theorem expireSessionCb_released (he : s.sessions.retrieve ip = some e)
    (hstate : e.state = .released) (now : ℤ) :
    recordsOf (expireSessionCb cfg now s ip) ip = recordsOf s ip ++
      if e.interim < now then [s.acctRecord ip .interim "" now] else [] := by
  rw [expireSessionCb, he]
  dsimp only
  rw [hstate]
  dsimp only
  by_cases hdue : e.interim < now
  · have hrecord : (s.acctRecord ip .interim "" now).ip = ip := rfl
    rw [if_pos hdue, if_pos hdue]
    simp [recordsOf, acctSubmit, List.filter_append, hrecord]
  · rw [if_neg hdue, if_neg hdue, List.append_nil]

/-- **Session timers.**  After any run of calls of the session module on a clock past 0, a pass at
`now` deletes a captured session just if the retention time set last is over since it was opened
or stopped with success, whichever came last; and it submits an interim record for a released one
just if the interval the last start put in force is over since its release or its last interim
record, whichever came last. -/
theorem sessionExpire_timers (cfg : Config) {evs : List Event} {order : List UInt32}
    (hevs : ∀ ev ∈ evs, Timely cfg ev) (hs : s = evs.foldl (exec cfg) init)
    (he : s.sessions.retrieve ip = some e) (hnodup : order.Nodup) (hmem : ip ∈ order) (now : ℤ) :
    (e.state = .captured → ∃ base retention,
      latestMark (baseMark cfg ip) (trail (exec cfg) init evs) = some base ∧
      latestMark (retentionMark cfg ip) (trail (exec cfg) init evs) = some retention ∧
      ((sessionExpire cfg now s order).sessions.retrieve ip = none ↔ base + retention < now)) ∧
    (e.state = .released → ∃ tick interval,
      latestMark (tickMark cfg ip) (trail (exec cfg) init evs) = some tick ∧
      latestMark (intervalMark cfg ip) (trail (exec cfg) init evs) = some interval ∧
      recordsOf (sessionExpire cfg now s order) ip = recordsOf s ip ++
        if tick + interval < now then [s.acctRecord ip .interim "" now] else []) := by
  obtain ⟨s₁, hs₁, hs'⟩ := @foldl_focus _ _ _ (expireSessionCb cfg now) timerView
    (fun s _ _ hne => timerView_expireSessionCb_of_ne now s hne) order hnodup ip hmem s
  have he₁ : s₁.sessions.retrieve ip = some e := (congrArg TimerView.session hs₁).trans he
  subst hs
  constructor
  · intro hstate
    obtain ⟨hbase, hretention⟩ := times_captured hevs he
    refine ⟨_, _, hbase, hretention, ?_⟩
    rw [sub_add_cancel, ← @expireSessionCb_captured cfg _ _ _ he₁ hstate now]
    exact iff_of_eq (congrArg (· = none) (congrArg TimerView.session hs'))
  · intro hstate
    obtain ⟨htick, hinterval⟩ := times_released hevs he hstate
    refine ⟨_, _, htick, hinterval, ?_⟩
    have hrecords : recordsOf s₁ ip = recordsOf (evs.foldl (exec cfg) init) ip :=
      congrArg TimerView.records hs₁
    have hafter : recordsOf (sessionExpire cfg now (evs.foldl (exec cfg) init) order) ip =
        recordsOf (expireSessionCb cfg now s₁ ip) ip := congrArg TimerView.records hs'
    rw [sub_add_cancel, hafter, expireSessionCb_released he₁ hstate now, hrecords,
      acctRecord_congr hs₁]

/-- The only user comes at 100 and is let in at 160, with a record every minute. -/
def startMinute : List Event :=
  [⟨100, .lookup 0x0a000001⟩, ⟨160, .start 0x0a000001 "paid" 60 "" ""⟩]

theorem sessionExpire_timers_minute :
    ∃ e, (startMinute.foldl (exec oneUserConfig) init).sessions.retrieve 0x0a000001 = some e ∧
    (e.state = .captured → ∃ base retention,
      latestMark (baseMark oneUserConfig 0x0a000001)
        (trail (exec oneUserConfig) init startMinute) = some base ∧
      latestMark (retentionMark oneUserConfig 0x0a000001)
        (trail (exec oneUserConfig) init startMinute) = some retention ∧
      ((sessionExpire oneUserConfig 221 (startMinute.foldl (exec oneUserConfig) init)
        [0x0a000001]).sessions.retrieve 0x0a000001 = none ↔ base + retention < 221)) ∧
    (e.state = .released → ∃ tick interval,
      latestMark (tickMark oneUserConfig 0x0a000001)
        (trail (exec oneUserConfig) init startMinute) = some tick ∧
      latestMark (intervalMark oneUserConfig 0x0a000001)
        (trail (exec oneUserConfig) init startMinute) = some interval ∧
      recordsOf (sessionExpire oneUserConfig 221 (startMinute.foldl (exec oneUserConfig) init)
        [0x0a000001]) 0x0a000001 =
        recordsOf (startMinute.foldl (exec oneUserConfig) init) 0x0a000001 ++
          if tick + interval < 221 then
            [(startMinute.foldl (exec oneUserConfig) init).acctRecord 0x0a000001 .interim "" 221]
          else []) := by
  have hthere : ((startMinute.foldl (exec oneUserConfig) init).sessions.retrieve
      0x0a000001).isSome = true := by
    decide +kernel
  obtain ⟨e, he⟩ := Option.isSome_iff_exists.1 hthere
  refine ⟨e, he, sessionExpire_timers oneUserConfig ?_ rfl he (by decide) (by decide) 221⟩
  intro ev hev
  rcases List.mem_pair.1 hev with rfl | rfl
  · exact ⟨trivial, by decide, trivial⟩
  · exact ⟨trivial, by decide, by unfold AsksPositive; decide⟩

end Passes

end Controller

end Sweetspot
