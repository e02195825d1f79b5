import Sweetspot.Lib.Run
import Sweetspot.Session.Acct

/-!
# The running controller

The daemon does one thing after another: it opens sessions for packets, serves the requests of the
UAM server, accounts packets, and makes its passes over the sessions, the gauges and the queue of
records.

* `uamUp`, `uamDown`, `uamRetention`: the requests that change something.
* `Op`, `Event`, `exec`: what the daemon can do, and doing it.
* `Step`: one event, with the operations of a run limited to some.
* `BookStep`, `exec_bookStep`: an event is a pass over the queue or one call of the session module.
-/

namespace Sweetspot

namespace Controller

variable (cfg : Config)

/-! ## The UAM server -/

/-- `sw_session_verify_stateid`; 0 matches whatever the session has. -/
def verifyStateid (s : Controller) (ip : UInt32) (stateid : ℤ) : Bool :=
  match s.sessions.retrieve ip with
  | none => true
  | some e => stateid = 0 || e.stateid = stateid

/-- `sw_session_acquire_stateid` after a modification. -/
def acquireStateid (s : Controller) (ip : UInt32) : Controller :=
  match s.sessions.retrieve ip with
  | none => s
  | some e =>
    let stateid := if e.stateid = 0x7fffffff then 0 else e.stateid
    { s with sessions := s.sessions.insert { e with stateid := stateid + 1 } }

/-- `UP`; `false` is an error. -/
def uamUp (now : ℤ) (s : Controller) (ip : UInt32) (stateid : ℤ) (filterName : String)
    (interimInterval : ℤ) (max : GaugeLimits) (sessionContext eventContext : String) :
    Controller × Bool :=
  if verifyStateid s ip stateid then
    let s := gaugeNew now s ip max
    let s := shapeNew s ip max.maxBpsIn max.maxBpsOut
    match sessionStart cfg now s ip filterName interimInterval sessionContext eventContext with
    | (s, false) => (shapeDel (gaugeDel s ip) ip, false)
    | (s, true) => (acquireStateid s ip, true)
  else (s, false)

/-- `DN`; `false` is an error. -/
def uamDown (now : ℤ) (s : Controller) (ip : UInt32) (stateid : ℤ) (filterName : String)
    (sessionContext eventContext : String) : Controller × Bool :=
  if verifyStateid s ip stateid then
    match sessionStop cfg now s ip (some filterName) .user sessionContext eventContext with
    | (s, false) => (s, false)
    | (s, true) => (acquireStateid (gaugeDel s ip) ip, true)
  else (s, false)

/-- The request for a new retention time; `false` is an error. -/
def uamRetention (s : Controller) (ip : UInt32) (stateid retention : ℤ) : Controller × Bool :=
  if verifyStateid s ip stateid then
    match sessionRetention s ip retention with
    | (s, false) => (s, false)
    | (s, true) => (acquireStateid s ip, true)
  else (s, false)

/-- `sw_session_status`; `none` is `-1`. -/
def sessionStatus (now : ℤ) (s : Controller) (ip : UInt32) :
    Controller × Option (SessionEntry × String) :=
  match sessionNew cfg now s ip with
  | (s, none) => (s, none)
  | (s, some e) =>
    (s, (filterGetName cfg.filters e.filterId).map fun filterName => (e, filterName))

end Controller

/-! ## Events -/

/-- What the daemon does.  `start` and `stop` are the calls of the session module by themselves. -/
inductive Op
  | lookup (ip : UInt32)
  | status (ip : UInt32)
  | start (ip : UInt32) (filterName : String) (interimInterval : ℤ)
    (sessionContext eventContext : String)
  | stop (ip : UInt32) (filterName : Option String) (terminationCause : TermCause)
    (sessionContext eventContext : String)
  | retention (ip : UInt32) (stateid retention : ℤ)
  | up (ip : UInt32) (stateid : ℤ) (filterName : String) (interimInterval : ℤ) (max : GaugeLimits)
    (sessionContext eventContext : String)
  | down (ip : UInt32) (stateid : ℤ) (filterName sessionContext eventContext : String)
  | account (ip : UInt32) (octets : UInt64) (dir : GaugeDir)
  | expireGauge (ip : UInt32)
  | expireSession (ip : UInt32)
  | commit (finalFlag : Bool) (accepts : ℕ → Bool)

/-- The address an operation is about; a pass over the queue is about none. -/
def Op.ip : Op → Option UInt32
  | .lookup ip | .status ip | .start ip .. | .stop ip .. | .retention ip .. | .up ip ..
  | .down ip .. | .account ip .. | .expireGauge ip | .expireSession ip => some ip
  | .commit .. => none

/-- A session is started or stopped without its gauge. -/
def Op.IsBare : Op → Prop
  | .start .. | .stop .. => True
  | _ => False

instance : DecidablePred Op.IsBare
  | .start .. | .stop .. => isTrue trivial
  | .lookup _ | .status _ | .retention .. | .up .. | .down .. | .account .. | .expireGauge _
  | .expireSession _ | .commit .. => isFalse not_false

/-- An operation at its time. -/
structure Event where
  now : ℤ
  op : Op

/-- The only user is let in. -/
def upPaid : Event := ⟨0, .up 0x0a000001 0 "paid" 0 .unlimited "" ""⟩

/-- The only user is sent back, to a filter that is not loaded. -/
def downLost : Event := ⟨0, .down 0x0a000001 0 "lost" "" ""⟩

/-- The only user is sent back to the filter for strangers. -/
def downUser : Event := ⟨0, .down 0x0a000001 0 "" "" ""⟩

/-- A pass over the queue, with a detail file that takes everything. -/
def commitAll : Event := ⟨0, .commit false fun _ => true⟩

namespace Controller

section Exec

variable (cfg : Config) (s : Controller) (ev : Event)

/-- Doing it. -/
def exec : Controller :=
  match ev.op with
  | .lookup ip => (sessionGetFilterId cfg ev.now s ip).1
  | .status ip => (sessionStatus cfg ev.now s ip).1
  | .start ip filterName interimInterval sessionContext eventContext =>
    (sessionStart cfg ev.now s ip filterName interimInterval sessionContext eventContext).1
  | .stop ip filterName terminationCause sessionContext eventContext =>
    (sessionStop cfg ev.now s ip filterName terminationCause sessionContext eventContext).1
  | .retention ip stateid retention => (uamRetention s ip stateid retention).1
  | .up ip stateid filterName interimInterval max sessionContext eventContext =>
    (uamUp cfg ev.now s ip stateid filterName interimInterval max sessionContext eventContext).1
  | .down ip stateid filterName sessionContext eventContext =>
    (uamDown cfg ev.now s ip stateid filterName sessionContext eventContext).1
  | .account ip octets dir => gaugeUpdate cfg ev.now s ip octets dir
  | .expireGauge ip => expireGaugeCb cfg ev.now s ip
  | .expireSession ip => expireSessionCb cfg ev.now s ip
  | .commit finalFlag accepts => acctCommit cfg ev.now s finalFlag accepts

/-- The call of the session module that an event makes. -/
def call : SessionCall :=
  match ev.op with
  | .lookup _ | .status _ => .lookup
  | .start _ filterName .. => .start filterName
  | .stop _ filterName .. => .stop filterName
  | .retention .. | .commit .. => .nothing
  | .up ip stateid filterName .. =>
    if verifyStateid s ip stateid then .start filterName else .nothing
  | .down ip stateid filterName .. =>
    if verifyStateid s ip stateid then .stop (some filterName) else .nothing
  | .account ip octets dir => if overQuota ev.now s ip octets dir then .stop none else .nothing
  | .expireGauge ip => if gaugeExpired ev.now s ip then .stop none else .nothing
  | .expireSession _ => .expire

end Exec

/-- Looking up the filter of an address may open its session. -/
theorem exec_lookup (cfg : Config) (s : Controller) (now : ℤ) (ip : UInt32) :
    exec cfg s ⟨now, .lookup ip⟩ = (sessionNew cfg now s ip).1 := by
  show (sessionGetFilterId cfg now s ip).1 = _
  unfold sessionGetFilterId
  cases h : s.sessions.retrieve ip with
  | none => rfl
  | some e => rw [sessionNew, h]

/-- So may asking for its status. -/
theorem exec_status (cfg : Config) (s : Controller) (now : ℤ) (ip : UInt32) :
    exec cfg s ⟨now, .status ip⟩ = (sessionNew cfg now s ip).1 := by
  show (sessionStatus cfg now s ip).1 = _
  unfold sessionStatus
  rcases sessionNew cfg now s ip with ⟨s', _ | e⟩ <;> rfl

/-- One event of a run whose operations are all `allowed`. -/
def Step (cfg : Config) (allowed : Op → Prop) (s : Controller) (ev : Event) (s' : Controller) :
    Prop :=
  allowed ev.op ∧ s' = exec cfg s ev

/-- An event has one outcome. -/
theorem step_det {cfg : Config} {allowed : Op → Prop} (s : Controller) (ev : Event)
    (s₁ s₂ : Controller) (h₁ : Step cfg allowed s ev s₁) (h₂ : Step cfg allowed s ev s₂) :
    s₁ = s₂ := by
  rw [h₁.2, h₂.2]

/-- Allowed operations make a run. -/
theorem run_foldl {cfg : Config} {allowed : Op → Prop} {evs : List Event} (s : Controller)
    (hallowed : ∀ ev ∈ evs, allowed ev.op) :
    Run (Step cfg allowed) s evs (evs.foldl (exec cfg) s) := by
  induction evs generalizing s with
  | nil => exact .nil s
  | cons ev evs ih =>
    refine .cons ⟨hallowed ev List.mem_cons_self, rfl⟩ (ih _ ?_)
    intro ev' hev'
    exact hallowed ev' (List.mem_cons_of_mem ev hev')

/-- A guard is met all along if it is met now and all along after the first event. -/
theorem guarded_step {cfg : Config} {allowed : Op → Prop} {G : Controller → Event → Prop}
    {s : Controller} {ev : Event} {evs : List Event} (h : G s ev)
    (hrest : Run.Guarded (Step cfg allowed) G (exec cfg s ev) evs) :
    Run.Guarded (Step cfg allowed) G s (ev :: evs) := by
  refine Run.guarded_cons.2 ⟨h, ?_⟩
  rintro s' ⟨-, rfl⟩
  exact hrest

/-- A pass over the gauges is a run of its callbacks. -/
theorem run_gaugeExpire {cfg : Config} {allowed : Op → Prop}
    (hallowed : ∀ ip, allowed (.expireGauge ip)) (now : ℤ) (s : Controller) (order : List UInt32) :
    Run (Step cfg allowed) s (order.map fun ip => ⟨now, .expireGauge ip⟩)
      (gaugeExpire cfg now s order) := by
  induction order generalizing s with
  | nil => exact .nil s
  | cons ip order ih => exact .cons ⟨hallowed ip, rfl⟩ (ih (expireGaugeCb cfg now s ip))

/-- A pass over the sessions is a run of its callbacks. -/
theorem run_sessionExpire {cfg : Config} {allowed : Op → Prop}
    (hallowed : ∀ ip, allowed (.expireSession ip)) (now : ℤ) (s : Controller)
    (order : List UInt32) :
    Run (Step cfg allowed) s (order.map fun ip => ⟨now, .expireSession ip⟩)
      (sessionExpire cfg now s order) := by
  induction order generalizing s with
  | nil => exact .nil s
  | cons ip order ih => exact .cons ⟨hallowed ip, rfl⟩ (ih (expireSessionCb cfg now s ip))

/-! ## A request for a new retention time -/

/-- What it can do: it is refused and leaves everything alone, or the retention time is stored and
the modification counted. -/
inductive UamRetentionOutcome (s : Controller) (ip : UInt32) (retention : ℤ) :
    Controller × Bool → Prop
  | refused : UamRetentionOutcome s ip retention (s, false)
  | served {s' : Controller} (h : RetentionOutcome s ip retention (s', true)) :
    UamRetentionOutcome s ip retention (acquireStateid s' ip, true)

theorem uamRetention_outcome (s : Controller) (ip : UInt32) (stateid retention : ℤ) :
    UamRetentionOutcome s ip retention (uamRetention s ip stateid retention) := by
  unfold uamRetention
  have hretention := sessionRetention_outcome s ip retention
  by_cases hverify : verifyStateid s ip stateid = true
  · rw [if_pos hverify]
    generalize sessionRetention s ip retention = r at hretention ⊢
    rcases r with ⟨s', _ | _⟩
    · cases hretention
      exact .refused
    · exact .served hretention
  · rw [if_neg hverify]
    exact .refused

/-! ## An event and the books -/

section Books

variable {cfg : Config} {s : Controller} {ip : UInt32}

@[simp] theorem books_acquireStateid (s : Controller) (ip : UInt32) :
    (acquireStateid s ip).books = s.books := by
  unfold acquireStateid
  cases h : s.sessions.retrieve ip with
  | none => rfl
  | some e =>
    obtain rfl := entry_key h
    exact books_store h rfl rfl

theorem uamRetention_books (s : Controller) (ip : UInt32) (stateid retention : ℤ) :
    (uamRetention s ip stateid retention).1.books = s.books := by
  have hserved := uamRetention_outcome s ip stateid retention
  generalize uamRetention s ip stateid retention = r at hserved ⊢
  cases hserved with
  | refused => rfl
  | served h =>
    rw [books_acquireStateid]
    cases h with
    | kept hpos => rfl
    | stored h hpos =>
      obtain rfl := entry_key h
      exact books_store h rfl rfl

theorem uamUp_books (now : ℤ) (s : Controller) (ip : UInt32) (stateid : ℤ) (filterName : String)
    (interimInterval : ℤ) (max : GaugeLimits) (sessionContext eventContext : String) :
    ∃ b, Opening cfg ip s.books b ∧
      Acting cfg ip b (if verifyStateid s ip stateid then .start filterName else .nothing)
        (uamUp cfg now s ip stateid filterName interimInterval max sessionContext
          eventContext).1.books := by
  unfold uamUp
  by_cases hverify : verifyStateid s ip stateid = true
  · simp only [hverify, if_true]
    have hstart := @sessionStart_books cfg now
      (shapeNew (gaugeNew now s ip max) ip max.maxBpsIn max.maxBpsOut) ip filterName
      interimInterval sessionContext eventContext
    generalize sessionStart cfg now (shapeNew (gaugeNew now s ip max) ip max.maxBpsIn max.maxBpsOut)
      ip filterName interimInterval sessionContext eventContext = r at hstart ⊢
    rcases r with ⟨s', _ | _⟩
    · simpa using hstart
    · simpa using hstart
  · rw [if_neg hverify, if_neg hverify]
    exact ⟨s.books, .kept, .nothing⟩

theorem uamDown_books (now : ℤ) (s : Controller) (ip : UInt32) (stateid : ℤ)
    (filterName sessionContext eventContext : String) :
    ∃ b, Opening cfg ip s.books b ∧
      (verifyStateid s ip stateid → (b.standing ip).isSome = (sessionNew cfg now s ip).2.isSome) ∧
      Acting cfg ip b (if verifyStateid s ip stateid then .stop (some filterName) else .nothing)
        (uamDown cfg now s ip stateid filterName sessionContext eventContext).1.books := by
  unfold uamDown
  by_cases hverify : verifyStateid s ip stateid = true
  · simp only [hverify, if_true]
    obtain ⟨b, hopen, hthere, hact⟩ := @sessionStop_books cfg now s ip (some filterName) .user
      sessionContext eventContext
    refine ⟨b, hopen, fun _ => hthere, ?_⟩
    generalize sessionStop cfg now s ip (some filterName) .user sessionContext eventContext = r
      at hact ⊢
    rcases r with ⟨s', _ | _⟩
    · exact hact
    · simpa using hact
  · rw [if_neg hverify, if_neg hverify]
    exact ⟨s.books, .kept, fun h => absurd h hverify, .nothing⟩

/-- What an event does to the books.  A stop with a filter of its own finds a session just when
`sw_session_new` does. -/
inductive BookStep (cfg : Config) (s : Controller) (ev : Event) (s' : Controller) : Prop
  | commit {finalFlag : Bool} {accepts : ℕ → Bool} (hop : ev.op = .commit finalFlag accepts)
    (hs' : s' = acctCommit cfg ev.now s finalFlag accepts)
  | call {ip : UInt32} {b : Books} (hip : ev.op.ip = some ip) (hopen : Opening cfg ip s.books b)
    (hthere : ∀ filterName, call s ev = .stop (some filterName) →
      (b.standing ip).isSome = (sessionNew cfg ev.now s ip).2.isSome)
    (hact : Acting cfg ip b (call s ev) s'.books)

/-- **An event is a pass over the queue or one call of the session module.** -/
theorem exec_bookStep (s : Controller) (ev : Event) : BookStep cfg s ev (exec cfg s ev) := by
  obtain ⟨now, op⟩ := ev
  cases op with
  | lookup ip =>
    refine .call rfl (b := (sessionNew cfg now s ip).1.books) (sessionNew_opening now s ip)
      (by rintro filterName ⟨⟩) ?_
    rw [exec_lookup]
    exact .lookup
  | status ip =>
    refine .call rfl (b := (sessionNew cfg now s ip).1.books) (sessionNew_opening now s ip)
      (by rintro filterName ⟨⟩) ?_
    rw [exec_status]
    exact .lookup
  | start ip filterName interimInterval sessionContext eventContext =>
    obtain ⟨b, hopen, hact⟩ := @sessionStart_books cfg now s ip filterName interimInterval
      sessionContext eventContext
    exact .call rfl hopen (by rintro filterName ⟨⟩) hact
  | stop ip filterName terminationCause sessionContext eventContext =>
    obtain ⟨b, hopen, hthere, hact⟩ := @sessionStop_books cfg now s ip filterName terminationCause
      sessionContext eventContext
    exact .call rfl hopen (fun _ _ => hthere) hact
  | retention ip stateid retention =>
    refine .call rfl .kept (by rintro filterName ⟨⟩) ?_
    show Acting cfg ip s.books .nothing (uamRetention s ip stateid retention).1.books
    rw [uamRetention_books]
    exact .nothing
  | up ip stateid filterName interimInterval max sessionContext eventContext =>
    obtain ⟨b, hopen, hact⟩ := @uamUp_books cfg now s ip stateid filterName interimInterval max
      sessionContext eventContext
    refine .call rfl hopen ?_ hact
    intro name hcall
    simp only [call] at hcall
    split at hcall <;> cases hcall
  | down ip stateid filterName sessionContext eventContext =>
    obtain ⟨b, hopen, hthere, hact⟩ := @uamDown_books cfg now s ip stateid filterName
      sessionContext eventContext
    refine .call rfl hopen ?_ hact
    intro name hcall
    by_cases hverify : verifyStateid s ip stateid = true
    · exact hthere hverify
    · simp [call, hverify] at hcall
  | account ip octets dir =>
    obtain ⟨b, hopen, hact⟩ := (@gaugeUpdate_outcome cfg now s ip octets dir).books_eq
    refine .call rfl hopen ?_ hact
    intro name hcall
    simp only [call] at hcall
    split at hcall <;> cases hcall
  | expireGauge ip =>
    obtain ⟨b, hopen, hact⟩ := (@expireGaugeCb_outcome cfg now s ip).books_eq
    refine .call rfl hopen ?_ hact
    intro name hcall
    simp only [call] at hcall
    split at hcall <;> cases hcall
  | expireSession ip =>
    exact .call rfl .kept (by rintro filterName ⟨⟩) (expireSessionCb_books now s ip)
  | commit finalFlag accepts => exact .commit rfl rfl

end Books

end Controller

end Sweetspot
