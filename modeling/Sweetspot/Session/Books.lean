import Sweetspot.Session.Lifecycle

/-!
# The books

What accounting can see of the controller: how each session stands, the id counter, the queue of
records and the records already written.  The functions of the session module act on it in few ways,
and every statement about filters, records and ids is proved of those ways.

* `Standing`, `Books`, `Controller.books`: the abstraction.
* `Opening`, `Acting`: what opening a session, starting it, stopping it and expiring it do to the
  books.
* `sessionStart_books`, `sessionStop_books`, `expireSessionCb_books`: the functions do no more than
  that.
-/

namespace Sweetspot

open Controller

/-- How a session stands. -/
structure Standing where
  state : SessionState
  sessionId : UInt32
  dnFilterName : Option String
  filterId : FilterId
  deriving DecidableEq

def SessionEntry.standing (e : SessionEntry) : Standing :=
  ⟨e.state, e.sessionId, e.dnFilterName, e.filterId⟩

@[ext] structure Books where
  standing : UInt32 → Option Standing
  sourceSessionId : UInt32
  acctChain : List AcctEntry
  written : List AcctEntry
  submitted : List AcctEntry
  periods : UInt32 → ℕ

namespace Books

/-- A session is opened, changed or closed. -/
def set (b : Books) (ip : UInt32) (st : Option Standing) : Books :=
  { b with standing := Function.update b.standing ip st }

/-- A record is queued. -/
def submit (b : Books) (r : AcctEntry) : Books :=
  { b with acctChain := b.acctChain ++ [r], submitted := b.submitted ++ [r] }

/-- A released period begins. -/
def release (b : Books) (ip : UInt32) : Books :=
  { b with periods := Function.update b.periods ip (b.periods ip + 1) }

/-- The records there are, written or still queued. -/
def records (b : Books) : List AcctEntry := b.written ++ b.acctChain

/-- The next session id. -/
def freshId (b : Books) : UInt32 := (nextSessionId b.sourceSessionId).1

/-- The next session id is taken. -/
def takeId (b : Books) : Books :=
  { b with sourceSessionId := (nextSessionId b.sourceSessionId).2 }

section Fields

variable (b : Books) (ip ip' : UInt32) (st : Option Standing) (r : AcctEntry)

@[simp] theorem set_standing :
    (b.set ip st).standing ip' = if ip' = ip then st else b.standing ip' :=
  Function.update_apply ..

theorem set_standing_self : (b.set ip st).standing ip = st := Function.update_self ..

@[simp] theorem submit_standing : (b.submit r).standing = b.standing := rfl

@[simp] theorem release_standing : (b.release ip).standing = b.standing := rfl

@[simp] theorem takeId_standing : b.takeId.standing = b.standing := rfl

theorem mem_records {b : Books} {r : AcctEntry} :
    r ∈ b.records ↔ r ∈ b.written ∨ r ∈ b.acctChain :=
  List.mem_append

theorem submit_records : (b.submit r).records = b.records ++ [r] := by
  simp [records, submit]

end Fields

/-- What every session satisfies, it satisfies after one session changed if the new one does. -/
theorem forall_set {b : Books} {ip : UInt32} {st : Option Standing} {Q : UInt32 → Standing → Prop}
    (h : ∀ ip st, b.standing ip = some st → Q ip st) (hst : ∀ st', st = some st' → Q ip st') :
    ∀ ip' st', (b.set ip st).standing ip' = some st' → Q ip' st' := by
  intro ip' st' hst'
  rw [set_standing] at hst'
  by_cases hip : ip' = ip
  · subst hip
    rw [if_pos rfl] at hst'
    exact hst st' hst'
  · rw [if_neg hip] at hst'
    exact h ip' st' hst'

end Books

/-- The books of the controller. -/
def Controller.books (s : Controller) : Books where
  standing ip := (s.sessions.retrieve ip).map SessionEntry.standing
  sourceSessionId := s.sourceSessionId
  acctChain := s.acctChain
  written := s.ledger.written
  submitted := s.ledger.submitted
  periods := s.ledger.periods

/-- A record just submitted: no scopes yet. -/
structure NewRecord (ip : UInt32) (period : ℕ) (r : AcctEntry) : Prop where
  scope_eq : r.scope = []
  ip_eq : r.ip = ip
  period_eq : r.subject.period = period

/-- The records that end a period. -/
def AcctType.IsStop (type : AcctType) : Prop := type = .stop ∨ type = .stopTime

instance (type : AcctType) : Decidable type.IsStop := inferInstanceAs (Decidable (_ ∨ _))

theorem isStop_stopType (terminationCause : TermCause) : (stopType terminationCause).IsStop := by
  cases terminationCause <;> simp [stopType, AcctType.IsStop]

/-- Which function of the session module is called. -/
inductive SessionCall
  | nothing
  | lookup
  | start (filterName : String)
  | stop (filterName : Option String)
  | expire
  deriving DecidableEq

section Ways

variable (cfg : Config) (ip : UInt32) (b : Books)

/-- What `sw_session_new` does to the books. -/
inductive Opening : Books → Prop
  | kept : Opening b
  | opened {filterId : FilterSlot} (hnone : b.standing ip = none)
    (hfilter : filterGetId cfg.filters cfg.filterAnonymous = some filterId) :
    Opening (b.takeId.set ip (some ⟨.captured, b.freshId, none, some filterId⟩))

/-- What a call does to the books once the session is there; `refused` is when it is not. -/
inductive Acting : SessionCall → Books → Prop
  | nothing : Acting .nothing b
  | lookup : Acting .lookup b
  | refused {call : SessionCall} (hnone : b.standing ip = none) : Acting call b
  | unknown {filterName : String} (hfilter : startFilterId cfg filterName = none) :
    Acting (.start filterName) b
  | again {filterName : String} {st : Standing} {filterId : FilterId}
    (hst : b.standing ip = some st) (hstate : st.state = .released)
    (hfilter : startFilterId cfg filterName = some filterId) :
    Acting (.start filterName) (b.set ip (some { st with filterId }))
  | released {filterName : String} {st : Standing} {filterId : FilterId} {r : AcctEntry}
    (hst : b.standing ip = some st) (hstate : st.state = .captured)
    (hfilter : startFilterId cfg filterName = some filterId)
    (hr : NewRecord ip (b.periods ip + 1) r) (htype : r.type = .start) :
    Acting (.start filterName)
      (((b.release ip).set ip (some { st with state := .released, filterId })).submit r)
  | captive {filterName : Option String} {st : Standing} (hst : b.standing ip = some st)
    (hstate : st.state = .captured) :
    Acting (.stop filterName) (b.set ip (some { st with
      dnFilterName := (stopFilterName cfg filterName st.dnFilterName).2
      filterId := ((filterGetId cfg.filters
        (stopFilterName cfg filterName st.dnFilterName).1).map some).getD st.filterId }))
  | recaptured {filterName : Option String} {st : Standing} {filterId : FilterSlot} {r : AcctEntry}
    (hst : b.standing ip = some st) (hstate : st.state = .released)
    (hfilter : filterGetId cfg.filters (stopFilterName cfg filterName st.dnFilterName).1 =
      some filterId)
    (hr : NewRecord ip (b.periods ip) r) (htype : r.type.IsStop) :
    Acting (.stop filterName) ((b.takeId.set ip (some ⟨.captured, b.freshId,
      (stopFilterName cfg filterName st.dnFilterName).2, some filterId⟩)).submit r)
  | silenced {filterName : Option String} {st : Standing} (hst : b.standing ip = some st)
    (hstate : st.state = .released)
    (hfilter : filterGetId cfg.filters (stopFilterName cfg filterName st.dnFilterName).1 = none) :
    Acting (.stop filterName) (b.takeId.set ip (some ⟨.captured, b.freshId,
      (stopFilterName cfg filterName st.dnFilterName).2, st.filterId⟩))
  | spared : Acting .expire b
  | closed {st : Standing} (hst : b.standing ip = some st) (hstate : st.state = .captured) :
    Acting .expire (b.set ip none)
  | interim {st : Standing} {r : AcctEntry} (hst : b.standing ip = some st)
    (hstate : st.state = .released) (hr : NewRecord ip (b.periods ip) r)
    (htype : r.type = .interim) :
    Acting .expire (b.submit r)

variable {cfg ip b}

/-- Only the session of the address is opened. -/
theorem Opening.standing_of_ne {b' : Books} (h : Opening cfg ip b b') {ip' : UInt32}
    (hip : ip' ≠ ip) : b'.standing ip' = b.standing ip' := by
  cases h with
  | kept => rfl
  | opened hnone hfilter => simp [hip]

/-- Only the session of the address is changed. -/
theorem Acting.standing_of_ne {call : SessionCall} {b' : Books} (h : Acting cfg ip b call b')
    {ip' : UInt32} (hip : ip' ≠ ip) : b'.standing ip' = b.standing ip' := by
  cases h <;> simp [hip]

end Ways

/-! ## The session module does no more -/

namespace Controller

variable {cfg : Config} {s s' : Controller} {ip : UInt32}

theorem books_standing {e : SessionEntry} (h : s.sessions.retrieve ip = some e) :
    s.books.standing ip = some e.standing := by
  show (s.sessions.retrieve ip).map SessionEntry.standing = some e.standing
  rw [h, Option.map_some]

/-- The sessions of the books, from the view of the one address that changed. -/
theorem books_standing_of_viewSet {v : View} (h : ViewSet s s' ip v) :
    s'.books.standing =
      Function.update s.books.standing ip (v.session.map SessionEntry.standing) := by
  funext ip'
  have hsession := congrArg View.session (h ip')
  show (s'.view ip').session.map SessionEntry.standing = _
  by_cases hip : ip' = ip
  · subst hip
    rw [hsession, if_pos rfl, Function.update_self]
  · rw [hsession, if_neg hip, Function.update_of_ne hip]
    rfl

/-- Books from what is left of the controller. -/
theorem books_eq {b : Books} {l : Ledger} (hledger : s'.ledger = l)
    (hstanding : s'.books.standing = b.standing) (hsource : s'.sourceSessionId = b.sourceSessionId)
    (hchain : s'.acctChain = b.acctChain) (hwritten : l.written = b.written)
    (hsubmitted : l.submitted = b.submitted) (hperiods : l.periods = b.periods) :
    s'.books = b := by
  subst hledger
  exact Books.ext hstanding hsource hchain hwritten hsubmitted hperiods

/-- `sw_session_new` as the books see it. -/
inductive Opens (cfg : Config) (s : Controller) (ip : UInt32) :
    Controller × Option SessionEntry → Prop
  | there {s' : Controller} {e : SessionEntry} (hopen : Opening cfg ip s.books s'.books)
    (hfound : s'.sessions.retrieve ip = some e) : Opens cfg s ip (s', some e)
  | refused {s' : Controller} (hbooks : s'.books = s.books) (hnone : s.books.standing ip = none) :
    Opens cfg s ip (s', none)

theorem sessionNew_opens (now : ℤ) (s : Controller) (ip : UInt32) :
    Opens cfg s ip (sessionNew cfg now s ip) := by
  have h := @sessionNew_outcome cfg now s ip
  generalize sessionNew cfg now s ip = r at h
  cases h with
  | found h => exact .there .kept h
  | @opened s' e filterId h hfilter he hview hsource hchain hledger =>
    have hnone : s.books.standing ip = none := by
      show (s.sessions.retrieve ip).map SessionEntry.standing = none
      rw [h, Option.map_none]
    have hbooks : s'.books =
        s.books.takeId.set ip (some ⟨.captured, s.books.freshId, none, some filterId⟩) := by
      refine books_eq hledger ?_ hsource hchain rfl rfl rfl
      rw [books_standing_of_viewSet hview, he]
      rfl
    refine .there ?_ (congrArg View.session hview.self)
    rw [hbooks]
    exact .opened hnone hfilter
  | @refused s' shape h hview hsource hchain hledger =>
    have hnone : s.books.standing ip = none := by
      show (s.sessions.retrieve ip).map SessionEntry.standing = none
      rw [h, Option.map_none]
    refine .refused ?_ hnone
    refine books_eq hledger ?_ hsource hchain rfl rfl rfl
    rw [books_standing_of_viewSet hview]
    exact Function.update_eq_self ip _

theorem startFound_books {e : SessionEntry} (h : s.sessions.retrieve e.ip = some e) (now : ℤ)
    (filterName : String) (interimInterval : ℤ) (sessionContext eventContext : String) :
    Acting cfg e.ip s.books (.start filterName)
      (startFound cfg now s e filterName interimInterval sessionContext eventContext).1.books := by
  have hst := books_standing h
  have houtcome := @startFound_outcome cfg now s e filterName interimInterval sessionContext
    eventContext
  generalize startFound cfg now s e filterName interimInterval sessionContext eventContext = r
    at houtcome
  cases houtcome with
  | unknown hfilter => exact .unknown hfilter
  | @again s' e' hstate hip hstate' hid hdn hfilter hview hsource hchain hledger =>
    have hbooks : s'.books =
        s.books.set e.ip (some { e.standing with filterId := e'.filterId }) := by
      refine books_eq hledger ?_ hsource hchain rfl rfl rfl
      rw [books_standing_of_viewSet hview]
      simp [Books.set, SessionEntry.standing, hstate, hstate', hid, hdn]
    rw [hbooks]
    exact .again hst hstate hfilter
  | @released s' e' hstate hip hstate' hid hdn hfilter hview hsource hchain hledger =>
    have hbooks : s'.books = ((s.books.release e.ip).set e.ip (some { e.standing with
        state := .released, filterId := e'.filterId })).submit
          (startRecord s e.ip eventContext now) := by
      refine books_eq hledger ?_ hsource hchain rfl rfl rfl
      rw [books_standing_of_viewSet hview]
      simp [Books.set, Books.submit, Books.release, SessionEntry.standing, hstate', hid, hdn]
    rw [hbooks]
    exact .released hst hstate hfilter ⟨rfl, rfl, rfl⟩ rfl

theorem stopFound_books {e : SessionEntry} (h : s.sessions.retrieve e.ip = some e) (now : ℤ)
    (filterName : Option String) (terminationCause : TermCause)
    (sessionContext eventContext : String) :
    Acting cfg e.ip s.books (.stop filterName)
      (stopFound cfg now s e filterName terminationCause sessionContext eventContext).1.books := by
  have hst := books_standing h
  obtain ⟨e', heffect⟩ := @stopFound_effect cfg now s e filterName terminationCause sessionContext
    eventContext
  generalize stopFound cfg now s e filterName terminationCause sessionContext eventContext = r
    at heffect
  obtain ⟨s', res⟩ := r
  have hstanding := books_standing_of_viewSet heffect.viewSet
  have hchain := heffect.chain_eq
  have hledger := heffect.ledger_eq
  have hsource := heffect.source_eq
  have hdn := heffect.dnFilterName_eq
  have hid := heffect.sessionId_eq
  have hfilterId := heffect.filterId_eq
  have hcaptured := heffect.captured
  cases hstate : e.state with
  | captured =>
    simp only [stopRecords, hstate, reduceCtorEq, false_and, if_false, List.append_nil]
      at hchain hledger hsource hid
    have hbooks : s'.books = s.books.set e.ip (some { e.standing with
        dnFilterName := (stopFilterName cfg filterName e.dnFilterName).2
        filterId := ((filterGetId cfg.filters
          (stopFilterName cfg filterName e.dnFilterName).1).map some).getD e.filterId }) := by
      refine books_eq hledger ?_ hsource hchain rfl rfl rfl
      rw [hstanding]
      simp [Books.set, SessionEntry.standing, hstate, hcaptured, hdn, hid, hfilterId]
    rw [hbooks]
    exact .captive hst hstate
  | released =>
    cases hfilter : filterGetId cfg.filters (stopFilterName cfg filterName e.dnFilterName).1 with
    | none =>
      simp only [stopRecords, hstate, hfilter, Option.isSome_none, Bool.false_eq_true, and_false,
        if_false, if_true, List.append_nil, Option.map_none, Option.getD_none]
        at hchain hledger hsource hid hfilterId
      have hbooks : s'.books = s.books.takeId.set e.ip (some ⟨.captured, s.books.freshId,
          (stopFilterName cfg filterName e.standing.dnFilterName).2, e.standing.filterId⟩) := by
        refine books_eq hledger ?_ hsource hchain rfl rfl rfl
        rw [hstanding]
        simp [Books.set, Books.takeId, Books.freshId, SessionEntry.standing, hcaptured, hdn, hid,
          hfilterId, books]
      rw [hbooks]
      exact .silenced hst hstate hfilter
    | some filterId =>
      simp only [stopRecords, hstate, hfilter, Option.isSome_some, and_self, if_true,
        Option.map_some, Option.getD_some] at hchain hledger hsource hid hfilterId
      have hbooks : s'.books = (s.books.takeId.set e.ip (some ⟨.captured, s.books.freshId,
          (stopFilterName cfg filterName e.standing.dnFilterName).2, some filterId⟩)).submit
            (s.acctRecord e.ip (stopType terminationCause) eventContext now) := by
        refine books_eq hledger ?_ hsource hchain rfl rfl rfl
        rw [hstanding]
        simp [Books.set, Books.takeId, Books.submit, Books.freshId, SessionEntry.standing,
          hcaptured, hdn, hid, hfilterId, books]
      rw [hbooks]
      exact .recaptured hst hstate hfilter ⟨rfl, rfl, rfl⟩ (isStop_stopType terminationCause)

/-- A start opens the session, if need be, and starts it. -/
theorem sessionStart_books (now : ℤ) (s : Controller) (ip : UInt32) (filterName : String)
    (interimInterval : ℤ) (sessionContext eventContext : String) :
    ∃ b, Opening cfg ip s.books b ∧ Acting cfg ip b (.start filterName)
      (sessionStart cfg now s ip filterName interimInterval sessionContext
        eventContext).1.books := by
  have hnew := @sessionNew_opens cfg now s ip
  unfold sessionStart
  generalize sessionNew cfg now s ip = r at hnew
  cases hnew with
  | @refused s' hbooks hnone =>
    refine ⟨s.books, .kept, ?_⟩
    show Acting cfg ip s.books _ s'.books
    rw [hbooks]
    exact .refused hnone
  | @there s' e hopen hfound =>
    obtain rfl := entry_key hfound
    exact ⟨s'.books, hopen, startFound_books hfound now filterName interimInterval sessionContext
      eventContext⟩

/-- A stop opens the session, if need be, and stops it; that there is a session then is the work of
`sw_session_new`. -/
theorem sessionStop_books (now : ℤ) (s : Controller) (ip : UInt32) (filterName : Option String)
    (terminationCause : TermCause) (sessionContext eventContext : String) :
    ∃ b, Opening cfg ip s.books b ∧
      (b.standing ip).isSome = (sessionNew cfg now s ip).2.isSome ∧
      Acting cfg ip b (.stop filterName)
        (sessionStop cfg now s ip filterName terminationCause sessionContext
          eventContext).1.books := by
  have hnew := @sessionNew_opens cfg now s ip
  unfold sessionStop
  generalize sessionNew cfg now s ip = r at hnew
  cases hnew with
  | @refused s' hbooks hnone =>
    refine ⟨s.books, .kept, by rw [hnone]; rfl, ?_⟩
    show Acting cfg ip s.books _ s'.books
    rw [hbooks]
    exact .refused hnone
  | @there s' e hopen hfound =>
    obtain rfl := entry_key hfound
    exact ⟨s'.books, hopen, by rw [books_standing hfound]; rfl, stopFound_books hfound now
      filterName terminationCause sessionContext eventContext⟩

/-- A lookup may open a session. -/
theorem sessionNew_opening (now : ℤ) (s : Controller) (ip : UInt32) :
    Opening cfg ip s.books (sessionNew cfg now s ip).1.books := by
  have hnew := @sessionNew_opens cfg now s ip
  generalize sessionNew cfg now s ip = r at hnew
  cases hnew with
  | @refused s' hbooks hnone =>
    show Opening cfg ip s.books s'.books
    rw [hbooks]
    exact .kept
  | there hopen hfound => exact hopen

/-- Storing a session that stands as before. -/
theorem books_store {e e' : SessionEntry} (h : s.sessions.retrieve e.ip = some e)
    (hip : e'.ip = e.ip) (hst : e'.standing = e.standing) :
    ({ s with sessions := s.sessions.insert e' } : Controller).books = s.books := by
  have hview : ViewSet s { s with sessions := s.sessions.insert e' } e.ip
      { s.view e.ip with session := some e' } := viewSet_session hip rfl rfl rfl
  refine books_eq rfl ?_ rfl rfl rfl rfl rfl
  rw [books_standing_of_viewSet hview, Option.map_some, hst, ← books_standing h,
    Function.update_eq_self]

/-- Session expiry closes a captured session or asks for an interim record of a released one. -/
theorem expireSessionCb_books (now : ℤ) (s : Controller) (ip : UInt32) :
    Acting cfg ip s.books .expire (expireSessionCb cfg now s ip).books := by
  have hexpire := @expireSessionCb_outcome cfg now s ip
  generalize expireSessionCb cfg now s ip = s' at hexpire ⊢
  cases hexpire with
  | spared => exact .spared
  | closed h hstate hdead =>
    obtain ⟨hchain, hledger, hsource⟩ := @sessionDel_books cfg s ip
    have hbooks : (sessionDel cfg s ip).books = s.books.set ip none := by
      refine books_eq hledger ?_ hsource hchain rfl rfl rfl
      rw [books_standing_of_viewSet (viewSet_sessionDel h)]
      rfl
    rw [hbooks]
    exact .closed (books_standing h) hstate
  | @interim e h hstate hinterim =>
    obtain rfl := entry_key h
    have hbooks := @books_store (s.acctSubmit e.ip .interim "" now) e
      { e with interim := now + e.interimInterval } h rfl rfl
    have hact : Acting cfg e.ip s.books .expire (s.acctSubmit e.ip .interim "" now).books :=
      .interim (books_standing h) hstate ⟨rfl, rfl, rfl⟩ rfl
    rw [← hbooks] at hact
    exact hact

end Controller

end Sweetspot
