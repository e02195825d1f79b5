import Sweetspot.Session.Refusal
import Sweetspot.Uam.Limits

/-!
# The end of the daemon

`main` ends with `sw_session_destroy`, which stops every session and drops their table, and makes
the last pass over the queue after that.  The pass needs the table for every record that has no
scopes yet, and the STOP records are such records.

* `sessionDestroy`, `lastLoop`, `shutdown`: the end of `main`.
* `OpenPeriods`: no record ends the period that a released session is in, in every state reached.
* `shutdown_loses`: what is written at the end, and whether the daemon gets there.
-/

namespace Sweetspot

namespace Controller

/-! ## The end of `main` -/

section End

variable (cfg : Config) (now : ℤ) (s : Controller)

/-- `__term_session_cb`. -/
def termSessionCb (ip : UInt32) : Controller :=
  (sessionStop cfg now s ip (some "") .admin "" "").1

/-- `sw_session_destroy`, the addresses in the order the table shows them.  The table is gone
afterwards; what is left of the controller is its queue. -/
def sessionDestroy (order : List UInt32) : Controller := order.foldl (termSessionCb cfg now) s

/-- The loop of `sw_acct_commit(1)` then: what it writes, and `false` if it dies.  The scope of the
session is looked up through a null pointer. -/
def lastLoop (accepts : ℕ → Bool) : ℕ → List AcctEntry → List AcctEntry × Bool
  | _, [] => ([], true)
  | n, e :: es =>
    if e.scope = [] then ([], false)
    else
      let (written, done) := lastLoop accepts (n + 1) es
      (if accepts n then e :: written else written, done)

/-- From `sw_session_destroy` to `sw_acct_commit(1)`. -/
def shutdown (order : List UInt32) (accepts : ℕ → Bool) : List AcctEntry × Bool :=
  lastLoop accepts 0 (sessionDestroy cfg now s order).acctChain

end End

/-! ## The last pass -/

section Last

variable {accepts : ℕ → Bool}

/-- It gets to its end if every record has scopes. -/
theorem lastLoop_snd (n : ℕ) (es : List AcctEntry) :
    (lastLoop accepts n es).2 = true ↔ ∀ e ∈ es, e.scope ≠ [] := by
  induction es generalizing n with
  | nil => simp [lastLoop]
  | cons e es ih =>
    rw [lastLoop, List.forall_mem_cons, ← ih (n + 1)]
    split
    · rename_i hscope
      simp [hscope]
    · rename_i hscope
      exact (and_iff_right hscope).symm

/-- It writes what is accepted up to the first record without scopes. -/
theorem lastLoop_fst (n : ℕ) (es : List AcctEntry) :
    (lastLoop accepts n es).1 =
      (((es.takeWhile fun e => e.scope ≠ []).zipIdx n).filter fun p => accepts p.2).map
        Prod.fst := by
  induction es generalizing n with
  | nil => rfl
  | cons e es ih =>
    rw [lastLoop]
    split
    · rename_i hscope
      rw [List.takeWhile_cons_of_neg (by simp [hscope])]
      rfl
    · rename_i hscope
      rw [List.takeWhile_cons_of_pos (by simp [hscope]), List.zipIdx_cons, List.filter_cons]
      dsimp only
      rw [ih (n + 1)]
      split <;> rfl

/-- It gets no further than a record without scopes. -/
theorem lastLoop_append (n : ℕ) {es l : List AcctEntry} (hl : ∀ r ∈ l, r.scope = []) :
    (lastLoop accepts n (es ++ l)).1 = (lastLoop accepts n es).1 := by
  induction es generalizing n with
  | nil =>
    cases l with
    | nil => rfl
    | cons r l =>
      show (lastLoop accepts n (r :: l)).1 = []
      rw [lastLoop, if_pos (hl r List.mem_cons_self)]
  | cons e es ih =>
    rw [List.cons_append, lastLoop, lastLoop]
    split
    · rfl
    · dsimp only
      rw [ih (n + 1)]

theorem mem_lastLoop {n : ℕ} {es : List AcctEntry} {r : AcctEntry}
    (h : r ∈ (lastLoop accepts n es).1) : r ∈ es := by
  rw [lastLoop_fst] at h
  obtain ⟨⟨r', i⟩, hmem, rfl⟩ := List.mem_map.1 h
  have hzip := List.mem_of_mem_filter hmem
  exact (List.takeWhile_sublist _).subset (List.fst_mem_of_mem_zipIdx hzip)

end Last

/-! ## Every session is stopped -/

/-- The session of the address is released. -/
def IsReleased (s : Controller) (ip : UInt32) : Prop :=
  ∃ e, s.sessions.retrieve ip = some e ∧ e.state = .released

/-- The filter for strangers is loaded. -/
def HasAnonymous (cfg : Config) : Prop := (filterGetId cfg.filters cfg.filterAnonymous).isSome

/-- A record of the end: the STOP of a released session, without scopes. -/
structure EndRecord (cfg : Config) (s : Controller) (r : AcctEntry) : Prop where
  scope_eq : r.scope = []
  type_eq : r.type = .stop
  period_eq : r.subject.period = s.ledger.periods r.ip
  released : IsReleased s r.ip
  anonymous : HasAnonymous cfg

section Stops

variable {cfg : Config} {now : ℤ} {s s' : Controller} {ip : UInt32} {e : SessionEntry}

/-- The record of the end of a session is made for a released one. -/
theorem stopRecords_end (hfound : s.sessions.retrieve ip = some e) {r : AcctEntry}
    (hr : r ∈ stopRecords cfg now s e (some "") .admin "") : EndRecord cfg s r ∧ r.ip = ip := by
  obtain rfl := entry_key hfound
  unfold stopRecords at hr
  split at hr
  · rename_i hcond
    obtain rfl := List.mem_singleton.1 hr
    exact ⟨⟨rfl, rfl, rfl, ⟨e, hfound, hcond.1⟩, hcond.2⟩, rfl⟩
  · cases hr

/-- The table shows the addresses that have sessions. -/
theorem mem_map_ip_iff : ip ∈ s.sessions.items.map SessionEntry.ip ↔
    (s.sessions.retrieve ip).isSome := by
  rw [List.mem_map, Option.isSome_iff_exists]
  constructor
  · rintro ⟨e, he, rfl⟩
    exact ⟨e, mem_iff_retrieve.1 he⟩
  · rintro ⟨e, he⟩
    obtain rfl := entry_key he
    exact ⟨e, mem_iff_retrieve.2 he, rfl⟩

/-- What the callback does to the session of an address. -/
theorem termSessionCb_effect (hfound : s.sessions.retrieve ip = some e) :
    ∃ e', ViewSet s (termSessionCb cfg now s ip) ip { s.view ip with session := some e' } ∧
      e'.state = .captured ∧
      (termSessionCb cfg now s ip).acctChain =
        s.acctChain ++ stopRecords cfg now s e (some "") .admin "" ∧
      (termSessionCb cfg now s ip).ledger.periods = s.ledger.periods := by
  obtain ⟨e', heffect⟩ := @stopFound_effect cfg now s e (some "") .admin "" ""
  have hstop : termSessionCb cfg now s ip =
      (stopFound cfg now s e (some "") .admin "" "").1 := by
    rw [termSessionCb, sessionStop, sessionNew, hfound]
  obtain rfl := entry_key hfound
  rw [hstop]
  refine ⟨e', heffect.viewSet, heffect.captured, heffect.chain_eq, ?_⟩
  rw [heffect.ledger_eq]

/-- After the callback for another address a session is released if it was. -/
theorem isReleased_termSessionCb_iff (hfound : s.sessions.retrieve ip = some e) (ip' : UInt32) :
    IsReleased (termSessionCb cfg now s ip) ip' ↔ ip' ≠ ip ∧ IsReleased s ip' := by
  obtain ⟨e', hview, hcaptured, -, -⟩ := @termSessionCb_effect cfg now s ip e hfound
  have hsession := congrArg View.session (hview ip')
  by_cases hip : ip' = ip
  · rw [if_pos hip] at hsession
    refine iff_of_false ?_ (fun h => h.1 hip)
    rintro ⟨e₁, he₁, hreleased⟩
    obtain rfl := Option.some.inj (he₁.symm.trans hsession)
    rw [hcaptured] at hreleased
    cases hreleased
  · rw [if_neg hip] at hsession
    have hsame : (termSessionCb cfg now s ip).sessions.retrieve ip' = s.sessions.retrieve ip' :=
      hsession
    rw [IsReleased, hsame]
    exact (and_iff_right hip).symm

/-- **Every session that is released gets a record of its end in the queue**, if the filter for
strangers is loaded, and nothing else gets there. -/
theorem sessionDestroy_chain {order : List UInt32}
    (horder : ∀ ip ∈ order, (s.sessions.retrieve ip).isSome) :
    ∃ l, (sessionDestroy cfg now s order).acctChain = s.acctChain ++ l ∧
      (∀ r ∈ l, EndRecord cfg s r) ∧
      (HasAnonymous cfg → ∀ ip ∈ order, IsReleased s ip → ∃ r ∈ l, r.ip = ip) := by
  induction order generalizing s with
  | nil => exact ⟨[], by rw [List.append_nil]; rfl, by simp, by simp⟩
  | cons ip order ih =>
    obtain ⟨e, hfound⟩ := Option.isSome_iff_exists.1 (horder ip List.mem_cons_self)
    obtain ⟨e', hview, hcaptured, hchain, hperiods⟩ := @termSessionCb_effect cfg now s ip e hfound
    have hreleased := @isReleased_termSessionCb_iff cfg now s ip e hfound
    have hrest : ∀ ip' ∈ order,
        ((termSessionCb cfg now s ip).sessions.retrieve ip').isSome := by
      intro ip' hip'
      have hsession := congrArg View.session (hview ip')
      have hsome := horder ip' (List.mem_cons_of_mem _ hip')
      by_cases hip : ip' = ip
      · rw [if_pos hip] at hsession
        exact Option.isSome_of_eq_some hsession
      · rw [if_neg hip] at hsession
        have hsame : (termSessionCb cfg now s ip).sessions.retrieve ip' =
          s.sessions.retrieve ip' := hsession
        rwa [hsame]
    obtain ⟨l, hl, hends, heach⟩ := ih hrest
    refine ⟨stopRecords cfg now s e (some "") .admin "" ++ l, ?_, ?_, ?_⟩
    · rw [← List.append_assoc, ← hchain, ← hl]
      rfl
    · intro r hr
      rcases List.mem_append.1 hr with hr | hr
      · exact (stopRecords_end hfound hr).1
      · have hend := hends r hr
        exact ⟨hend.scope_eq, hend.type_eq, by rw [hend.period_eq, hperiods],
          ((hreleased r.ip).1 hend.released).2, hend.anonymous⟩
    · intro hanonymous ip' hip' hreleased'
      by_cases hip : ip' = ip
      · obtain ⟨e₁, he₁, hstate⟩ := hreleased'
        rw [hip, hfound] at he₁
        obtain rfl := Option.some.inj he₁
        refine ⟨s.acctRecord e.ip .stop "" now, List.mem_append_left _ ?_, ?_⟩
        · unfold stopRecords
          rw [if_pos ⟨hstate, hanonymous⟩]
          exact List.mem_cons_self
        · have hkey : e.ip = ip := entry_key hfound
          exact hkey.trans hip.symm
      · obtain ⟨r, hr, hrip⟩ := heach hanonymous ip'
          ((List.mem_cons.1 hip').resolve_left hip) ((hreleased ip').2 ⟨hip, hreleased'⟩)
        exact ⟨r, List.mem_append_right _ hr, hrip⟩

end Stops

/-! ## The period of a released session is open -/

/-- No record is of a later period than its address is in, and none ends the period that a released
session is in. -/
structure OpenPeriods (b : Books) : Prop where
  le : ∀ r ∈ b.records, r.subject.period ≤ b.periods r.ip
  lt : ∀ ip st, b.standing ip = some st → st.state = .released → ∀ r ∈ b.records, r.ip = ip →
    r.type.IsStop → r.subject.period < b.periods ip

namespace OpenPeriods

variable {cfg : Config} {b b' : Books} {ip : UInt32} {call : SessionCall}

theorem init : OpenPeriods Controller.init.books where
  le := by rintro r ⟨⟩
  lt := by rintro ip st ⟨⟩

theorem takeId (h : OpenPeriods b) : OpenPeriods b.takeId := ⟨h.le, h.lt⟩

/-- When a period begins, those before it are over. -/
theorem lt_release (h : OpenPeriods b) {r : AcctEntry} (hr : r ∈ b.records) (hip : r.ip = ip) :
    r.subject.period < (b.release ip).periods ip := by
  have hle := h.le r hr
  rw [hip] at hle
  show r.subject.period < Function.update b.periods ip (b.periods ip + 1) ip
  rw [Function.update_self]
  omega

theorem release (h : OpenPeriods b) (ip : UInt32) : OpenPeriods (b.release ip) := by
  have hother : ∀ ip' ≠ ip, (b.release ip).periods ip' = b.periods ip' :=
    fun ip' hne => Function.update_of_ne hne ..
  constructor
  · intro r hr
    by_cases hip : r.ip = ip
    · rw [hip]
      exact (h.lt_release hr hip).le
    · rw [hother r.ip hip]
      exact h.le r hr
  · intro ip' st hst hreleased r hr hip hstop
    by_cases hne : ip' = ip
    · subst hne
      exact h.lt_release hr hip
    · rw [hother ip' hne]
      exact h.lt ip' st hst hreleased r hr hip hstop

/-- A session changes; if it is released, no record ends its period. -/
theorem set (h : OpenPeriods b) (st : Option Standing)
    (hst : ∀ st', st = some st' → st'.state = .released → ∀ r ∈ b.records, r.ip = ip →
      r.type.IsStop → r.subject.period < b.periods ip) : OpenPeriods (b.set ip st) :=
  ⟨h.le, Books.forall_set h.lt hst⟩

/-- A record is queued; if it ends a period, the session of the address is not released. -/
theorem submit {r : AcctEntry} (h : OpenPeriods b) (hle : r.subject.period ≤ b.periods r.ip)
    (hlt : r.type.IsStop → ∀ st, b.standing r.ip = some st → st.state ≠ .released) :
    OpenPeriods (b.submit r) := by
  constructor
  · intro r' hr'
    rw [Books.submit_records, List.mem_append, List.mem_singleton] at hr'
    rcases hr' with hr' | rfl
    · exact h.le r' hr'
    · exact hle
  · intro ip st hst hreleased r' hr' hip hstop
    rw [Books.submit_records, List.mem_append, List.mem_singleton] at hr'
    rcases hr' with hr' | rfl
    · exact h.lt ip st hst hreleased r' hr' hip hstop
    · rw [← hip] at hst
      exact absurd hreleased (hlt hstop st hst)

theorem opening (h : OpenPeriods b) (hopen : Opening cfg ip b b') : OpenPeriods b' := by
  cases hopen with
  | kept => exact h
  | opened hnone hfilter =>
    apply h.takeId.set
    rintro st' ⟨⟩ hreleased
    cases hreleased

/-- **Step lemma.** No call of the session module ends a period that goes on. -/
theorem acting (h : OpenPeriods b) (hact : Acting cfg ip b call b') : OpenPeriods b' := by
  cases hact with
  | nothing | lookup | refused | unknown | spared => exact h
  | @again filterName st filterId hst hstate hfilter =>
    apply h.set
    rintro st' ⟨⟩ -
    exact h.lt ip st hst hstate
  | @released filterName st filterId r hst hstate hfilter hr htype =>
    have hset : OpenPeriods ((b.release ip).set ip
        (some { st with state := .released, filterId })) := by
      apply (h.release ip).set
      rintro st' ⟨⟩ - r' hr' hip -
      exact h.lt_release hr' hip
    apply hset.submit
    · rw [hr.period_eq, hr.ip_eq]
      exact (Function.update_self ip (b.periods ip + 1) b.periods).ge
    · rintro (hstop | hstop) <;> rw [htype] at hstop <;> cases hstop
  | captive hst hstate =>
    apply h.set
    rintro st' ⟨⟩ hreleased
    cases hstate.symm.trans hreleased
  | @recaptured filterName st filterId r hst hstate hfilter hr htype =>
    have hset : OpenPeriods (b.takeId.set ip (some ⟨.captured, b.freshId,
        (stopFilterName cfg filterName st.dnFilterName).2, some filterId⟩)) := by
      apply h.takeId.set
      rintro st' ⟨⟩ hreleased
      cases hreleased
    apply hset.submit
    · rw [hr.period_eq, hr.ip_eq]
      exact le_rfl
    · rw [hr.ip_eq]
      rintro - st' hst' hreleased
      rw [Books.set_standing_self] at hst'
      cases hst'
      cases hreleased
  | silenced hst hstate hfilter =>
    apply h.takeId.set
    rintro st' ⟨⟩ hreleased
    cases hreleased
  | closed hst hstate =>
    apply h.set
    rintro st' ⟨⟩
  | @interim st r hst hstate hr htype =>
    apply h.submit
    · rw [hr.period_eq, hr.ip_eq]
    · rintro (hstop | hstop) <;> rw [htype] at hstop <;> cases hstop

/-- A pass over the queue changes nothing of that. -/
theorem acctCommit {now : ℤ} {s : Controller} {finalFlag : Bool} {accepts : ℕ → Bool}
    (h : OpenPeriods s.books) : OpenPeriods (acctCommit cfg now s finalFlag accepts).books := by
  have hold : ∀ r ∈ (Controller.acctCommit cfg now s finalFlag accepts).books.records,
      ∃ r' ∈ s.books.records, r'.ip = r.ip ∧ r'.type = r.type ∧ r'.subject = r.subject := by
    intro r hr
    rcases acctCommit_records hr with hwritten | ⟨r', hr', rfl⟩
    · exact ⟨r, Books.mem_records.2 (Or.inl hwritten), rfl, rfl, rfl⟩
    · obtain ⟨hip, htype, hsubject⟩ := @acctInitScope_frame cfg now s r'
      exact ⟨r', Books.mem_records.2 (Or.inr hr'), hip.symm, htype.symm, hsubject.symm⟩
  constructor
  · intro r hr
    obtain ⟨r', hr', hip, -, hsubject⟩ := hold r hr
    rw [← hip, ← hsubject]
    exact h.le r' hr'
  · intro ip st hst hreleased r hr hrip hstop
    obtain ⟨r', hr', hip, htype, hsubject⟩ := hold r hr
    rw [← hsubject]
    exact h.lt ip st hst hreleased r' hr' (hip.trans hrip) (htype ▸ hstop)

theorem exec {s : Controller} (h : OpenPeriods s.books) (ev : Event) :
    OpenPeriods (exec cfg s ev).books := by
  have hstep : BookStep cfg s ev (Controller.exec cfg s ev) := exec_bookStep s ev
  cases hstep with
  | commit hop hs' =>
    rw [hs']
    exact h.acctCommit
  | call hip hopen hthere hact => exact (h.opening hopen).acting hact

end OpenPeriods

/-- The last pass writes no record of an end. -/
theorem shutdown_fst {cfg : Config} {now : ℤ} {s : Controller} {order : List UInt32}
    (horder : ∀ ip ∈ order, (s.sessions.retrieve ip).isSome) (accepts : ℕ → Bool) :
    (shutdown cfg now s order accepts).1 = (lastLoop accepts 0 s.acctChain).1 := by
  obtain ⟨l, hl, hends, -⟩ := @sessionDestroy_chain cfg now s order horder
  rw [shutdown, hl]
  exact lastLoop_append 0 fun r hr => (hends r hr).scope_eq

/-- It gets to its end if all records had scopes and no session was released. -/
theorem shutdown_snd {cfg : Config} {now : ℤ} {s : Controller} {order : List UInt32}
    (horder : ∀ ip, ip ∈ order ↔ (s.sessions.retrieve ip).isSome) (accepts : ℕ → Bool) :
    (shutdown cfg now s order accepts).2 = true ↔
      (∀ r ∈ s.acctChain, r.scope ≠ []) ∧ (HasAnonymous cfg → ∀ ip, ¬ IsReleased s ip) := by
  obtain ⟨l, hl, hends, heach⟩ := @sessionDestroy_chain cfg now s order
    fun ip hip => (horder ip).1 hip
  rw [shutdown, hl, lastLoop_snd, List.forall_mem_append]
  refine and_congr_right fun _ => ?_
  constructor
  · rintro hscopes hanonymous ip hreleased
    obtain ⟨e, hfound, hstate⟩ := hreleased
    obtain ⟨r, hr, -⟩ := heach hanonymous ip ((horder ip).2 (Option.isSome_of_eq_some hfound))
      ⟨e, hfound, hstate⟩
    exact hscopes r hr (hends r hr).scope_eq
  · intro hnone r hr
    exact absurd (hends r hr).released (hnone (hends r hr).anonymous r.ip)

end Controller

open Controller

/-- **The daemon does not end well for those who are in.**  Whatever datagrams arrived and whatever
the daemon did: if it is shut down while no other thread is at work any more, the last pass over the
queue writes what is accepted of the records up to the first without scopes, and nothing that the
end of a session submitted.  The daemon dies in it, unless every record in the queue had scopes and
no session was released, or the filter for strangers is not loaded.  A session that was released has
its STOP in the queue then; but no record that ends its period was ever written. -/
theorem shutdown_loses (cfg : Config) (evs : List ServerEvent) (now : ℤ) {order : List UInt32}
    (horder : ∀ ip, ip ∈ order ↔
      ((evs.foldl (serverExec cfg) .init).ctl.sessions.retrieve ip).isSome)
    (accepts : ℕ → Bool) :
    let s := (evs.foldl (serverExec cfg) .init).ctl
    (shutdown cfg now s order accepts).1 =
        (((s.acctChain.takeWhile fun e => e.scope ≠ []).zipIdx).filter fun p => accepts p.2).map
          Prod.fst ∧
      ((shutdown cfg now s order accepts).2 = true ↔ (∀ r ∈ s.acctChain, r.scope ≠ []) ∧
        (HasAnonymous cfg → ∀ ip, ¬ IsReleased s ip)) ∧
      ∀ ip, IsReleased s ip →
        (HasAnonymous cfg → ∃ r ∈ (sessionDestroy cfg now s order).acctChain, r.ip = ip ∧
          r.type = .stop ∧ r.subject.period = s.ledger.periods ip) ∧
        ∀ r ∈ s.ledger.written ++ (shutdown cfg now s order accepts).1, r.ip = ip →
          r.type.IsStop → r.subject.period ≠ s.ledger.periods ip := by
  intro s
  have hsessions : ∀ ip ∈ order, (s.sessions.retrieve ip).isSome := fun ip hip => (horder ip).1 hip
  have hopen : OpenPeriods s.books := serverRun_invariant (P := fun s => OpenPeriods s.books)
    (fun _ ev h => h.exec ev) (fun _ _ h => h) .init evs
  have hwritten := @shutdown_fst cfg now s order hsessions accepts
  refine ⟨hwritten.trans (lastLoop_fst 0 _), shutdown_snd horder accepts, ?_⟩
  intro ip hreleased
  obtain ⟨e, hfound, hstate⟩ := hreleased
  refine ⟨?_, ?_⟩
  · intro hanonymous
    obtain ⟨l, hl, hends, heach⟩ := @sessionDestroy_chain cfg now s order hsessions
    obtain ⟨r, hr, rfl⟩ := heach hanonymous ip
      ((horder ip).2 (Option.isSome_of_eq_some hfound)) ⟨e, hfound, hstate⟩
    refine ⟨r, ?_, rfl, (hends r hr).type_eq, (hends r hr).period_eq⟩
    rw [hl]
    exact List.mem_append_right _ hr
  · intro r hr hrip hstop
    have hrecord : r ∈ s.books.records := by
      rcases List.mem_append.1 hr with hr | hr
      · exact Books.mem_records.2 (Or.inl hr)
      · rw [hwritten] at hr
        exact Books.mem_records.2 (Or.inr (mem_lastLoop hr))
    exact (hopen.lt ip _ (books_standing hfound) hstate r hrecord hrip hstop).ne

/-- The only user is let in, and the START is written. -/
def letInAndWritten : List ServerEvent :=
  [⟨0, .datagram [] upDatagram⟩, ⟨1, .chore (.commit false fun _ => true)⟩]

theorem shutdown_loses_upPaid :
    (shutdown oneUserConfig 9 (letInAndWritten.foldl (serverExec oneUserConfig) .init).ctl
      [0x0a000001] fun _ => true) = ([], false) := by
  have hitems : (letInAndWritten.foldl (serverExec oneUserConfig) .init).ctl.sessions.items.map
      SessionEntry.ip = [0x0a000001] := by decide +kernel
  have horder : ∀ ip, ip ∈ [0x0a000001] ↔
      ((letInAndWritten.foldl (serverExec oneUserConfig) .init).ctl.sessions.retrieve
        ip).isSome := by
    intro ip
    rw [← hitems, mem_map_ip_iff]
  obtain ⟨hwritten, hfinished, -⟩ := shutdown_loses oneUserConfig letInAndWritten 9 horder
    fun _ => true
  have hreleased : IsReleased (letInAndWritten.foldl (serverExec oneUserConfig) .init).ctl
      0x0a000001 := by
    have hany : ((letInAndWritten.foldl (serverExec oneUserConfig) .init).ctl.sessions.retrieve
        0x0a000001).any (fun e => e.state = .released) = true := by decide +kernel
    obtain ⟨e, he, hstate⟩ := (Option.any_eq_true _ _).1 hany
    exact ⟨e, he, of_decide_eq_true hstate⟩
  have hchain : (letInAndWritten.foldl (serverExec oneUserConfig) .init).ctl.acctChain = [] := by
    decide +kernel
  refine Prod.ext ?_ ?_
  · rw [hwritten, hchain]
    rfl
  · refine Bool.eq_false_iff.2 fun hdone => ?_
    exact (hfinished.1 hdone).2 (by unfold HasAnonymous; decide +kernel) 0x0a000001 hreleased

end Sweetspot
