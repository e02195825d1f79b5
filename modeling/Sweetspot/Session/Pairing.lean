import Sweetspot.Session.System

/-!
# Session ids of the records

The START and the stop record of a period are to carry the same session id, and records of different
periods different ones.  A record gets the id its session has when the next pass over the queue is
made, and each stop of a released session changes that id; so it depends on when the passes are
made.

* `Paired`: what the ids should be.
* `CommitReady`: the passes that make them so.
* `PairInv`: the invariant; a record that has an id had it before every record that has none was
  submitted.
* `paired_of_commitReady`: the ids are right all along a run whose passes are all such.
-/

namespace Sweetspot

open Controller

/-- The records of a period carry one session id, the records of other periods of the address carry
others. -/
structure Paired (records : List AcctEntry) : Prop where
  pair : ∀ r ∈ records, ∀ r' ∈ records, ∀ id ∈ r.sessionId, ∀ id' ∈ r'.sessionId,
    r.ip = r'.ip → r.subject.period = r'.subject.period → r.type = .start → r'.type.IsStop →
      id = id'
  apart : ∀ r ∈ records, ∀ r' ∈ records, ∀ id ∈ r.sessionId, ∀ id' ∈ r'.sessionId,
    r.ip = r'.ip → r.subject.period ≠ r'.subject.period → id ≠ id'

/-- The queue when a pass is made, as far as an address with a session goes. -/
structure Ready (b : Books) (ip : UInt32) (st : Standing) : Prop where
  /-- The records that wait for their id are of one period. -/
  one : ∀ r ∈ b.acctChain, ∀ r' ∈ b.acctChain, r.scope = [] → r'.scope = [] → r.ip = ip →
    r'.ip = ip → r.subject.period = r'.subject.period
  /-- No stop record waits when the START of its period has its id already. -/
  together : ∀ r ∈ b.acctChain, ∀ r' ∈ b.records, r.scope = [] → r.ip = ip → r'.ip = ip →
    r.type.IsStop → r'.type = .start → r.subject.period = r'.subject.period → r'.sessionId = none
  /-- If some wait while the session is released, its id was not given to an earlier period. -/
  fresh : ∀ r ∈ b.acctChain, ∀ r' ∈ b.records, r.scope = [] → r.ip = ip → r'.ip = ip →
    st.state = .released → r'.subject.period < b.periods ip → r'.sessionId ≠ some st.sessionId

/-- If the event is a pass, the queue is ready for it. -/
def CommitReady (s : Controller) (ev : Event) : Prop :=
  ev.op.ip = none → ∀ ip st, s.books.standing ip = some st → Ready s.books ip st

/-- The id counter does not wrap. -/
def NoWrap (s : Controller) (_ev : Event) : Prop := s.sourceSessionId < 0x7fffffff

instance (s : Controller) (ev : Event) : Decidable (NoWrap s ev) :=
  inferInstanceAs (Decidable (_ < _))

theorem sessionId_of_scope {r : AcctEntry} (h : r.scope = []) : r.sessionId = none := by
  rw [AcctEntry.sessionId, h]
  rfl

/-! ## The invariant -/

/-- Where the ids are, how far the periods are, and which records wait. -/
structure PairInv (b : Books) : Prop where
  standing_lt : ∀ ip st, b.standing ip = some st → st.sessionId < b.sourceSessionId
  record_lt : ∀ r ∈ b.records, ∀ id ∈ r.sessionId, id < b.sourceSessionId
  period_le : ∀ r ∈ b.records, r.subject.period ≤ b.periods r.ip
  /-- Records with an id are not of a later period than those that wait; a START that waits is of
  a later period. -/
  ordered : ∀ r ∈ b.acctChain, r.scope = [] → ∀ r' ∈ b.records, r'.sessionId.isSome →
    r'.ip = r.ip → r'.subject.period ≤ r.subject.period ∧
      (r.type = .start → r'.subject.period < r.subject.period)
  /-- No record waits once the id of a captured session was given to one. -/
  settled : ∀ ip st, b.standing ip = some st → st.state = .captured → ∀ r' ∈ b.records,
    r'.ip = ip → r'.sessionId = some st.sessionId → ∀ r ∈ b.acctChain, r.ip = ip → r.scope ≠ []
  paired : Paired b.records

namespace PairInv

variable {b : Books} {ip : UInt32}

theorem init : PairInv Controller.init.books where
  standing_lt := by rintro ip st ⟨⟩
  record_lt := by rintro r ⟨⟩
  period_le := by rintro r ⟨⟩
  ordered := by rintro r ⟨⟩
  settled := by rintro ip st ⟨⟩
  paired := ⟨by rintro r ⟨⟩, by rintro r ⟨⟩⟩

/-- The counter goes up. -/
theorem lt_takeId (hwrap : b.sourceSessionId < 0x7fffffff) {id : UInt32}
    (h : id < b.sourceSessionId) : id < b.takeId.sourceSessionId := by
  have hnot : ¬ b.sourceSessionId ≥ 0x7fffffff := by simpa using hwrap
  show id < (nextSessionId b.sourceSessionId).2
  rw [nextSessionId, if_neg hnot]
  show id < b.sourceSessionId + 1
  rw [UInt32.lt_iff_toNat_lt] at h hwrap ⊢
  rw [UInt32.toNat_add]
  simp at hwrap ⊢
  omega

/-- The next id is the counter. -/
theorem freshId_eq (hwrap : b.sourceSessionId < 0x7fffffff) : b.freshId = b.sourceSessionId := by
  have hnot : ¬ b.sourceSessionId ≥ 0x7fffffff := by simpa using hwrap
  rw [Books.freshId, nextSessionId, if_neg hnot]

theorem freshId_lt (hwrap : b.sourceSessionId < 0x7fffffff) :
    b.freshId < b.takeId.sourceSessionId := by
  have hnot : ¬ b.sourceSessionId ≥ 0x7fffffff := by simpa using hwrap
  rw [freshId_eq hwrap]
  show b.sourceSessionId < (nextSessionId b.sourceSessionId).2
  rw [nextSessionId, if_neg hnot]
  show b.sourceSessionId < b.sourceSessionId + 1
  rw [UInt32.lt_iff_toNat_lt] at hwrap ⊢
  rw [UInt32.toNat_add]
  simp at hwrap ⊢
  omega

/-- The next id was given to no record. -/
theorem freshId_ne (h : PairInv b) (hwrap : b.sourceSessionId < 0x7fffffff) {r : AcctEntry}
    (hr : r ∈ b.records) : r.sessionId ≠ some b.freshId := by
  intro hid
  have hlt := h.record_lt r hr b.freshId hid
  rw [freshId_eq hwrap] at hlt
  exact absurd hlt (UInt32.lt_irrefl _)

/-- An id is taken. -/
theorem takeId (h : PairInv b) (hwrap : b.sourceSessionId < 0x7fffffff) : PairInv b.takeId where
  standing_lt ip st hst := lt_takeId hwrap (h.standing_lt ip st hst)
  record_lt r hr id hid := lt_takeId hwrap (h.record_lt r hr id hid)
  period_le := h.period_le
  ordered := h.ordered
  settled := h.settled
  paired := h.paired

/-- A period begins. -/
theorem release (h : PairInv b) (ip : UInt32) : PairInv (b.release ip) where
  standing_lt := h.standing_lt
  record_lt := h.record_lt
  period_le := by
    intro r hr
    have hle := h.period_le r hr
    show r.subject.period ≤ Function.update b.periods ip (b.periods ip + 1) r.ip
    rw [Function.update_apply]
    by_cases hip : r.ip = ip
    · rw [if_pos hip, ← hip]
      omega
    · rwa [if_neg hip]
  ordered := h.ordered
  settled := h.settled
  paired := h.paired

/-- A session changes; if it is captured, no record waits once its id was given to one. -/
theorem set (h : PairInv b) (st : Option Standing)
    (hlt : ∀ st', st = some st' → st'.sessionId < b.sourceSessionId)
    (hsettled : ∀ st', st = some st' → st'.state = .captured → ∀ r' ∈ b.records, r'.ip = ip →
      r'.sessionId = some st'.sessionId → ∀ r ∈ b.acctChain, r.ip = ip → r.scope ≠ []) :
    PairInv (b.set ip st) where
  standing_lt := Books.forall_set h.standing_lt hlt
  record_lt := h.record_lt
  period_le := h.period_le
  ordered := h.ordered
  settled := Books.forall_set h.settled hsettled
  paired := h.paired

/-- A record is queued that is not older than those with an id; a captured session of its address
has an id that was given to none. -/
theorem submit {r : AcctEntry} (h : PairInv b) (hscope : r.scope = [])
    (hperiod : r.subject.period ≤ b.periods r.ip)
    (hordered : ∀ r' ∈ b.records, r'.sessionId.isSome → r'.ip = r.ip →
      r'.subject.period ≤ r.subject.period ∧
        (r.type = .start → r'.subject.period < r.subject.period))
    (hsettled : ∀ st, b.standing r.ip = some st → st.state = .captured → ∀ r' ∈ b.records,
      r'.sessionId ≠ some st.sessionId) :
    PairInv (b.submit r) := by
  have hid := sessionId_of_scope hscope
  -- the new record is among the others, but has no id
  have hrecords : ∀ r' ∈ (b.submit r).records, r'.sessionId.isSome → r' ∈ b.records := by
    intro r' hr' hsome
    rw [Books.submit_records, List.mem_append, List.mem_singleton] at hr'
    rcases hr' with hr' | rfl
    · exact hr'
    · rw [hid] at hsome
      cases hsome
  constructor
  · exact h.standing_lt
  · intro r' hr' id hid'
    exact h.record_lt r' (hrecords r' hr' (by rw [hid']; rfl)) id hid'
  · intro r' hr'
    rw [Books.submit_records, List.mem_append, List.mem_singleton] at hr'
    rcases hr' with hr' | rfl
    · exact h.period_le r' hr'
    · exact hperiod
  · intro r₀ hr₀ hscope₀ r' hr' hsome hip
    rcases List.mem_append.1 hr₀ with hr₀ | hr₀
    · exact h.ordered r₀ hr₀ hscope₀ r' (hrecords r' hr' hsome) hsome hip
    · obtain rfl := List.mem_singleton.1 hr₀
      exact hordered r' (hrecords r' hr' hsome) hsome hip
  · intro ip st hst hcaptured r' hr' hip hid' r₀ hr₀ hip₀
    have hr'' := hrecords r' hr' (by rw [hid']; rfl)
    rcases List.mem_append.1 hr₀ with hr₀ | hr₀
    · exact h.settled ip st hst hcaptured r' hr'' hip hid' r₀ hr₀ hip₀
    · obtain rfl := List.mem_singleton.1 hr₀
      subst hip₀
      exact absurd hid' (hsettled st hst hcaptured r' hr'')
  · constructor
    · intro r₁ hr₁ r₂ hr₂ id₁ hid₁ id₂ hid₂
      exact h.paired.pair r₁ (hrecords r₁ hr₁ (by rw [hid₁]; rfl)) r₂
        (hrecords r₂ hr₂ (by rw [hid₂]; rfl)) id₁ hid₁ id₂ hid₂
    · intro r₁ hr₁ r₂ hr₂ id₁ hid₁ id₂ hid₂
      exact h.paired.apart r₁ (hrecords r₁ hr₁ (by rw [hid₁]; rfl)) r₂
        (hrecords r₂ hr₂ (by rw [hid₂]; rfl)) id₁ hid₁ id₂ hid₂

/-! ## One event -/

variable {cfg : Config} {b' : Books} {call : SessionCall}

/-- A session opened or captured anew has an id that was given to none. -/
theorem takeId_set (h : PairInv b) (hwrap : b.sourceSessionId < 0x7fffffff) {st : Standing}
    (hst : st.sessionId = b.freshId) : PairInv (b.takeId.set ip (some st)) := by
  apply (h.takeId hwrap).set
  · rintro st' ⟨⟩
    rw [hst]
    exact freshId_lt hwrap
  · rintro st' ⟨⟩ - r' hr' - hid
    rw [hst] at hid
    exact absurd hid (h.freshId_ne hwrap hr')

/-- A record of the current period that does not begin one is not older than any other. -/
theorem ordered_of_ne_start (h : PairInv b) {r : AcctEntry} (hr : NewRecord ip (b.periods ip) r)
    (htype : r.type ≠ .start) {r' : AcctEntry} (hr' : r' ∈ b.records) (hip : r'.ip = r.ip) :
    r'.subject.period ≤ r.subject.period ∧
      (r.type = .start → r'.subject.period < r.subject.period) := by
  have hle := h.period_le r' hr'
  rw [hip, hr.ip_eq] at hle
  rw [hr.period_eq]
  exact ⟨hle, fun hstart => absurd hstart htype⟩

theorem opening (h : PairInv b) (hwrap : b.sourceSessionId < 0x7fffffff)
    (hopen : Opening cfg ip b b') : PairInv b' := by
  cases hopen with
  | kept => exact h
  | opened hnone hfilter => exact h.takeId_set hwrap rfl

/-- **Step lemma.** No call of the session module breaks the invariant; only for a released session
may it take an id. -/
theorem acting (h : PairInv b)
    (hnoWrap : ∀ st, b.standing ip = some st → st.state = .released →
      b.sourceSessionId < 0x7fffffff)
    (hact : Acting cfg ip b call b') : PairInv b' := by
  cases hact with
  | nothing | lookup | refused | unknown | spared => exact h
  | @again filterName st filterId hst hstate hfilter =>
    apply h.set
    · rintro st' ⟨⟩
      exact h.standing_lt ip st hst
    · rintro st' ⟨⟩ hcaptured
      simp [hstate] at hcaptured
  | @released filterName st filterId r hst hstate hfilter hr htype =>
    have hset : PairInv ((b.release ip).set ip
        (some { st with state := .released, filterId })) := by
      apply (h.release ip).set
      · rintro st' ⟨⟩
        exact h.standing_lt ip st hst
      · rintro st' ⟨⟩ hcaptured
        cases hcaptured
    apply hset.submit hr.scope_eq
    · rw [hr.period_eq, hr.ip_eq]
      exact (Function.update_self ip (b.periods ip + 1) b.periods).ge
    · rintro r' hr' - hip
      have hle := h.period_le r' hr'
      rw [hip, hr.ip_eq] at hle
      rw [hr.period_eq]
      exact ⟨by omega, fun _ => by omega⟩
    · rw [hr.ip_eq]
      intro st' hst' hcaptured
      rw [Books.set_standing_self] at hst'
      cases hst'
      cases hcaptured
  | @captive filterName st hst hstate =>
    apply h.set
    · rintro st' ⟨⟩
      exact h.standing_lt ip st hst
    · rintro st' ⟨⟩ -
      exact h.settled ip st hst hstate
  | @recaptured filterName st filterId r hst hstate hfilter hr htype =>
    have hwrap := hnoWrap st hst hstate
    have hset : PairInv (b.takeId.set ip (some ⟨.captured, b.freshId,
        (stopFilterName cfg filterName st.dnFilterName).2, some filterId⟩)) :=
      h.takeId_set hwrap rfl
    apply hset.submit hr.scope_eq
    · rw [hr.period_eq, hr.ip_eq]
      exact le_rfl
    · rintro r' hr' - hip
      refine h.ordered_of_ne_start hr ?_ hr' hip
      rcases htype with htype | htype <;> simp [htype]
    · rw [hr.ip_eq]
      rintro st' hst' - r' hr'
      rw [Books.set_standing_self] at hst'
      cases hst'
      exact h.freshId_ne hwrap hr'
  | @silenced filterName st hst hstate hfilter => exact h.takeId_set (hnoWrap st hst hstate) rfl
  | closed hst hstate =>
    apply h.set
    · rintro st' ⟨⟩
    · rintro st' ⟨⟩
  | @interim st r hst hstate hr htype =>
    apply h.submit hr.scope_eq
    · rw [hr.period_eq, hr.ip_eq]
    · rintro r' hr' - hip
      exact h.ordered_of_ne_start hr (by simp [htype]) hr' hip
    · rw [hr.ip_eq]
      intro st' hst' hcaptured
      rw [hst] at hst'
      cases hst'
      rw [hstate] at hcaptured
      cases hcaptured

end PairInv

/-! ## A pass over the queue -/

section Commit

variable {cfg : Config} {now : ℤ} {s : Controller} {finalFlag : Bool} {accepts : ℕ → Bool}

/-- Where the id of a record comes from that has one after a pass: the record had it before, or it
waited and has the id of its session. -/
inductive IdSource (s : Controller) (r : AcctEntry) (id : UInt32) : Prop
  | before (hr : r ∈ s.books.records)
  | now {e : AcctEntry} {st : Standing} (he : e ∈ s.acctChain) (hscope : e.scope = [])
    (hip : r.ip = e.ip) (htype : r.type = e.type) (hsubject : r.subject = e.subject)
    (hst : s.books.standing e.ip = some st) (hid : st.sessionId = id)

theorem idSource_acctCommit {r : AcctEntry} {id : UInt32}
    (hr : r ∈ (acctCommit cfg now s finalFlag accepts).books.records)
    (hid : r.sessionId = some id) : IdSource s r id := by
  rcases acctCommit_records hr with hwritten | ⟨e, he, rfl⟩
  · exact .before (Books.mem_records.2 (Or.inl hwritten))
  · by_cases hscope : e.scope = []
    · obtain ⟨hip, htype, hsubject⟩ := @acctInitScope_frame cfg now s e
      rw [acctInitScope_sessionId hscope] at hid
      obtain ⟨⟨e', filterName⟩, hstatus, hid'⟩ := Option.map_eq_some_iff.1 hid
      have hfound : s.sessions.retrieve e.ip = some e' := by
        unfold sessionStatusNonblock at hstatus
        cases h : s.sessions.retrieve e.ip with
        | none => simp [h] at hstatus
        | some e'' =>
          simp only [h, Option.map_eq_some_iff, Prod.mk.injEq] at hstatus
          obtain ⟨_, -, rfl, -⟩ := hstatus
          rfl
      exact .now he hscope hip htype hsubject (books_standing hfound) hid'
    · rw [acctInitScope_of_ne hscope]
      exact .before (Books.mem_records.2 (Or.inr he))

/-- The id of a session is not that of another period when a record waits for it. -/
theorem not_given (h : PairInv s.books)
    (hready : ∀ ip st, s.books.standing ip = some st → Ready s.books ip st)
    {e r : AcctEntry} {st : Standing} (he : e ∈ s.acctChain) (hscope : e.scope = [])
    (hst : s.books.standing e.ip = some st) (hr : r ∈ s.books.records) (hip : r.ip = e.ip)
    (hid : r.sessionId = some st.sessionId) (hperiod : r.subject.period ≠ e.subject.period) :
    False := by
  cases hstate : st.state with
  | captured =>
    -- no record would wait
    exact h.settled e.ip st hst hstate r hr hip hid e he rfl hscope
  | released =>
    have hle : r.subject.period ≤ e.subject.period :=
      (h.ordered e he hscope r hr (by rw [hid]; rfl) hip).1
    have hle' : e.subject.period ≤ s.books.periods e.ip :=
      h.period_le e (Books.mem_records.2 (Or.inr he))
    have hlt : r.subject.period < s.books.periods e.ip := by omega
    exact (hready e.ip st hst).fresh e he r hr hscope rfl hip hstate hlt hid

/-- **A pass the queue is ready for** gives the ids as they should be. -/
theorem paired_acctCommit (h : PairInv s.books)
    (hready : ∀ ip st, s.books.standing ip = some st → Ready s.books ip st) :
    Paired (acctCommit cfg now s finalFlag accepts).books.records := by
  constructor
  · intro r hr r' hr' id hid id' hid' hip hperiod hstart hstop
    rcases idSource_acctCommit hr hid with hr | ⟨he, hscope, heip, hetype, hesubject, hst, heid⟩
    · rcases idSource_acctCommit hr' hid' with hr' |
        ⟨he', hscope', heip', hetype', hesubject', hst', heid'⟩
      · exact h.paired.pair r hr r' hr' id hid id' hid' hip hperiod hstart hstop
      · -- the stop gets its id after its start
        have hnone := (hready _ _ hst').together _ he' r hr hscope' rfl (hip.trans heip')
          (hetype' ▸ hstop) hstart (by rw [← hesubject', hperiod])
        rw [hid] at hnone
        cases hnone
    · rcases idSource_acctCommit hr' hid' with hr' |
        ⟨he', hscope', heip', hetype', hesubject', hst', heid'⟩
      · -- the start would wait when the stop has its id
        have hlt := (h.ordered _ he hscope r' hr' (by rw [hid']; rfl)
          (hip.symm.trans heip)).2 (hetype ▸ hstart)
        rw [← hesubject, hperiod] at hlt
        exact absurd hlt (lt_irrefl _)
      · rw [← heid, ← heid']
        rw [← heip, hip, heip', hst'] at hst
        cases hst
        rfl
  · rintro r hr r' hr' id hid id' hid' hip hperiod rfl
    rcases idSource_acctCommit hr hid with hr | ⟨he, hscope, heip, hetype, hesubject, hst, heid⟩
    · rcases idSource_acctCommit hr' hid' with hr' |
        ⟨he', hscope', heip', hetype', hesubject', hst', heid'⟩
      · exact h.paired.apart r hr r' hr' id hid id hid' hip hperiod rfl
      · exact not_given h hready he' hscope' hst' hr (hip.trans heip') (by rw [hid, heid'])
          (by rw [← hesubject']; exact hperiod)
    · rcases idSource_acctCommit hr' hid' with hr' |
        ⟨he', hscope', heip', hetype', hesubject', hst', heid'⟩
      · exact not_given h hready he hscope hst hr' (hip.symm.trans heip) (by rw [hid', heid])
          (by rw [← hesubject]; exact hperiod.symm)
      · rw [hesubject, hesubject'] at hperiod
        exact hperiod ((hready _ _ hst).one _ he _ he' hscope hscope' rfl
          (heip'.symm.trans (hip.symm.trans heip)))

/-- A pass the queue is ready for keeps the invariant. -/
theorem pairInv_acctCommit (h : PairInv s.books)
    (hready : ∀ ip st, s.books.standing ip = some st → Ready s.books ip st) :
    PairInv (acctCommit cfg now s finalFlag accepts).books where
  standing_lt := h.standing_lt
  record_lt := by
    intro r hr id hid
    rcases idSource_acctCommit hr hid with hr | ⟨-, -, -, -, -, hst, rfl⟩
    · exact h.record_lt r hr id hid
    · exact h.standing_lt _ _ hst
  period_le := by
    intro r hr
    rcases acctCommit_records hr with hwritten | ⟨e, he, rfl⟩
    · exact h.period_le r (Books.mem_records.2 (Or.inl hwritten))
    · obtain ⟨hip, -, hsubject⟩ := @acctInitScope_frame cfg now s e
      rw [hip, hsubject]
      exact h.period_le e (Books.mem_records.2 (Or.inr he))
  ordered r hr hscope := absurd hscope (acctCommit_chain hr)
  settled ip st _ _ r' _ _ _ r hr _ := acctCommit_chain hr
  paired := paired_acctCommit h hready

end Commit

/-! ## Runs -/

section Runs

variable {cfg : Config} {s s' : Controller} {ev : Event}

theorem pairInv_step (hstep : Step cfg (fun _ => True) s ev s')
    (hguard : NoWrap s ev ∧ CommitReady s ev) (h : PairInv s.books) : PairInv s'.books := by
  obtain ⟨-, rfl⟩ := hstep
  obtain ⟨hwrap, hready⟩ := hguard
  cases @exec_bookStep cfg s ev with
  | commit hop hs' =>
    rw [hs']
    exact pairInv_acctCommit h (hready (by rw [hop]; rfl))
  | call hip hopen hthere hact =>
    apply (h.opening hwrap hopen).acting ?_ hact
    intro st hst hstate
    cases hopen with
    | kept => exact hwrap
    | opened hnone hfilter =>
      -- a session just opened is not released
      rw [Books.set_standing_self] at hst
      cases hst
      cases hstate

/-- **Session ids.** As long as the id counter does not wrap, the ids of the records pair up all
along a run in which every pass over the queue finds, for each address with a session, only records
of one period waiting, no stop whose START has its id already, and, if the session is released, an
id that no earlier period was given. -/
theorem paired_of_commitReady {evs : List Event}
    (hguard : Run.Guarded (Step cfg fun _ => True) (fun s ev => NoWrap s ev ∧ CommitReady s ev)
      init evs) :
    Run.Always (Step cfg fun _ => True) (fun s => Paired s.books.records) init evs := by
  rintro pre post s' rfl hpre
  refine (hpre.invariant_of_guarded (P := fun s => PairInv s.books) ?_ hguard.of_append
    PairInv.init).paired
  intro s ev s' hstep hready h
  exact pairInv_step hstep hready h

/-- Let in and sent back before the next pass. -/
theorem paired_of_commitReady_upDown :
    Run.Always (Step oneUserConfig fun _ => True) (fun s => Paired s.books.records) init
      [upPaid, downUser, commitAll] := by
  apply paired_of_commitReady
  refine guarded_step ⟨by decide +kernel, ?_⟩ (guarded_step ⟨by decide +kernel, ?_⟩
    (guarded_step ⟨by decide +kernel, ?_⟩ (Run.guarded_nil _)))
  · rintro ⟨⟩
  · rintro ⟨⟩
  · rintro - ip st -
    have hone : ∀ r ∈ ([upPaid, downUser].foldl (exec oneUserConfig) init).acctChain,
        r.subject.period = 1 := by
      decide +kernel
    have hnone : ∀ r ∈ ([upPaid, downUser].foldl (exec oneUserConfig) init).books.records,
        r.sessionId = none := by
      decide +kernel
    constructor
    · intro r hr r' hr' _ _ _ _
      exact (hone r hr).trans (hone r' hr').symm
    · intro r hr r' hr' _ _ _ _ _ _
      exact hnone r' hr'
    · intro r hr r' hr' _ _ _ _ _ hid
      rw [hnone r' hr'] at hid
      cases hid

/-- Let in before a pass and sent back before the next, the user's records carry two ids. -/
theorem paired_split :
    ¬ ∀ cfg evs s, Run (Step cfg fun op => ¬ op.IsBare) init evs s →
      Run.Guarded (Step cfg fun op => ¬ op.IsBare) NoWrap init evs → Paired s.books.records := by
  intro h
  have hpaired := h oneUserConfig [upPaid, commitAll, downUser, commitAll] _
    (run_foldl init (by decide))
    (guarded_step (by decide +kernel) (guarded_step (by decide +kernel)
      (guarded_step (by decide +kernel) (guarded_step (by decide +kernel) (Run.guarded_nil _)))))
  obtain ⟨l, hl⟩ : ∃ l, l = ([upPaid, commitAll, downUser, commitAll].foldl (exec oneUserConfig)
    init).books.records := ⟨_, rfl⟩
  have hfound : ∃ r ∈ l, ∃ r' ∈ l, r.sessionId = some 1 ∧ r'.sessionId = some 2 ∧
      r.ip = r'.ip ∧ r.subject.period = r'.subject.period ∧ r.type = .start ∧
        r'.type.IsStop := by
    rw [hl]
    decide +kernel
  obtain ⟨r, hr, r', hr', hid, hid', hip, hperiod, hstart, hstop⟩ := hfound
  rw [← hl] at hpaired
  have heq := hpaired.pair r hr r' hr' 1 hid 2 hid' hip hperiod hstart hstop
  exact absurd heq (by decide)

end Runs

end Sweetspot
