import Sweetspot.Session.System

/-!
# Totals of the records

A stop record is to report what the gauge counted in the period it ends.  The record reads the gauge
only when the next pass over the queue is made; by then the stop has deleted the gauge, unless the
address was let in again and has a new one.  Without a gauge the record is written by a later pass
with no totals at all, and a STOP_TIME record never gets any.

* `TotalsReported`: what the written records should say.
* `TotalsReady`: the passes that make them say so.
* `totalsReported_of_totalsReady`: the totals are right all along a run whose passes are all such.
-/

namespace Sweetspot

open Controller

/-- Every stop record that was written reports what was counted in its period. -/
def TotalsReported (s : Controller) : Prop :=
  ∀ r ∈ s.ledger.written, r.type.IsStop → r.reported = some r.subject.totals

/-- If the event is a pass over the queue, each stop record that waits finds a session and a gauge
of its address; the gauge still shows what was counted in the period, or nothing was if the record
is of type STOP_TIME; and the detail file can show it. -/
def TotalsReady (s : Controller) (ev : Event) : Prop :=
  ev.op.ip = none → ∀ r ∈ s.acctChain, r.scope = [] → r.type.IsStop →
    (s.sessions.retrieve r.ip).isSome ∧
      ∃ g, s.gauges.retrieve r.ip = some g ∧
        r.subject.totals = (if r.type = .stop then g.totals else .zero) ∧ r.subject.totals.Shown

/-! ## The filter of a session has a name -/

/-- The filter of every session has a name, so that its records can tell it. -/
def AllNamed (cfg : Config) (b : Books) : Prop :=
  ∀ ip st, b.standing ip = some st → (filterGetName cfg.filters st.filterId).isSome

section Named

variable {cfg : Config} {ip : UInt32} {b b' : Books} {call : SessionCall}

theorem named_of_filterGetId {name : String} {filterId : FilterSlot}
    (h : filterGetId cfg.filters name = some filterId) :
    (filterGetName cfg.filters (some filterId)).isSome := by
  rw [filterGetName_of_filterGetId h, Option.isSome_some]

theorem named_of_startFilterId {name : String} {filterId : FilterId}
    (h : startFilterId cfg name = some filterId) :
    (filterGetName cfg.filters filterId).isSome := by
  rw [startFilterId] at h
  by_cases hname : name = ""
  · rw [if_pos hname] at h
    cases h
    rfl
  · rw [if_neg hname] at h
    obtain ⟨slot, hslot, rfl⟩ := Option.map_eq_some_iff.1 h
    exact named_of_filterGetId hslot

theorem allNamed_opening (hopen : Opening cfg ip b b') (h : AllNamed cfg b) : AllNamed cfg b' := by
  cases hopen with
  | kept => exact h
  | opened hnone hfilter =>
    apply Books.forall_set h
    rintro st ⟨⟩
    exact named_of_filterGetId hfilter

theorem allNamed_acting (hact : Acting cfg ip b call b') (h : AllNamed cfg b) :
    AllNamed cfg b' := by
  cases hact with
  | nothing | lookup | refused | unknown | spared | interim => exact h
  | again hst hstate hfilter =>
    apply Books.forall_set h
    rintro st' ⟨⟩
    exact named_of_startFilterId hfilter
  | released hst hstate hfilter hr htype =>
    apply Books.forall_set h
    rintro st' ⟨⟩
    exact named_of_startFilterId hfilter
  | @captive filterName st hst hstate =>
    apply Books.forall_set h
    rintro st' ⟨⟩
    cases hfilter : filterGetId cfg.filters
      (stopFilterName cfg filterName st.dnFilterName).1 with
    | none => exact h ip st hst
    | some filterId => exact named_of_filterGetId hfilter
  | recaptured hst hstate hfilter hr htype =>
    apply Books.forall_set h
    rintro st' ⟨⟩
    exact named_of_filterGetId hfilter
  | @silenced filterName st hst hstate hfilter =>
    apply Books.forall_set h
    rintro st' ⟨⟩
    exact h ip st hst
  | closed hst hstate =>
    apply Books.forall_set h
    rintro st' ⟨⟩

end Named

/-! ## The invariant -/

/-- A stop record that has scopes reports what was counted in its period. -/
structure TotalsInv (cfg : Config) (b : Books) : Prop where
  named : AllNamed cfg b
  scope_ne : ∀ r ∈ b.written, r.scope ≠ []
  reported : ∀ r ∈ b.records, r.scope ≠ [] → r.type.IsStop → r.reported = some r.subject.totals

section Event

variable {cfg : Config} {ip : UInt32} {b b' : Books} {call : SessionCall} {now : ℤ}
  {s s' : Controller} {ev : Event}

/-- Opening a session is no business of the queue. -/
theorem records_opening (hopen : Opening cfg ip b b') :
    b'.written = b.written ∧ b'.records = b.records := by
  cases hopen with
  | kept => exact ⟨rfl, rfl⟩
  | opened => exact ⟨rfl, rfl⟩

/-- Whatever a call queues has no scopes yet. -/
theorem records_acting (hact : Acting cfg ip b call b') :
    b'.written = b.written ∧ ∀ r ∈ b'.records, r.scope ≠ [] → r ∈ b.records := by
  have hsubmit : ∀ r : AcctEntry, r.scope = [] → ∀ r' ∈ (b.submit r).records, r'.scope ≠ [] →
      r' ∈ b.records := by
    intro r hscope r' hr' hne
    rw [Books.submit_records, List.mem_append, List.mem_singleton] at hr'
    rcases hr' with hr' | rfl
    · exact hr'
    · exact absurd hscope hne
  cases hact with
  | nothing | lookup | refused | unknown | spared | again | captive | silenced | closed =>
    exact ⟨rfl, fun r hr _ => hr⟩
  | released hst hstate hfilter hr htype => exact ⟨rfl, hsubmit _ hr.scope_eq⟩
  | recaptured hst hstate hfilter hr htype => exact ⟨rfl, hsubmit _ hr.scope_eq⟩
  | interim hst hstate hr htype => exact ⟨rfl, hsubmit _ hr.scope_eq⟩

/-- A stop record that finds its gauge as the stop left it reports the totals of its period. -/
theorem reported_acctInitScope {r : AcctEntry} (hnamed : AllNamed cfg s.books)
    (hscope : r.scope = []) (hstop : r.type.IsStop) (hsession : (s.sessions.retrieve r.ip).isSome)
    {g : GaugeEntry} (hgauge : s.gauges.retrieve r.ip = some g)
    (htotals : r.subject.totals = if r.type = .stop then g.totals else .zero)
    (hshown : r.subject.totals.Shown) :
    (acctInitScope cfg now s r).1.reported = some r.subject.totals := by
  obtain ⟨e, he⟩ := Option.isSome_iff_exists.1 hsession
  obtain ⟨filterName, hname⟩ :=
    Option.isSome_iff_exists.1 (hnamed r.ip e.standing (books_standing he))
  have hstatus : sessionStatusNonblock cfg s r.ip = some (e, filterName) := by
    have hname' : filterGetName cfg.filters e.filterId = some filterName := hname
    rw [sessionStatusNonblock, he]
    show (filterGetName cfg.filters e.filterId).map _ = _
    rw [hname', Option.map_some]
  have hscopeTotals : (gaugeScope now g r.type).totals = r.subject.totals := by
    rw [gaugeScope_totals, htotals]
    rcases hstop with hstop | hstop <;> simp [hstop]
  rw [acctInitScope_reported hscope, hstatus, hgauge, Option.bind_some, Option.bind_some,
    ← hscopeTotals, detailGauge_totals, hscopeTotals]
  · exact hshown
  · rw [gaugeScope_type]
    exact Or.inr hstop

theorem totalsInv_acctCommit {finalFlag : Bool} {accepts : ℕ → Bool} (h : TotalsInv cfg s.books)
    (hready : ∀ r ∈ s.acctChain, r.scope = [] → r.type.IsStop →
      (s.sessions.retrieve r.ip).isSome ∧
        ∃ g, s.gauges.retrieve r.ip = some g ∧
          r.subject.totals = (if r.type = .stop then g.totals else .zero) ∧
            r.subject.totals.Shown) :
    TotalsInv cfg (acctCommit cfg now s finalFlag accepts).books where
  named := h.named
  scope_ne := by
    intro r hr
    rcases acctCommit_records (Books.mem_records.2 (Or.inl hr)) with hwritten | ⟨e, he, rfl⟩
    · exact h.scope_ne r hwritten
    · exact acctInitScope_scope_ne e
  reported := by
    intro r hr hne hstop
    rcases acctCommit_records hr with hwritten | ⟨e, he, rfl⟩
    · exact h.reported r (Books.mem_records.2 (Or.inl hwritten)) hne hstop
    · by_cases hscope : e.scope = []
      · obtain ⟨hip, htype, hsubject⟩ := @acctInitScope_frame cfg now s e
        rw [htype] at hstop
        obtain ⟨hsession, g, hgauge, htotals, hshown⟩ := hready e he hscope hstop
        rw [hsubject]
        exact reported_acctInitScope h.named hscope hstop hsession hgauge htotals hshown
      · rw [acctInitScope_of_ne hscope] at hstop ⊢
        exact h.reported e (Books.mem_records.2 (Or.inr he)) hscope hstop

/-- **Step lemma.** Only a pass the queue is not ready for breaks the invariant. -/
theorem totalsInv_step (hstep : Step cfg (fun _ => True) s ev s') (hready : TotalsReady s ev)
    (h : TotalsInv cfg s.books) : TotalsInv cfg s'.books := by
  obtain ⟨-, rfl⟩ := hstep
  cases @exec_bookStep cfg s ev with
  | commit hop hs' =>
    rw [hs']
    exact totalsInv_acctCommit h (hready (by rw [hop]; rfl))
  | call hip hopen hthere hact =>
    obtain ⟨hwritten, hrecords⟩ := records_opening hopen
    obtain ⟨hwritten', hrecords'⟩ := records_acting hact
    constructor
    · exact allNamed_acting hact (allNamed_opening hopen h.named)
    · rw [hwritten', hwritten]
      exact h.scope_ne
    · intro r hr hne hstop
      exact h.reported r (hrecords ▸ hrecords' r hr hne) hne hstop

theorem totalsInv_init : TotalsInv cfg init.books where
  named := by rintro ip st ⟨⟩
  scope_ne := by rintro r ⟨⟩
  reported := by rintro r ⟨⟩

/-- **Totals.** Every stop record that is written reports what was counted in its period, all along
a run in which every pass over the queue finds, for each stop record that waits, the session and a
gauge of its address that still shows these totals, or none for a STOP_TIME record, and the detail
file can show them. -/
theorem totalsReported_of_totalsReady {evs : List Event}
    (hready : Run.Guarded (Step cfg fun _ => True) TotalsReady init evs) :
    Run.Always (Step cfg fun _ => True) TotalsReported init evs := by
  rintro pre post s' rfl hpre
  have hinv : TotalsInv cfg s'.books := by
    refine hpre.invariant_of_guarded (P := fun s => TotalsInv cfg s.books) ?_ hready.of_append
      totalsInv_init
    intro s ev s' hstep hready h
    exact totalsInv_step hstep hready h
  intro r hr hstop
  exact hinv.reported r (Books.mem_records.2 (Or.inl hr)) (hinv.scope_ne r hr) hstop

/-- The user sends a packet of 100 octets. -/
def accountPacket : Event := ⟨0, .account 0x0a000001 100 .dirIn⟩

/-- Let in, sent back after a packet, and let in again; as many octets are sent before the next
pass. -/
def sameAgain : List Event := [upPaid, accountPacket, downUser, upPaid, accountPacket]

theorem totalsReady_sameAgain :
    TotalsReady (sameAgain.foldl (exec oneUserConfig) init) commitAll := by
  rintro - r hr - hstop
  have hrecord : ∀ r ∈ (sameAgain.foldl (exec oneUserConfig) init).acctChain, r.type.IsStop →
      r.ip = 0x0a000001 ∧ r.type = .stop ∧ r.subject.totals = ⟨100, 0, 1, 0⟩ := by
    decide +kernel
  have hsession : ((sameAgain.foldl (exec oneUserConfig)
      init).sessions.retrieve 0x0a000001).isSome := by
    decide +kernel
  have hgauge : ((sameAgain.foldl (exec oneUserConfig)
      init).gauges.retrieve 0x0a000001).map GaugeEntry.totals = some ⟨100, 0, 1, 0⟩ := by
    decide +kernel
  obtain ⟨hip, htype, htotals⟩ := hrecord r hr hstop
  obtain ⟨g, hg, hshows⟩ := Option.map_eq_some_iff.1 hgauge
  rw [hip, htype, htotals]
  refine ⟨hsession, g, hg, ?_, ?_⟩
  · rw [if_pos rfl, hshows]
  · constructor <;> decide

theorem totalsReported_of_totalsReady_sameAgain :
    Run.Always (Step oneUserConfig fun _ => True) TotalsReported init
      (sameAgain ++ [commitAll, commitAll]) := by
  apply totalsReported_of_totalsReady
  refine guarded_step ?_ (guarded_step ?_ (guarded_step ?_ (guarded_step ?_ (guarded_step ?_
    (guarded_step totalsReady_sameAgain (guarded_step ?_ (Run.guarded_nil _)))))))
  · rintro ⟨⟩
  · rintro ⟨⟩
  · rintro ⟨⟩
  · rintro ⟨⟩
  · rintro ⟨⟩
  · -- no record is left that was not read yet
    have hread : ∀ r ∈ (exec oneUserConfig (sameAgain.foldl (exec oneUserConfig) init)
        commitAll).acctChain, r.scope ≠ [] := by
      decide +kernel
    rintro - r hr hscope -
    exact absurd hscope (hread r hr)

/-- The packet of the first period is in the record of its stop. -/
example : ∃ r ∈ ((sameAgain ++ [commitAll, commitAll]).foldl (exec oneUserConfig)
    init).ledger.written, r.type = .stop ∧ r.reported = some ⟨100, 0, 1, 0⟩ := by
  decide +kernel

/-- What the user sent before being sent back is never reported. -/
theorem totals_lost :
    ¬ ∀ cfg evs s, Run (Step cfg fun op => ¬ op.IsBare) init evs s → TotalsReported s := by
  intro h
  obtain ⟨s, hs⟩ : ∃ s, s = [upPaid, accountPacket, downUser, commitAll, commitAll].foldl
    (exec oneUserConfig) init := ⟨_, rfl⟩
  have hreported := h oneUserConfig [upPaid, accountPacket, downUser, commitAll, commitAll] s
    (hs ▸ run_foldl init (by decide))
  have hfound : ∃ r ∈ s.ledger.written, r.type.IsStop ∧ r.subject.totals = ⟨100, 0, 1, 0⟩ ∧
      r.reported = none := by
    rw [hs]
    decide +kernel
  obtain ⟨r, hr, hstop, htotals, hnone⟩ := hfound
  have hsome := hreported r hr hstop
  rw [hnone] at hsome
  cases hsome

end Event

end Sweetspot
