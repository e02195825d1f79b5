import Sweetspot.Session.TotalsReport

/-!
# Complete records

A record is to be written with all of its scopes: event, session, gauge and source NAT.  They are
made one after the other when a pass comes to the record, while sessions and gauges go on changing.
When one of them cannot be made, those before it stay with the record, and the next pass takes it
for one that has its scopes.

* `FullScope`: all four scopes, in order.
* `initScopeAmid`: giving a record its scopes, with other threads at work in between.
* `AcctPass`, `PassOp`, `PassStep`: a pass over the queue, record by record.
* `RecordComplete`, `ScopesReady`: what is to hold of a record, and what it takes.
* `recordComplete_iff_scopesReady`: exactly these runs give complete records.
-/

namespace Sweetspot

open Controller

/-! ## Scopes -/

/-- The handlers that make scopes. -/
inductive AcctScopeKind
  | event | session | gauge | snat
  deriving DecidableEq

def AcctScope.kind : AcctScope → AcctScopeKind
  | .event _ => .event
  | .session _ => .session
  | .gauge _ => .gauge
  | .snat _ => .snat

/-- All four scopes, in order. -/
def FullScope (scope : List AcctScope) : Prop :=
  scope.map AcctScope.kind = [.event, .session, .gauge, .snat]

instance (scope : List AcctScope) : Decidable (FullScope scope) :=
  inferInstanceAs (Decidable (_ = _))

/-- All scopes, or none. -/
def WholeScope (e : AcctEntry) : Prop := e.scope = [] ∨ FullScope e.scope

/-- The source-NAT scope can be made. -/
def HasEndpoints (s : Controller) (ip : UInt32) : Prop :=
  (s.endpoints.ip.retrieve ip).isSome ∧ (s.endpoints.udp.retrieve ip).isSome ∧
    (s.endpoints.tcp.retrieve ip).isSome ∧ (s.endpoints.icmp.retrieve ip).isSome

/-- `sw_acct_init_scope`, with the tables as each of the last three constructors sees them. -/
def initScopeAmid (cfg : Config) (now : ℤ) (s₁ s₂ s₃ : Controller) (e : AcctEntry) :
    AcctEntry × Bool :=
  if e.scope ≠ [] then (e, true)
  else
    let (scope, done) := acctScopeNew e.ip e.type (e.eventContext.getD "")
      [scopeEventNew now, scopeSessionNew cfg s₁, scopeGaugeNew now s₂, scopeSnatNew cfg s₃]
    ({ e with scope }, done)

/-- Without others it is the function itself. -/
theorem initScopeAmid_self (cfg : Config) (now : ℤ) (s : Controller) (e : AcctEntry) :
    initScopeAmid cfg now s s s e = acctInitScope cfg now s e := rfl

section Scopes

variable {cfg : Config} {now : ℤ} {s₁ s₂ s₃ : Controller} {e : AcctEntry}

theorem initScopeAmid_of_ne (h : e.scope ≠ []) :
    initScopeAmid cfg now s₁ s₂ s₃ e = (e, true) := by
  rw [initScopeAmid, if_pos h]

theorem scopeSnatNew_isSome (cfg : Config) (s : Controller) (ip : UInt32) (type : AcctType)
    (eventContext : String) :
    (scopeSnatNew cfg s ip type eventContext).isSome ↔ (cfg.nat.isSome → HasEndpoints s ip) := by
  unfold scopeSnatNew HasEndpoints
  cases hnat : cfg.nat with
  | none => simp
  | some nat =>
    cases hip : s.endpoints.ip.retrieve ip with
    | none => simp
    | some pub =>
      cases hudp : s.endpoints.udp.retrieve ip with
      | none => simp
      | some udp =>
        cases htcp : s.endpoints.tcp.retrieve ip with
        | none => simp
        | some tcp => cases hicmp : s.endpoints.icmp.retrieve ip <;> simp

theorem sessionStatusNonblock_isSome (hnamed : AllNamed cfg s₁.books) (ip : UInt32) :
    (sessionStatusNonblock cfg s₁ ip).isSome ↔ (s₁.sessions.retrieve ip).isSome := by
  rw [sessionStatusNonblock]
  cases hfound : s₁.sessions.retrieve ip with
  | none => rfl
  | some st =>
    obtain ⟨filterName, hname⟩ :=
      Option.isSome_iff_exists.1 (hnamed ip st.standing (books_standing hfound))
    have hname' : filterGetName cfg.filters st.filterId = some filterName := hname
    simp [hname']

/-- **A record without scopes**: it gets all of them, or keeps those before the first that cannot be
made. -/
theorem initScopeAmid_of_nil (hnamed : AllNamed cfg s₁.books) (h : e.scope = []) :
    (initScopeAmid cfg now s₁ s₂ s₃ e).1.scope ≠ [] ∧
    ((initScopeAmid cfg now s₁ s₂ s₃ e).2 = true →
      FullScope (initScopeAmid cfg now s₁ s₂ s₃ e).1.scope) ∧
    ((initScopeAmid cfg now s₁ s₂ s₃ e).2 = true ↔
      (s₁.sessions.retrieve e.ip).isSome ∧ (s₂.gauges.retrieve e.ip).isSome ∧
        (cfg.nat.isSome → HasEndpoints s₃ e.ip)) := by
  rw [← sessionStatusNonblock_isSome hnamed, ← scopeSnatNew_isSome cfg s₃ e.ip e.type
    (e.eventContext.getD ""), initScopeAmid, if_neg (not_not.2 h)]
  cases hsession : sessionStatusNonblock cfg s₁ e.ip with
  | none => simp [acctScopeNew, scopeEventNew, scopeSessionNew, hsession]
  | some status =>
    cases hgauge : s₂.gauges.retrieve e.ip with
    | none => simp [acctScopeNew, scopeEventNew, scopeSessionNew, scopeGaugeNew, hsession, hgauge]
    | some g =>
      cases hsnat : scopeSnatNew cfg s₃ e.ip e.type (e.eventContext.getD "") with
      | none =>
        simp [acctScopeNew, scopeEventNew, scopeSessionNew, scopeGaugeNew, hsession, hgauge, hsnat]
      | some snat =>
        obtain ⟨prv, rfl⟩ := exists_of_scopeSnatNew hsnat
        simp [acctScopeNew, scopeEventNew, scopeSessionNew, scopeGaugeNew, hsession, hgauge, hsnat,
          FullScope, AcctScope.kind]

end Scopes

/-! ## Passes -/

/-- A pass over the queue: the tables, the records still to come, and those for the next pass.  What
is submitted meanwhile is in the queue of the tables. -/
structure AcctPass where
  controller : Controller
  work : List AcctEntry
  retry : List AcctEntry

/-- Others do something, or the pass goes on: it takes the queue, comes to a record, with events of
others before each of the last three constructors, and gives back what is for the next pass. -/
inductive PassOp
  | other (ev : Event)
  | take
  | entry (now : ℤ) (evs₁ evs₂ evs₃ : List Event) (finalFlag accepts : Bool)
  | giveBack

/-- The tables after some events. -/
def afterEvents (cfg : Config) (s : Controller) (evs : List Event) : Controller :=
  evs.foldl (exec cfg) s

@[simp] theorem afterEvents_nil (cfg : Config) (s : Controller) : afterEvents cfg s [] = s := rfl

/-- A record of the pass, as `sw_acct_init_scope` leaves it. -/
def AcctPass.initScope (cfg : Config) (p : AcctPass) (now : ℤ) (evs₁ evs₂ evs₃ : List Event)
    (e : AcctEntry) : AcctEntry × Bool :=
  initScopeAmid cfg now (afterEvents cfg p.controller evs₁)
    (afterEvents cfg p.controller (evs₁ ++ evs₂))
    (afterEvents cfg p.controller (evs₁ ++ evs₂ ++ evs₃)) e

/-- The pass after a record, which is written, dropped or kept. -/
def AcctPass.next (cfg : Config) (p : AcctPass) (now : ℤ) (evs₁ evs₂ evs₃ : List Event)
    (finalFlag accepts : Bool) (e : AcctEntry) (work : List AcctEntry) : AcctPass :=
  let s := afterEvents cfg p.controller (evs₁ ++ evs₂ ++ evs₃)
  match p.initScope cfg now evs₁ evs₂ evs₃ e with
  | (e, true) =>
    if accepts then
      ⟨{ s with ledger := { s.ledger with written := s.ledger.written ++ [e] } }, work, p.retry⟩
    else if finalFlag then ⟨s, work, p.retry⟩
    else ⟨s, work, p.retry ++ [e]⟩
  | (e, false) => if finalFlag then ⟨s, work, p.retry⟩ else ⟨s, work, p.retry ++ [e]⟩

/-- There is one pass at a time. -/
inductive PassStep (cfg : Config) : AcctPass → PassOp → AcctPass → Prop
  | other {p : AcctPass} {ev : Event} (hev : ev.op.ip ≠ none) :
    PassStep cfg p (.other ev) { p with controller := exec cfg p.controller ev }
  | take {p : AcctPass} (hwork : p.work = []) (hretry : p.retry = []) :
    PassStep cfg p .take ⟨{ p.controller with acctChain := [] }, p.controller.acctChain, []⟩
  | entry {p : AcctPass} (now : ℤ) {evs₁ evs₂ evs₃ : List Event} (finalFlag accepts : Bool)
    {e : AcctEntry} {work : List AcctEntry} (hwork : p.work = e :: work)
    (hevs : ∀ ev ∈ evs₁ ++ evs₂ ++ evs₃, ev.op.ip ≠ none) :
    PassStep cfg p (.entry now evs₁ evs₂ evs₃ finalFlag accepts)
      (p.next cfg now evs₁ evs₂ evs₃ finalFlag accepts e work)
  | giveBack {p : AcctPass} (hwork : p.work = []) :
    PassStep cfg p .giveBack
      ⟨{ p.controller with acctChain := p.retry ++ p.controller.acctChain }, [], []⟩

/-- Doing it. -/
def passExec (cfg : Config) (p : AcctPass) : PassOp → Option AcctPass
  | .other ev =>
    if ev.op.ip ≠ none then some { p with controller := exec cfg p.controller ev } else none
  | .take =>
    if p.work = [] ∧ p.retry = [] then
      some ⟨{ p.controller with acctChain := [] }, p.controller.acctChain, []⟩
    else none
  | .entry now evs₁ evs₂ evs₃ finalFlag accepts =>
    match p.work with
    | [] => none
    | e :: work =>
      if ∀ ev ∈ evs₁ ++ evs₂ ++ evs₃, ev.op.ip ≠ none then
        some (p.next cfg now evs₁ evs₂ evs₃ finalFlag accepts e work)
      else none
  | .giveBack =>
    if p.work = [] then
      some ⟨{ p.controller with acctChain := p.retry ++ p.controller.acctChain }, [], []⟩
    else none

theorem passStep_of_exec {cfg : Config} {p p' : AcctPass} {op : PassOp}
    (h : passExec cfg p op = some p') : PassStep cfg p op p' := by
  cases op with
  | other ev =>
    obtain ⟨hev, heq⟩ := Option.ite_none_right_eq_some.1 h
    exact Option.some.inj heq ▸ .other hev
  | take =>
    obtain ⟨⟨hwork, hretry⟩, heq⟩ := Option.ite_none_right_eq_some.1 h
    exact Option.some.inj heq ▸ .take hwork hretry
  | entry now evs₁ evs₂ evs₃ finalFlag accepts =>
    unfold passExec at h
    cases hwork : p.work with
    | nil =>
      rw [hwork] at h
      cases h
    | cons e work =>
      rw [hwork] at h
      obtain ⟨hevs, heq⟩ := Option.ite_none_right_eq_some.1 h
      exact Option.some.inj heq ▸ .entry now finalFlag accepts hwork hevs
  | giveBack =>
    obtain ⟨hwork, heq⟩ := Option.ite_none_right_eq_some.1 h
    exact Option.some.inj heq ▸ .giveBack hwork

/-! ## A pass on its own -/

/-- The steps of a pass that comes to some records while nobody else does anything. -/
def aloneOps (now : ℤ) (finalFlag : Bool) (accepts : ℕ → Bool) : ℕ → List AcctEntry → List PassOp
  | _, [] => []
  | n, _ :: es =>
    .entry now [] [] [] finalFlag (accepts n) :: aloneOps now finalFlag accepts (n + 1) es

theorem run_aloneOps (cfg : Config) (now : ℤ) (s : Controller) (finalFlag : Bool)
    (accepts : ℕ → Bool) (es : List AcctEntry) (n : ℕ) (l : Ledger) (retry : List AcctEntry) :
    Run (PassStep cfg) ⟨{ s with acctChain := [], ledger := l }, es, retry⟩
      (aloneOps now finalFlag accepts n es)
      ⟨{ s with
          acctChain := []
          ledger := { l with
            written := l.written ++ (commitLoop cfg now s finalFlag accepts n es).written } },
        [], retry ++ (commitLoop cfg now s finalFlag accepts n es).retry⟩ := by
  induction es generalizing n l retry with
  | nil =>
    simp only [aloneOps, commitLoop, List.append_nil]
    exact .nil _
  | cons e es ih =>
    refine .cons (.entry now finalFlag (accepts n) rfl (by simp)) ?_
    have hinit : AcctPass.initScope cfg ⟨{ s with acctChain := [], ledger := l }, e :: es, retry⟩
        now [] [] [] e = acctInitScope cfg now s e := rfl
    unfold AcctPass.next
    rw [hinit, commitLoop]
    rcases acctInitScope cfg now s e with ⟨e', _ | _⟩
    · cases finalFlag with
      | true => exact ih (n + 1) l retry
      | false => simpa using ih (n + 1) l (retry ++ [e'])
    · cases haccepts : accepts n with
      | true =>
        simpa [haccepts] using ih (n + 1) { l with written := l.written ++ [e'] } retry
      | false =>
        cases finalFlag with
        | true => exact ih (n + 1) l retry
        | false => simpa using ih (n + 1) l (retry ++ [e'])

/-- **A pass that nobody disturbs** is `sw_acct_commit`. -/
theorem run_acctCommit (cfg : Config) (now : ℤ) (s : Controller) (finalFlag : Bool)
    (accepts : ℕ → Bool) :
    Run (PassStep cfg) ⟨s, [], []⟩
      (.take :: aloneOps now finalFlag accepts 0 s.acctChain ++ [.giveBack])
      ⟨acctCommit cfg now s finalFlag accepts, [], []⟩ := by
  have hentries := run_aloneOps cfg now s finalFlag accepts s.acctChain 0 s.ledger []
  refine .cons (.take rfl rfl) (Run.concat_iff.2 ⟨_, hentries, ?_⟩)
  generalize hresult : commitLoop cfg now s finalFlag accepts 0 s.acctChain = result
  have hchain : (acctCommit cfg now s finalFlag accepts).acctChain = [] ++ result.retry ++ [] := by
    rw [List.nil_append, List.append_nil, acctCommit, hresult]
  have hcommit : acctCommit cfg now s finalFlag accepts =
      { acctCommit cfg now s finalFlag accepts with acctChain := [] ++ result.retry ++ [] } := by
    rw [← hchain]
  rw [hcommit, acctCommit, hresult]
  exact .giveBack rfl

/-! ## What is to hold -/

/-- A record that is handed to the method has all scopes, and one whose scopes cannot be made is
left without any. -/
def RecordComplete (cfg : Config) (p : AcctPass) : PassOp → Prop
  | .entry now evs₁ evs₂ evs₃ _ _ => ∀ e work, p.work = e :: work →
    ((p.initScope cfg now evs₁ evs₂ evs₃ e).2 = true →
      FullScope (p.initScope cfg now evs₁ evs₂ evs₃ e).1.scope) ∧
    ((p.initScope cfg now evs₁ evs₂ evs₃ e).2 = false →
      (p.initScope cfg now evs₁ evs₂ evs₃ e).1.scope = [])
  | _ => True

/-- A record without scopes finds its session, its gauge and, if source NAT is on, its endpoints. -/
def ScopesReady (cfg : Config) (p : AcctPass) : PassOp → Prop
  | .entry _ evs₁ evs₂ evs₃ _ _ => ∀ e work, p.work = e :: work → e.scope = [] →
    ((afterEvents cfg p.controller evs₁).sessions.retrieve e.ip).isSome ∧
    ((afterEvents cfg p.controller (evs₁ ++ evs₂)).gauges.retrieve e.ip).isSome ∧
    (cfg.nat.isSome → HasEndpoints (afterEvents cfg p.controller (evs₁ ++ evs₂ ++ evs₃)) e.ip)
  | _ => True

/-! ## The invariant -/

/-- The records that were written, are queued or are in the pass have all scopes or none. -/
structure RecordsInv (cfg : Config) (p : AcctPass) : Prop where
  named : AllNamed cfg p.controller.books
  records : ∀ r ∈ p.controller.books.records, WholeScope r
  work : ∀ r ∈ p.work, WholeScope r
  retry : ∀ r ∈ p.retry, WholeScope r

section Invariant

variable {cfg : Config} {s : Controller} {p p' : AcctPass}

theorem allNamed_exec (h : AllNamed cfg s.books) (ev : Event) :
    AllNamed cfg (exec cfg s ev).books := by
  cases @exec_bookStep cfg s ev with
  | commit hop hs' =>
    rw [hs']
    exact h
  | call hip hopen hthere hact => exact allNamed_acting hact (allNamed_opening hopen h)

theorem allNamed_afterEvents (h : AllNamed cfg s.books) (evs : List Event) :
    AllNamed cfg (afterEvents cfg s evs).books := by
  induction evs generalizing s with
  | nil => exact h
  | cons ev evs ih => exact ih (allNamed_exec h ev)

/-- What others queue has no scopes yet. -/
theorem wholeScope_exec (h : ∀ r ∈ s.books.records, WholeScope r) {ev : Event}
    (hev : ev.op.ip ≠ none) : ∀ r ∈ (exec cfg s ev).books.records, WholeScope r := by
  intro r hr
  cases @exec_bookStep cfg s ev with
  | commit hop hs' =>
    rw [hop] at hev
    exact absurd rfl hev
  | call hip hopen hthere hact =>
    by_cases hscope : r.scope = []
    · exact .inl hscope
    · have hold := (records_acting hact).2 r hr hscope
      rw [(records_opening hopen).2] at hold
      exact h r hold

theorem wholeScope_afterEvents (h : ∀ r ∈ s.books.records, WholeScope r) {evs : List Event}
    (hevs : ∀ ev ∈ evs, ev.op.ip ≠ none) :
    ∀ r ∈ (afterEvents cfg s evs).books.records, WholeScope r := by
  induction evs generalizing s with
  | nil => exact h
  | cons ev evs ih =>
    exact ih (wholeScope_exec h (hevs ev List.mem_cons_self))
      fun ev' hev' => hevs ev' (List.mem_cons_of_mem ev hev')

theorem recordComplete_iff (hp : RecordsInv cfg p) (op : PassOp) :
    RecordComplete cfg p op ↔ ScopesReady cfg p op := by
  cases op with
  | other | take | giveBack => exact Iff.rfl
  | entry now evs₁ evs₂ evs₃ finalFlag accepts =>
    refine forall_congr' fun e => forall_congr' fun work => imp_congr_right fun hwork => ?_
    have hwhole := hp.work e (hwork ▸ List.mem_cons_self)
    rcases hwhole with hnil | hfull
    · obtain ⟨hne, hdone, hready⟩ := @initScopeAmid_of_nil cfg now
        (afterEvents cfg p.controller evs₁) (afterEvents cfg p.controller (evs₁ ++ evs₂))
        (afterEvents cfg p.controller (evs₁ ++ evs₂ ++ evs₃)) e
        (allNamed_afterEvents hp.named evs₁) hnil
      rw [← hready]
      unfold AcctPass.initScope
      constructor
      · rintro ⟨-, hclean⟩ -
        by_contra hfailed
        exact hne (hclean (Bool.eq_false_iff.2 hfailed))
      · intro hall
        exact ⟨hdone, fun hfailed => absurd (hall hnil) (by rw [hfailed]; exact Bool.false_ne_true)⟩
    · have hne : e.scope ≠ [] := by
        intro hnil
        rw [hnil] at hfull
        cases hfull
      rw [AcctPass.initScope, initScopeAmid_of_ne hne]
      exact iff_of_true ⟨fun _ => hfull, fun h => by cases h⟩ fun hnil => absurd hnil hne

/-- A record that has all scopes or none may be written, dropped or kept. -/
theorem recordsInv_next {now : ℤ} {evs₁ evs₂ evs₃ : List Event} {e : AcctEntry}
    {work : List AcctEntry} (hp : RecordsInv cfg p)
    (hevs : ∀ ev ∈ evs₁ ++ evs₂ ++ evs₃, ev.op.ip ≠ none) (hwork : ∀ r ∈ work, WholeScope r)
    (hwhole : WholeScope (p.initScope cfg now evs₁ evs₂ evs₃ e).1) (finalFlag accepts : Bool) :
    RecordsInv cfg (p.next cfg now evs₁ evs₂ evs₃ finalFlag accepts e work) := by
  have hnamed := allNamed_afterEvents hp.named (evs₁ ++ evs₂ ++ evs₃)
  have hrecords := @wholeScope_afterEvents cfg _ hp.records _ hevs
  obtain ⟨hwritten, hchain⟩ := List.forall_mem_append.1 hrecords
  unfold AcctPass.next
  generalize p.initScope cfg now evs₁ evs₂ evs₃ e = res at hwhole
  obtain ⟨e', done⟩ := res
  have hnew : ∀ r ∈ [e'], WholeScope r := List.forall_mem_singleton.2 hwhole
  have hkept := List.forall_mem_append.2 ⟨hp.retry, hnew⟩
  have hadded := List.forall_mem_append.2 ⟨List.forall_mem_append.2 ⟨hwritten, hnew⟩, hchain⟩
  cases done with
  | true =>
    dsimp only
    split_ifs
    · exact ⟨hnamed, hadded, hwork, hp.retry⟩
    · exact ⟨hnamed, hrecords, hwork, hp.retry⟩
    · exact ⟨hnamed, hrecords, hwork, hkept⟩
  | false =>
    dsimp only
    split_ifs
    · exact ⟨hnamed, hrecords, hwork, hp.retry⟩
    · exact ⟨hnamed, hrecords, hwork, hkept⟩

theorem recordsInv_step {op : PassOp} (hp : RecordsInv cfg p) (hstep : PassStep cfg p op p')
    (hcomplete : RecordComplete cfg p op) : RecordsInv cfg p' := by
  have hnone : ∀ r ∈ ([] : List AcctEntry), WholeScope r := by
    rintro r ⟨⟩
  obtain ⟨hwritten, hchain⟩ := List.forall_mem_append.1 hp.records
  cases hstep with
  | other hev => exact ⟨allNamed_exec hp.named _, wholeScope_exec hp.records hev, hp.work, hp.retry⟩
  | take hwork hretry =>
    exact ⟨hp.named, List.forall_mem_append.2 ⟨hwritten, hnone⟩, hchain, hnone⟩
  | giveBack hwork =>
    have hback := List.forall_mem_append.2 ⟨hp.retry, hchain⟩
    exact ⟨hp.named, List.forall_mem_append.2 ⟨hwritten, hback⟩, hnone, hnone⟩
  | @entry now evs₁ evs₂ evs₃ finalFlag accepts e work hwork hevs =>
    have hrest : ∀ r ∈ work, WholeScope r :=
      fun r hr => hp.work r (hwork ▸ List.mem_cons_of_mem e hr)
    obtain ⟨hfull, hclean⟩ := hcomplete e work hwork
    refine recordsInv_next hp hevs hrest ?_ finalFlag accepts
    cases hdone : (p.initScope cfg now evs₁ evs₂ evs₃ e).2 with
    | true => exact .inr (hfull hdone)
    | false => exact .inl (hclean hdone)

end Invariant

/-! ## Runs -/

/-- No pass is under way. -/
def AcctPass.idle (s : Controller) : AcctPass := ⟨s, [], []⟩

theorem recordsInv_init (cfg : Config) : RecordsInv cfg (.idle init) :=
  ⟨totalsInv_init.named, by rintro r ⟨⟩, by rintro r ⟨⟩, by rintro r ⟨⟩⟩

/-- **Complete records.**  Whatever others do before, during and after the passes: every record that
is handed to the method has all four scopes, and one whose scopes cannot be made is left without
any, just if every record without scopes that a pass comes to finds its session, its gauge and its
endpoints. -/
theorem recordComplete_iff_scopesReady (cfg : Config) (ops : List PassOp) :
    Run.Guarded (PassStep cfg) (RecordComplete cfg) (.idle init) ops ↔
      Run.Guarded (PassStep cfg) (ScopesReady cfg) (.idle init) ops := by
  refine @Run.guarded_iff_guarded _ _ _ _ _ (RecordsInv cfg) _ ?_ ?_ _ (recordsInv_init cfg)
  · exact fun op _ p hp => recordComplete_iff hp op
  · exact fun op _ p p' hstep hready hp =>
      recordsInv_step hp hstep ((recordComplete_iff hp op).2 hready)

/-- The user is let in and sent back, and a pass comes to both records; the next pass has taken the
queue. -/
def lateOps : List PassOp :=
  [.other upPaid, .other downUser, .take, .entry 0 [] [] [] false true,
    .entry 0 [] [] [] false true, .giveBack, .take]

theorem run_lateOps : ∃ p, Run (PassStep oneUserConfig) (.idle init) lateOps p ∧
    ∃ e work, p.work = e :: work ∧ e.scope ≠ [] ∧ ¬ FullScope e.scope := by
  have hops : ((lateOps.foldlM (passExec oneUserConfig) (.idle init)).map fun p =>
      decide (∃ e ∈ p.work.head?, e.scope ≠ [] ∧ ¬ FullScope e.scope)) = some true := by
    decide +kernel
  obtain ⟨p, hp, hpart⟩ := Option.map_eq_some_iff.1 hops
  obtain ⟨e, he, hne, hnot⟩ := of_decide_eq_true hpart
  have hwork : p.work = e :: p.work.tail := (List.cons_head?_tail he).symm
  exact ⟨p, (Run.of_foldlM hp).mono fun _ _ _ => passStep_of_exec, e, _, hwork, hne, hnot⟩

/-- The gauge is gone by the first pass, and in the second one the start record is handed over with
its event and session scopes only. -/
theorem record_incomplete :
    ¬ ∀ cfg ops, Run.Guarded (PassStep cfg) (RecordComplete cfg) (.idle init) ops := by
  intro h
  obtain ⟨p, hrun, e, work, hwork, hne, hpart⟩ := run_lateOps
  have hcomplete := h oneUserConfig (lateOps ++ [.entry 0 [] [] [] false true]) lateOps _ [] p rfl
    hrun
  obtain ⟨hfull, -⟩ := hcomplete e work hwork
  rw [AcctPass.initScope, initScopeAmid_of_ne hne] at hfull
  exact hpart (hfull rfl)

end Sweetspot
