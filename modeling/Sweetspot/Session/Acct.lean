import Mathlib.Data.UInt
import Sweetspot.Session.Gauge

/-!
# Accounting

Records are queued with little more than an address.  A pass over the queue gives each record its
scopes, from what the tables show at that moment, and hands it to the detail file.

* `acctScopeNew`: the scopes, one handler after the other; a failing handler leaves those before it.
* `acctCommit`: the pass.
* `detailGauge`, `AcctEntry.reported`: the totals as the detail file shows them, and as its reader
  takes them.
* `mem_commitLoop`: whatever leaves a pass, written or kept, is a record of the queue with its
  scopes.
-/

namespace Sweetspot

namespace Controller

variable (cfg : Config) (now : ℤ) (s : Controller)

/-! ## Scopes -/

/-- `sw_session_status_nonblock`; `none` is `-1`. -/
def sessionStatusNonblock (ip : UInt32) : Option (SessionEntry × String) :=
  match s.sessions.retrieve ip with
  | none => none
  | some e => (filterGetName cfg.filters e.filterId).map fun filterName => (e, filterName)

/-- `__new` of the event scope. -/
def scopeEventNew (_ip : UInt32) (type : AcctType) (eventContext : String) : Option AcctScope :=
  some (.event ⟨type, now, eventContext⟩)

/-- `__new` of the session scope. -/
def scopeSessionNew (ip : UInt32) (type : AcctType) (_eventContext : String) : Option AcctScope :=
  (sessionStatusNonblock cfg s ip).map fun (e, filterName) =>
    .session ⟨e.sessionId, filterName, e.sessionContext, e.terminationCause, type, ip⟩

/-- What `__new` of the gauge scope makes of a gauge.  The third test reads the type of the new
scope, which is still zero. -/
def gaugeScope (g : GaugeEntry) (type : AcctType) : GaugeScope :=
  let prv : GaugeScope :=
    { maxOctetsIn := g.maxOctetsIn
      maxOctetsOut := g.maxOctetsOut
      maxBpsIn := g.maxBpsIn
      maxBpsOut := g.maxBpsOut
      maxDuration := g.maxDuration
      maxIdle := g.maxIdle
      totals := .zero
      duration := 0
      idle := 0
      bpsIn := 0
      bpsOut := 0
      type := .start }
  let prv :=
    if type = .interim ∨ type = .stop ∨ prv.type = .stopTime then
      { prv with
        totals := g.totals
        duration := now - (g.deathday - g.maxDuration)
        idle := now - g.idle
        bpsIn := g.peakBpsIn
        bpsOut := g.peakBpsOut }
    else prv
  { prv with type }

/-- `__new` of the gauge scope. -/
def scopeGaugeNew (ip : UInt32) (type : AcctType) (_eventContext : String) : Option AcctScope :=
  (s.gauges.retrieve ip).map fun g => .gauge (gaugeScope now g type)

/-- `__new` of the source-NAT scope. -/
def scopeSnatNew (ip : UInt32) (_type : AcctType) (_eventContext : String) : Option AcctScope :=
  match cfg.nat with
  | none => some (.snat none)
  | some _ =>
    match s.endpoints.ip.retrieve ip, s.endpoints.udp.retrieve ip, s.endpoints.tcp.retrieve ip,
        s.endpoints.icmp.retrieve ip with
    | some pub, some udp, some tcp, some icmp =>
      some (.snat (some ⟨pub.pubIp, udp.lport, udp.hport, tcp.lport, tcp.hport, icmp.lseq,
        icmp.hseq⟩))
    | _, _, _, _ => none

/-- `global_acct_scope_handlers`. -/
def acctScopeHandlers : List (UInt32 → AcctType → String → Option AcctScope) :=
  [scopeEventNew now, scopeSessionNew cfg s, scopeGaugeNew now s, scopeSnatNew cfg s]

/-- `sw_acct_scope_new`: the scopes made, and `false` if a handler failed. -/
def acctScopeNew (ip : UInt32) (type : AcctType) (eventContext : String) :
    List (UInt32 → AcctType → String → Option AcctScope) → List AcctScope × Bool
  | [] => ([], true)
  | handler :: handlers =>
    match handler ip type eventContext with
    | none => ([], false)
    | some p =>
      let (rest, done) := acctScopeNew ip type eventContext handlers
      (p :: rest, done)

/-- `sw_acct_init_scope`: a record that has scopes keeps them, even if some are missing. -/
def acctInitScope (e : AcctEntry) : AcctEntry × Bool :=
  if e.scope ≠ [] then (e, true)
  else
    let (scope, done) :=
      acctScopeNew e.ip e.type (e.eventContext.getD "") (acctScopeHandlers cfg now s)
    ({ e with scope }, done)

/-! ## The pass -/

/-- What is left of the queue after a pass, and what was written. -/
structure CommitResult where
  retry : List AcctEntry
  written : List AcctEntry

/-- The loop of `sw_acct_commit` over the queue.  `accepts n` says whether the method takes the
record that was `n`-th. -/
def commitLoop (finalFlag : Bool) (accepts : ℕ → Bool) : ℕ → List AcctEntry → CommitResult
  | _, [] => ⟨[], []⟩
  | n, e :: es =>
    let rest := commitLoop finalFlag accepts (n + 1) es
    match acctInitScope cfg now s e with
    | (e, true) =>
      if accepts n then { rest with written := e :: rest.written }
      else if finalFlag then rest
      else { rest with retry := e :: rest.retry }
    | (e, false) => if finalFlag then rest else { rest with retry := e :: rest.retry }

/-- `sw_acct_commit`. -/
def acctCommit (finalFlag : Bool) (accepts : ℕ → Bool) : Controller :=
  let result := commitLoop cfg now s finalFlag accepts 0 s.acctChain
  { s with
    acctChain := result.retry
    ledger := { s.ledger with written := s.ledger.written ++ result.written } }

end Controller

/-! ## What a record says -/

/-- The attributes of the detail file that carry the totals. -/
structure DetailTotals where
  acctInputOctets : UInt32
  acctOutputOctets : UInt32
  acctInputGigawords : Option UInt32
  acctOutputGigawords : Option UInt32
  acctInputPackets : UInt32
  acctOutputPackets : UInt32
  deriving DecidableEq

/-- `Acct-Input-Gigawords` and `Acct-Output-Gigawords`: left out when the low word is zero. -/
def detailGigawords (octets : UInt64) : Option UInt32 :=
  if octets.toUInt32 ≠ 0 then some (octets >>> 32).toUInt32 else none

/-- `__commit` of the gauge scope, as far as the totals go. -/
def detailGauge (prv : GaugeScope) : Option DetailTotals :=
  if prv.type = .interim ∨ prv.type = .stop ∨ prv.type = .stopTime then
    some {
      acctInputOctets := prv.totals.octetsIn.toUInt32
      acctOutputOctets := prv.totals.octetsOut.toUInt32
      acctInputGigawords := detailGigawords prv.totals.octetsIn
      acctOutputGigawords := detailGigawords prv.totals.octetsOut
      acctInputPackets := prv.totals.packetsIn.toUInt32
      acctOutputPackets := prv.totals.packetsOut.toUInt32 }
  else none

/-- The totals that a reader of the attributes finds: an absent high word is zero. -/
def DetailTotals.totals (d : DetailTotals) : Totals where
  octetsIn := (d.acctInputGigawords.getD 0).toUInt64 * 2 ^ 32 + d.acctInputOctets.toUInt64
  octetsOut := (d.acctOutputGigawords.getD 0).toUInt64 * 2 ^ 32 + d.acctOutputOctets.toUInt64
  packetsIn := d.acctInputPackets.toUInt64
  packetsOut := d.acctOutputPackets.toUInt64

namespace AcctEntry

/-- The session id the record carries. -/
def sessionId (e : AcctEntry) : Option UInt32 :=
  e.scope.findSome? fun
    | .session prv => some prv.sessionId
    | _ => none

/-- The totals the record reports. -/
def reported (e : AcctEntry) : Option Totals :=
  e.scope.findSome? fun
    | .gauge prv => (detailGauge prv).map DetailTotals.totals
    | _ => none

end AcctEntry

/-! ## Totals in the detail file -/

/-- Totals that the detail file can show: no high word is left out, and the packets fit. -/
structure Totals.Shown (t : Totals) : Prop where
  octetsIn : t.octetsIn.toNat % 2 ^ 32 = 0 → t.octetsIn = 0
  octetsOut : t.octetsOut.toNat % 2 ^ 32 = 0 → t.octetsOut = 0
  packetsIn : t.packetsIn.toNat < 2 ^ 32
  packetsOut : t.packetsOut.toNat < 2 ^ 32

theorem detailGigawords_octets (octets : UInt64) :
    ((detailGigawords octets).getD 0).toUInt64 * 2 ^ 32 + octets.toUInt32.toUInt64 = octets ↔
      (octets.toNat % 2 ^ 32 = 0 → octets = 0) := by
  have hlow : octets.toUInt32 = 0 ↔ octets.toNat % 2 ^ 32 = 0 := by
    rw [← UInt32.toNat_inj, UInt64.toNat_toUInt32]
    rfl
  have hpow : (2 ^ 32 : UInt64).toNat = 2 ^ 32 := by decide
  have hbound := octets.toNat_lt
  rw [← UInt64.toNat_inj, ← UInt64.toNat_inj]
  by_cases h : octets.toUInt32 = 0
  · have hmod := hlow.1 h
    simp [detailGigawords, h]
    omega
  · have hmod : octets.toNat % 2 ^ 32 ≠ 0 := fun h' => h (hlow.2 h')
    simp [detailGigawords, h, Nat.shiftRight_eq_div_pow, hpow]
    omega

/-- **What the detail file shows of the totals** is the totals themselves, unless a high word is
left out or the packets do not fit. -/
theorem detailGauge_totals {prv : GaugeScope}
    (htype : prv.type = .interim ∨ prv.type = .stop ∨ prv.type = .stopTime) :
    (detailGauge prv).map DetailTotals.totals = some prv.totals ↔ prv.totals.Shown := by
  have hpackets : ∀ n : UInt64, n.toUInt32.toUInt64 = n ↔ n.toNat < 2 ^ 32 := by
    intro n
    rw [← UInt64.toNat_inj, UInt32.toNat_toUInt64, UInt64.toNat_toUInt32]
    constructor
    · intro h
      omega
    · intro h
      exact Nat.mod_eq_of_lt h
  rw [detailGauge, if_pos htype, Option.map_some, Option.some_inj, Totals.ext_iff]
  simp only [DetailTotals.totals, detailGigawords_octets, hpackets]
  constructor
  · rintro ⟨hin, hout, hpin, hpout⟩
    exact ⟨hin, hout, hpin, hpout⟩
  · rintro ⟨hin, hout, hpin, hpout⟩
    exact ⟨hin, hout, hpin, hpout⟩

/-! ## A record with its scopes -/

namespace Controller

variable {cfg : Config} {now : ℤ} {s : Controller} {e : AcctEntry}

@[simp] theorem gaugeScope_type (g : GaugeEntry) (type : AcctType) :
    (gaugeScope now g type).type = type := rfl

/-- A record of type `SW_ACCT_TYPE_STOP_TIME` gets no totals. -/
theorem gaugeScope_totals (g : GaugeEntry) (type : AcctType) :
    (gaugeScope now g type).totals =
      if type = .interim ∨ type = .stop then g.totals else .zero := by
  cases type <;> rfl

theorem acctInitScope_of_ne (h : e.scope ≠ []) : (acctInitScope cfg now s e).1 = e := by
  rw [acctInitScope, if_pos h]

theorem acctInitScope_of_nil (h : e.scope = []) :
    (acctInitScope cfg now s e).1 = { e with scope :=
      (acctScopeNew e.ip e.type (e.eventContext.getD "") (acctScopeHandlers cfg now s)).1 } := by
  rw [acctInitScope, if_neg (not_not.2 h)]

/-- Scopes are all that a record is given. -/
theorem acctInitScope_frame (e : AcctEntry) :
    (acctInitScope cfg now s e).1.ip = e.ip ∧ (acctInitScope cfg now s e).1.type = e.type ∧
      (acctInitScope cfg now s e).1.subject = e.subject := by
  by_cases h : e.scope = []
  · rw [acctInitScope_of_nil h]
    exact ⟨rfl, rfl, rfl⟩
  · rw [acctInitScope_of_ne h]
    exact ⟨rfl, rfl, rfl⟩

/-- A record leaves with a scope, whatever the tables show. -/
theorem acctInitScope_scope_ne (e : AcctEntry) : (acctInitScope cfg now s e).1.scope ≠ [] := by
  by_cases h : e.scope = []
  · rw [acctInitScope_of_nil h]
    exact List.cons_ne_nil _ _
  · rwa [acctInitScope_of_ne h]

/-- The session id is the one the session has at that moment. -/
theorem acctInitScope_sessionId (h : e.scope = []) :
    (acctInitScope cfg now s e).1.sessionId =
      (sessionStatusNonblock cfg s e.ip).map fun status => status.1.sessionId := by
  rw [acctInitScope_of_nil h]
  cases hstatus : sessionStatusNonblock cfg s e.ip with
  | none =>
    simp [AcctEntry.sessionId, acctScopeHandlers, acctScopeNew, scopeEventNew, scopeSessionNew,
      hstatus]
  | some status =>
    simp [AcctEntry.sessionId, acctScopeHandlers, acctScopeNew, scopeEventNew, scopeSessionNew,
      hstatus]

theorem exists_of_scopeSnatNew {ip : UInt32} {type : AcctType} {eventContext : String}
    {p : AcctScope} (h : scopeSnatNew cfg s ip type eventContext = some p) :
    ∃ prv, p = .snat prv := by
  unfold scopeSnatNew at h
  split at h
  · exact ⟨none, (Option.some.inj h).symm⟩
  · split at h
    · exact ⟨_, (Option.some.inj h).symm⟩
    · cases h

/-- The totals are the ones the gauge shows at that moment, if there is a gauge and, before it, a
session. -/
theorem acctInitScope_reported (h : e.scope = []) :
    (acctInitScope cfg now s e).1.reported =
      (sessionStatusNonblock cfg s e.ip).bind fun _ =>
        (s.gauges.retrieve e.ip).bind fun g =>
          (detailGauge (gaugeScope now g e.type)).map DetailTotals.totals := by
  rw [acctInitScope_of_nil h]
  cases hstatus : sessionStatusNonblock cfg s e.ip with
  | none =>
    simp [AcctEntry.reported, acctScopeHandlers, acctScopeNew, scopeEventNew, scopeSessionNew,
      hstatus]
  | some status =>
    cases hgauge : s.gauges.retrieve e.ip with
    | none =>
      simp [AcctEntry.reported, acctScopeHandlers, acctScopeNew, scopeEventNew, scopeSessionNew,
        scopeGaugeNew, hstatus, hgauge]
    | some g =>
      simp only [AcctEntry.reported, acctScopeHandlers, acctScopeNew, scopeEventNew,
        scopeSessionNew, scopeGaugeNew, hstatus, hgauge, Option.map_some, Option.bind_some,
        List.findSome?_cons]
      cases hdetail : (detailGauge (gaugeScope now g e.type)).map DetailTotals.totals with
      | none =>
        cases hsnat : scopeSnatNew cfg s e.ip e.type (e.eventContext.getD "") with
        | none => simp
        | some snat =>
          obtain ⟨prv, rfl⟩ := exists_of_scopeSnatNew hsnat
          simp
      | some totals => simp

/-! ## What leaves a pass -/

/-- **A pass makes up no records**: what it writes and what it keeps are records of the queue with
their scopes. -/
theorem mem_commitLoop {finalFlag : Bool} {accepts : ℕ → Bool} {e' : AcctEntry}
    (es : List AcctEntry) (n : ℕ)
    (h : e' ∈ (commitLoop cfg now s finalFlag accepts n es).retry ∨
      e' ∈ (commitLoop cfg now s finalFlag accepts n es).written) :
    ∃ e ∈ es, e' = (acctInitScope cfg now s e).1 := by
  induction es generalizing n with
  | nil => simp [commitLoop] at h
  | cons e es ih =>
    have hrest : (e' ∈ (commitLoop cfg now s finalFlag accepts (n + 1) es).retry ∨
        e' ∈ (commitLoop cfg now s finalFlag accepts (n + 1) es).written) →
        ∃ e₁ ∈ e :: es, e' = (acctInitScope cfg now s e₁).1 := by
      intro hmem
      obtain ⟨e₁, he₁, heq⟩ := ih (n + 1) hmem
      exact ⟨e₁, List.mem_cons_of_mem e he₁, heq⟩
    rw [commitLoop] at h
    rcases hinit : acctInitScope cfg now s e with ⟨e₀, done⟩
    have hhead : e' = e₀ → ∃ e₁ ∈ e :: es, e' = (acctInitScope cfg now s e₁).1 := by
      intro heq
      exact ⟨e, List.mem_cons_self, by rw [hinit, heq]⟩
    rw [hinit] at h
    -- each case either drops the record or puts it in front of one of the two lists
    cases done <;> cases accepts n <;> cases finalFlag <;>
      simp only [Bool.false_eq_true, if_false, if_true, List.mem_cons] at h <;> grind

/-- After a pass there are the records written before it and those of the queue with their
scopes. -/
theorem acctCommit_records {finalFlag : Bool} {accepts : ℕ → Bool} {r : AcctEntry}
    (h : r ∈ (acctCommit cfg now s finalFlag accepts).books.records) :
    r ∈ s.books.written ∨ ∃ e ∈ s.acctChain, r = (acctInitScope cfg now s e).1 := by
  rcases List.mem_append.1 h with hwritten | hchain
  · rcases List.mem_append.1 hwritten with hbefore | hnow
    · exact Or.inl hbefore
    · exact Or.inr (mem_commitLoop s.acctChain 0 (Or.inr hnow))
  · exact Or.inr (mem_commitLoop s.acctChain 0 (Or.inl hchain))

/-- What a pass leaves in the queue has scopes. -/
theorem acctCommit_chain {finalFlag : Bool} {accepts : ℕ → Bool} {r : AcctEntry}
    (h : r ∈ (acctCommit cfg now s finalFlag accepts).acctChain) : r.scope ≠ [] := by
  obtain ⟨e, -, rfl⟩ := mem_commitLoop s.acctChain 0 (Or.inl h)
  exact acctInitScope_scope_ne e

end Controller

end Sweetspot
