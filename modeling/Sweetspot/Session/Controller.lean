import Sweetspot.Filter.Ruleset
import Sweetspot.Snat.Create

/-!
# The access controller's tables

Everything the daemon keeps about its users: the session, the gauge and the shaping context of each
address, the source-NAT endpoints, and the queue of accounting records.  The functions of later
modules take one `Controller` to the next; allocation always succeeds.

* `entryComparator`: the callback of the three tables keyed by an address, and what looking up,
  inserting and deleting do to the entry of each address.
* `nextSessionId`: the session id counter.
-/

namespace Sweetspot

/-! ## Tables keyed by an address -/

/-- `e1->ip != e2->ip`. -/
def entryComparator : Comparator UInt32 :=
  Comparator.ofImage (fun a b => if a ≠ b then 1 else 0) id Comparator.ite_ne_eq_zero_iff

@[simp] theorem entryComparator_comp (a b : UInt32) : entryComparator.comp a b = 0 ↔ a = b :=
  Comparator.ite_ne_eq_zero_iff a b

section EntryTable

variable {ρ : Type*} {key : ρ → UInt32} {t : KeyedTable entryComparator key}

theorem entry_key {ip : UInt32} {e : ρ} (h : t.retrieve ip = some e) : key e = ip := by
  simpa using KeyedTable.comp_of_retrieve h

theorem mem_iff_retrieve {e : ρ} : e ∈ t ↔ t.retrieve (key e) = some e := by
  rw [KeyedTable.retrieve_eq_some_iff]
  exact ⟨fun h => ⟨h, by simp⟩, And.left⟩

theorem retrieve_insert (e : ρ) (ip : UInt32) :
    (t.insert e).retrieve ip = if key e = ip then some e else t.retrieve ip :=
  KeyedTable.retrieve_insert_ite entryComparator_comp t e ip

theorem retrieve_delete (ip ip' : UInt32) :
    (t.delete ip).retrieve ip' = if ip' = ip then none else t.retrieve ip' :=
  KeyedTable.retrieve_delete_ite entryComparator_comp t ip ip'

end EntryTable

/-! ## Sessions -/

/-- `SW_SESSION_ST_CAPTURED` and `SW_SESSION_ST_RELEASED`. -/
inductive SessionState
  | captured | released
  deriving DecidableEq, Repr

/-- `SW_SESSION_TERM_*`; `none` is the 0 of a session that was never stopped. -/
inductive TermCause
  | none | time | idle | volume | admin | user
  deriving DecidableEq, Repr

/-- `sw_session_entry_t`. -/
structure SessionEntry where
  ip : UInt32
  state : SessionState
  sessionId : UInt32
  sessionContext : Option String
  dnFilterName : Option String
  filterId : FilterId
  terminationCause : TermCause
  interimInterval : ℤ
  deathday : ℤ
  interim : ℤ
  retention : ℤ
  stateid : ℤ
  deriving DecidableEq

def SW_SESSION_DEFAULT_RETENTION : ℤ := 3600

/-! ## Gauges and shaping contexts -/

/-- `sw_gauge_entry_t`. -/
structure GaugeEntry where
  ip : UInt32
  maxOctetsIn : UInt64
  maxOctetsOut : UInt64
  maxBpsIn : UInt64
  maxBpsOut : UInt64
  maxDuration : ℤ
  maxIdle : ℤ
  octetsIn : UInt64
  octetsOut : UInt64
  bpsIn : UInt64
  bpsOut : UInt64
  packetsIn : UInt64
  packetsOut : UInt64
  peakBpsIn : UInt64
  peakBpsOut : UInt64
  deathday : ℤ
  idle : ℤ
  bpsProbeIn : UInt64
  bpsProbeOut : UInt64
  bpsProbeTime : ℤ
  deriving DecidableEq

/-- `sw_shape_context_t`, without the schedule of the packets under way. -/
structure ShapeContext where
  prvIp : UInt32
  maxBpsIn : UInt64
  maxBpsOut : UInt64
  deriving DecidableEq

/-! ## Accounting records -/

/-- `SW_ACCT_TYPE_*`. -/
inductive AcctType
  | start | stop | interim | stopTime
  deriving DecidableEq, Repr

/-- What a gauge counts. -/
@[ext] structure Totals where
  octetsIn : UInt64
  octetsOut : UInt64
  packetsIn : UInt64
  packetsOut : UInt64
  deriving DecidableEq, Repr

namespace Totals

def zero : Totals := ⟨0, 0, 0, 0⟩

end Totals

/-- What a gauge shows of its counters. -/
def GaugeEntry.totals (g : GaugeEntry) : Totals :=
  ⟨g.octetsIn, g.octetsOut, g.packetsIn, g.packetsOut⟩

/-- `sw_acct_scope_event_entry_t`. -/
structure EventScope where
  type : AcctType
  timestamp : ℤ
  eventContext : String
  deriving DecidableEq

/-- `sw_acct_scope_session_entry_t`. -/
structure SessionScope where
  sessionId : UInt32
  filterName : String
  sessionContext : Option String
  terminationCause : TermCause
  type : AcctType
  ip : UInt32
  deriving DecidableEq

/-- `sw_acct_scope_gauge_entry_t`. -/
structure GaugeScope where
  maxOctetsIn : UInt64
  maxOctetsOut : UInt64
  maxBpsIn : UInt64
  maxBpsOut : UInt64
  maxDuration : ℤ
  maxIdle : ℤ
  totals : Totals
  duration : ℤ
  idle : ℤ
  bpsIn : UInt64
  bpsOut : UInt64
  type : AcctType
  deriving DecidableEq

/-- `sw_acct_scope_snat_entry_t`. -/
structure SnatScope where
  ip : UInt32
  udpLport : UInt16
  udpHport : UInt16
  tcpLport : UInt16
  tcpHport : UInt16
  icmpLseq : UInt16
  icmpHseq : UInt16
  deriving DecidableEq

/-- One link of a scope chain, `sw_acct_scope_entry_t`; the source-NAT scope is empty when source
NAT is off. -/
inductive AcctScope
  | event (prv : EventScope)
  | session (prv : SessionScope)
  | gauge (prv : GaugeScope)
  | snat (prv : Option SnatScope)
  deriving DecidableEq

/-- What a record is about: which released period of its address, counted from 1, and what was
counted in that period.  No part of the source's record; nothing reads it. -/
structure AcctSubject where
  period : ℕ
  totals : Totals
  deriving DecidableEq

/-- `sw_acct_entry_t`; an empty `scope` is `NULL`.  There is one accounting method, so an entry is
off the queue as soon as it is in the method map. -/
structure AcctEntry where
  scope : List AcctScope
  ip : UInt32
  type : AcctType
  eventContext : Option String
  recordCreated : ℤ
  subject : AcctSubject
  deriving DecidableEq

/-! ## The controller -/

/-- What is configured and loaded: it does not change while the controller runs. -/
structure Config where
  /-- `user-networks`, the set `global_ns`. -/
  userNetworks : Netset
  /-- `filter-anonymous`. -/
  filterAnonymous : String
  /-- `acct-interim-interval`. -/
  acctInterimInterval : ℤ
  /-- `gauge-rate-interval`. -/
  gaugeRateInterval : ℤ
  /-- Source NAT, if enabled. -/
  nat : Option EndpointConfig
  filters : GlobalFilterSet

/-- A single user, 10.0.0.1, and two filters: one for strangers that lets DNS queries out, and one
without rules. -/
def oneUserConfig : Config where
  userNetworks := [⟨0x0a000001, 0x0a000001, by decide⟩]
  filterAnonymous := "anonymous"
  acctInterimInterval := 300
  gaugeRateInterval := 5
  nat := none
  filters := fun idx =>
    if idx.val = 0 then
      some ⟨"anonymous",
        [⟨⟨0, 0, [], 0, 0, .none⟩, ⟨0, 0, [53], 0, 0, .eq⟩, ⟨0, 0⟩, 17, ⟨1, 0, 0, 0⟩, 1⟩], []⟩
    else if idx.val = 1 then some ⟨"paid", [], []⟩
    else none

/-- What was recorded of the past for the statements about it; nothing reads it. -/
structure Ledger where
  /-- Every record submitted, in order. -/
  submitted : List AcctEntry
  /-- Every record written, in order. -/
  written : List AcctEntry
  /-- How many released periods an address has begun. -/
  periods : UInt32 → ℕ
  /-- What the gauge of an address has counted since its last release. -/
  counted : UInt32 → Totals

/-- A new period of an address begins. -/
def Ledger.release (l : Ledger) (ip : UInt32) : Ledger :=
  { l with
    periods := Function.update l.periods ip (l.periods ip + 1)
    counted := Function.update l.counted ip .zero }

structure Controller where
  sessions : KeyedTable entryComparator SessionEntry.ip
  gauges : KeyedTable entryComparator GaugeEntry.ip
  shapes : KeyedTable entryComparator ShapeContext.prvIp
  endpoints : Endpoints
  /-- `global_acct_chain`. -/
  acctChain : List AcctEntry
  /-- `source_session_id`. -/
  sourceSessionId : UInt32
  ledger : Ledger

namespace Controller

def init : Controller where
  sessions := ∅
  gauges := ∅
  shapes := ∅
  endpoints := .empty
  acctChain := []
  sourceSessionId := 1
  ledger := ⟨[], [], fun _ => 0, fun _ => .zero⟩

/-- `next_session_id`: the id, and the counter after it. -/
def nextSessionId (source : UInt32) : UInt32 × UInt32 :=
  if source ≥ 0x7fffffff then (1, 1) else (source, source + 1)

/-- The entry `sw_acct_submit` makes. -/
def acctRecord (s : Controller) (ip : UInt32) (type : AcctType) (eventContext : String)
    (now : ℤ) : AcctEntry where
  scope := []
  ip := ip
  type := type
  eventContext := if eventContext = "" then none else some eventContext
  recordCreated := now
  subject := ⟨s.ledger.periods ip, s.ledger.counted ip⟩

/-- `sw_acct_submit`. -/
def acctSubmit (s : Controller) (ip : UInt32) (type : AcctType) (eventContext : String)
    (now : ℤ) : Controller :=
  let e := s.acctRecord ip type eventContext now
  { s with
    acctChain := s.acctChain ++ [e]
    ledger := { s.ledger with submitted := s.ledger.submitted ++ [e] } }

/-! ## One address at a time -/

/-- What the controller knows of one address. -/
@[ext] structure View where
  session : Option SessionEntry
  gauge : Option GaugeEntry
  shape : Option ShapeContext

def view (s : Controller) (ip : UInt32) : View :=
  ⟨s.sessions.retrieve ip, s.gauges.retrieve ip, s.shapes.retrieve ip⟩

/-- The address `ip` is seen as `v`, the others as before. -/
def ViewSet (s s' : Controller) (ip : UInt32) (v : View) : Prop :=
  ∀ ip', s'.view ip' = if ip' = ip then v else s.view ip'

theorem ViewSet.self {s s' : Controller} {ip : UInt32} {v : View} (h : ViewSet s s' ip v) :
    s'.view ip = v := by
  rw [h, if_pos rfl]

theorem ViewSet.other {s s' : Controller} {ip ip' : UInt32} {v : View} (h : ViewSet s s' ip v)
    (hip : ip' ≠ ip) : s'.view ip' = s.view ip' := by
  rw [h, if_neg hip]

theorem ViewSet.refl (s : Controller) (ip : UInt32) : ViewSet s s ip (s.view ip) := by
  intro ip'
  by_cases h : ip' = ip
  · rw [if_pos h, h]
  · rw [if_neg h]

theorem ViewSet.trans {s s' s'' : Controller} {ip : UInt32} {v v' : View}
    (h : ViewSet s s' ip v) (h' : ViewSet s' s'' ip v') : ViewSet s s'' ip v' := by
  intro ip'
  rw [h' ip']
  by_cases hip : ip' = ip
  · rw [if_pos hip, if_pos hip]
  · rw [if_neg hip, if_neg hip, h.other hip]

section Store

variable {s s' : Controller}

/-- Storing a session. -/
theorem viewSet_session {e : SessionEntry} {ip : UInt32} (hip : e.ip = ip)
    (hs : s'.sessions = s.sessions.insert e) (hg : s'.gauges = s.gauges)
    (hsh : s'.shapes = s.shapes) : ViewSet s s' ip { s.view ip with session := some e } := by
  subst hip
  intro ip
  simp only [view, hs, hg, hsh, retrieve_insert]
  by_cases h : ip = e.ip
  · simp [h]
  · simp [h, Ne.symm h]

/-- Storing a gauge. -/
theorem viewSet_gauge {g : GaugeEntry} {ip : UInt32} (hip : g.ip = ip)
    (hs : s'.sessions = s.sessions) (hg : s'.gauges = s.gauges.insert g)
    (hsh : s'.shapes = s.shapes) : ViewSet s s' ip { s.view ip with gauge := some g } := by
  subst hip
  intro ip
  simp only [view, hs, hg, hsh, retrieve_insert]
  by_cases h : ip = g.ip
  · simp [h]
  · simp [h, Ne.symm h]

/-- Storing a shaping context. -/
theorem viewSet_shape {c : ShapeContext} {ip : UInt32} (hip : c.prvIp = ip)
    (hs : s'.sessions = s.sessions) (hg : s'.gauges = s.gauges)
    (hsh : s'.shapes = s.shapes.insert c) : ViewSet s s' ip { s.view ip with shape := some c } := by
  subst hip
  intro ip
  simp only [view, hs, hg, hsh, retrieve_insert]
  by_cases h : ip = c.prvIp
  · simp [h]
  · simp [h, Ne.symm h]

end Store

end Controller

end Sweetspot
