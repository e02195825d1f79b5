import Sweetspot.Dnat.Redirect
import Sweetspot.Filter.Match
import Sweetspot.Filter.Parser
import Sweetspot.Session.Gauge
import Sweetspot.Shape.Delivery
import Sweetspot.Shape.Schedule
import Sweetspot.Snat.Source
import Sweetspot.Tuple.Commit

/-!
# The relay handlers

A packet of a user comes to the inward relay, and a packet for a user to the outward one.  Both
fetch its two chains, ask the filter, redirect, count, translate, write the chains back and send, or
put the packet into a queue.

* `Relay`: what the handlers work on; `Leftover`: what was in memory before.
* `decideAction`: the switch on the filter's decision, of which each handler has a copy, with
  `decideAction_iff`.
* `commitAndSend`: how both end.
* `inwardProc`, `outwardProc`: the handlers.

Fragments are not reassembled (`hsrc` and `hdst` stay `NULL`) and the match cache never hits.  A
call that is made with a chain is recorded, so that it can be said which chain it was.
-/

namespace Sweetspot

/-! ## The state -/

/-- What memory held before it was used: the ICMP tuples, the padding of the pseudo-header, the
address that `sw_gauge_index` does not set for a chain of another protocol, and the receive buffer
behind the packet. -/
structure Leftover where
  icmp : ℕ → TupleIcmp × TupleIcmp
  pseudoHdr : UInt32
  gaugeIp : UInt32
  behind : List UInt8

/-- The receive buffer with a packet in it. -/
def Leftover.buffer (left : Leftover) (packet : List UInt8) : List UInt8 := packet ++ left.behind

theorem Leftover.length_le_buffer (left : Leftover) (packet : List UInt8) :
    (packet.length : ℤ) ≤ (left.buffer packet).length := by
  rw [Leftover.buffer, List.length_append]
  omega

/-- It begins with the packet. -/
theorem Leftover.sameOctets_buffer (left : Leftover) (packet : List UInt8) :
    Octets.SameOctets (left.buffer packet) packet 0 packet.length := fun k hk => by
  rw [Leftover.buffer, Octets.get8_append (by omega)]

/-- The tables the handlers work on. -/
structure Relay where
  controller : Controller
  prvHash : PrvHash
  pubHash : PubHash
  nextRid : ℕ
  natDst : NatDst
  shapeHash : ShapeHash
  memgmt : Memgmt
  queues : QueueId → ShapeQueue

/-- A call with a chain of the packet: the filter is asked for its user, it is counted, it is
scheduled.  `NULL` is `[]`. -/
inductive ServiceCall
  | filter (tupleChain : Chain)
  | gauge (tupleChain : Chain)
  | shape (tupleChain : Chain)
  deriving DecidableEq, Repr

def ServiceCall.tupleChain : ServiceCall → Chain
  | filter tupleChain => tupleChain
  | gauge tupleChain => tupleChain
  | shape tupleChain => tupleChain

/-- What a handler leaves: the tables, the packet if it was sent at once, the return code, and the
calls made.  No return code stands for a dereferenced `NULL`, a division by zero or a slot before
the first. -/
structure Handled where
  relay : Relay
  sent : Option (List UInt8)
  rc : Option ℤ
  calls : List ServiceCall

namespace Handled

/-- The packet is not sent. -/
def drop (s : Relay) : Handled := ⟨s, none, some 0, []⟩

/-- The packet is sent at once. -/
def send (s : Relay) (packet : List UInt8) : Handled := ⟨s, some packet, some 0, []⟩

/-- The daemon is gone. -/
def crash (s : Relay) : Handled := ⟨s, none, none, []⟩

/-- A call before the others. -/
def after (c : ServiceCall) (r : Handled) : Handled := { r with calls := c :: r.calls }

@[simp] theorem after_relay (c : ServiceCall) (r : Handled) : (r.after c).relay = r.relay := rfl

@[simp] theorem after_rc (c : ServiceCall) (r : Handled) : (r.after c).rc = r.rc := rfl

@[simp] theorem after_calls (c : ServiceCall) (r : Handled) :
    (r.after c).calls = c :: r.calls := rfl

end Handled

namespace Relay

/-- The source NAT among the tables. -/
def natSrc (s : Relay) : NatSrc := ⟨s.controller.endpoints, s.prvHash, s.pubHash, s.nextRid⟩

def setNatSrc (s : Relay) (n : NatSrc) : Relay :=
  { s with
    controller := { s.controller with endpoints := n.endpoints }
    prvHash := n.prvHash
    pubHash := n.pubHash
    nextRid := n.nextRid }

end Relay

/-! ## What the handlers call -/

/-- `sw_nat_dst_endpoint_assign`, which never fails. -/
def natDstEndpointAssign (ip : UInt32) (port : UInt16) : Chain → Chain
  | [] => []
  | .ip prv :: as => .ip { prv with ip } :: natDstEndpointAssign ip port as
  | .tcp prv :: as => .tcp { prv with port } :: natDstEndpointAssign ip port as
  | .udp prv :: as => .udp { prv with port } :: natDstEndpointAssign ip port as
  | .icmp prv :: as => .icmp prv :: natDstEndpointAssign ip port as

/-- `sw_gauge_index`; `none` is `-1`. -/
def gaugeIndex (left : Leftover) : Chain → Option UInt32
  | [] => none
  | .ip prv :: _ => some prv.ip
  | _ :: _ => some left.gaugeIp

/-- The chain of the user. -/
def userChain (mode : MatchMode) (src dst : Chain) : Chain :=
  match mode with
  | .inward => src
  | .outward => dst

variable (cfg : Config) (left : Leftover) (now : Timeval)

/-- `sw_filter_match`, which may make a session on its way. -/
def relayFilterMatch (s : Relay) (mode : MatchMode) (src dst : Chain) : Relay × Matched :=
  let m := filterMatch cfg.filters
    (fun ip => (Controller.sessionGetFilterId cfg now.sec s.controller ip).2) mode src dst []
  match src, dst with
  | .ip a :: _, .ip b :: _ =>
    let ip := match mode with | .inward => a.ip | .outward => b.ip
    ({ s with controller := (Controller.sessionGetFilterId cfg now.sec s.controller ip).1 }, m)
  | _, _ => (s, m)

/-- `sw_gauge_drop_stat`, with no gauge threads: `sw_gauge_update`, and it returns 0. -/
def relayGauge (s : Relay) (tupleChain : Chain) (length : ℕ) (dir : GaugeDir) : Relay :=
  match gaugeIndex left tupleChain with
  | none => s
  | some ip =>
    { s with
      controller :=
        Controller.gaugeUpdate cfg now.sec s.controller ip (UInt64.ofNat length) dir }

/-! ## The switch on the decision -/

/-- What the switch decides: the handler returns, or goes on with these chains and the rate of the
rule, if it shapes. -/
inductive Decision
  | ret (rc : ℤ)
  | go (natDst : NatDst) (src dst osrc odst : Chain) (rate : Option ℤ)

/-- The rate, if the action shapes: `shape_flag` and `rule->shape.rate`. -/
def FilterVerdict.rate (v : FilterVerdict) : Option ℤ :=
  if v.action &&& SW_FILTER_ACTION_SHAPE ≠ 0 then some v.shapeRate else none

/-- The switch: `pass` goes on as the packet is, `dnat` redirects it. -/
def decideAction (pass : Option ℤ → Decision) (dnat : FilterVerdict → Decision) (m : Matched) :
    Decision :=
  if m.1 = 0 then pass none
  else if m.1 = 1 then
    match m.2 with
    | [] => .ret 0
    | rule :: _ =>
      let action := rule.verdict.action
      if action = SW_FILTER_ACTION_PASS ∨
          action = SW_FILTER_ACTION_PASS ||| SW_FILTER_ACTION_SHAPE then pass rule.verdict.rate
      else if action = SW_FILTER_ACTION_BLOCK then .ret 0
      else if action = SW_FILTER_ACTION_DNAT ∨
          action = SW_FILTER_ACTION_DNAT ||| SW_FILTER_ACTION_SHAPE then dnat rule.verdict
      else if action = SW_FILTER_ACTION_SHAPE then pass rule.verdict.rate
      else .ret (-1)
  else .ret 0

/-- The actions with which a packet goes on as it is. -/
def ActionPasses (action : ℕ) : Prop :=
  action = SW_FILTER_ACTION_PASS ∨ action = SW_FILTER_ACTION_PASS ||| SW_FILTER_ACTION_SHAPE ∨
    action = SW_FILTER_ACTION_SHAPE

/-- The actions with which it is redirected. -/
def ActionRedirects (action : ℕ) : Prop :=
  action = SW_FILTER_ACTION_DNAT ∨ action = SW_FILTER_ACTION_DNAT ||| SW_FILTER_ACTION_SHAPE

/-- The actions that the switch has. -/
def ActionHandled (action : ℕ) : Prop :=
  ActionPasses action ∨ ActionRedirects action ∨ action = SW_FILTER_ACTION_BLOCK

/-- What the switch can decide. -/
inductive Decided (pass : Option ℤ → Decision) (dnat : FilterVerdict → Decision) (m : Matched) :
    Decision → Prop
  | unmatched (hrc : m.1 = 0) : Decided pass dnat m (pass none)
  | passed {rule : FilterRule} {rules : Ruleset} (hm : m = (1, rule :: rules))
    (haction : ActionPasses rule.verdict.action) : Decided pass dnat m (pass rule.verdict.rate)
  | redirected {rule : FilterRule} {rules : Ruleset} (hm : m = (1, rule :: rules))
    (haction : ActionRedirects rule.verdict.action) : Decided pass dnat m (dnat rule.verdict)
  | dropped (hrc : m.1 ≠ 0)
    (hblock : ∀ rule rules, m = (1, rule :: rules) →
      rule.verdict.action = SW_FILTER_ACTION_BLOCK) : Decided pass dnat m (.ret 0)
  | unexpected {rule : FilterRule} {rules : Ruleset} (hm : m = (1, rule :: rules))
    (hpass : ¬ ActionPasses rule.verdict.action)
    (hdnat : ¬ ActionRedirects rule.verdict.action)
    (hblock : rule.verdict.action ≠ SW_FILTER_ACTION_BLOCK) : Decided pass dnat m (.ret (-1))

theorem decideAction_decided (pass : Option ℤ → Decision) (dnat : FilterVerdict → Decision)
    (m : Matched) : Decided pass dnat m (decideAction pass dnat m) := by
  obtain ⟨rc, rules⟩ := m
  unfold decideAction
  by_cases hzero : rc = 0
  · rw [if_pos hzero]
    exact .unmatched hzero
  rw [if_neg hzero]
  by_cases hone : rc = 1
  · subst hone
    rw [if_pos rfl]
    cases rules with
    | nil => exact .dropped hzero (by simp)
    | cons rule rules =>
      dsimp only
      split_ifs with hpass hblock hdnat hshape
      · exact .passed rfl (hpass.elim Or.inl fun h => Or.inr (Or.inl h))
      · refine .dropped hzero ?_
        rintro rule' rules' heq
        cases heq
        exact hblock
      · exact .redirected rfl hdnat
      · exact .passed rfl (Or.inr (Or.inr hshape))
      · refine .unexpected rfl ?_ hdnat hblock
        rintro (h | h | h)
        · exact hpass (Or.inl h)
        · exact hpass (Or.inr h)
        · exact hshape h
  · rw [if_neg hone]
    exact .dropped hzero fun rule rules h => absurd (congrArg Prod.fst h) hone

/-- **What is so of the decision** but for some rules, is so if the packet meets none of them. -/
theorem decideAction_iff {pass : Option ℤ → Decision} {dnat : FilterVerdict → Decision}
    {m : Matched} (P : Decision → Prop) (bad : FilterVerdict → Prop)
    (hunmatched : P (pass none)) (hdropped : P (.ret 0))
    (hpass : ∀ v, ActionPasses v.action → (P (pass v.rate) ↔ ¬ bad v))
    (hdnat : ∀ v, ActionRedirects v.action → (P (dnat v) ↔ ¬ bad v))
    (hblock : ∀ v, bad v → v.action ≠ SW_FILTER_ACTION_BLOCK)
    (hunexpected : ∀ rule rules, m = (1, rule :: rules) → ¬ ActionHandled rule.verdict.action →
      (P (.ret (-1)) ↔ ¬ bad rule.verdict)) :
    P (decideAction pass dnat m) ↔
      ¬ ∃ rule, (∃ rules, m = (1, rule :: rules)) ∧ bad rule.verdict := by
  -- a rule that is met is the one that was matched
  have hmet : ∀ {rule rules}, m = (1, rule :: rules) →
      ((∃ rule, (∃ rules, m = (1, rule :: rules)) ∧ bad rule.verdict) ↔ bad rule.verdict) := by
    rintro rule rules rfl
    constructor
    · rintro ⟨rule', ⟨rules', heq⟩, hbad⟩
      cases heq
      exact hbad
    · exact fun hbad => ⟨rule, ⟨rules, rfl⟩, hbad⟩
  have hcases := decideAction_decided pass dnat m
  generalize decideAction pass dnat m = d at hcases ⊢
  cases hcases with
  | unmatched hrc =>
    refine iff_of_true hunmatched ?_
    rintro ⟨rule, ⟨rules, rfl⟩, -⟩
    cases hrc
  | passed hm haction => rw [hmet hm, hpass _ haction]
  | redirected hm haction => rw [hmet hm, hdnat _ haction]
  | dropped hrc hdrop =>
    refine iff_of_true hdropped ?_
    rintro ⟨rule, ⟨rules, hm⟩, hbad⟩
    exact hblock _ hbad (hdrop rule rules hm)
  | unexpected hm hnotPass hnotDnat hnotBlock =>
    rw [hmet hm]
    exact hunexpected _ _ hm fun h => h.elim hnotPass fun h => h.elim hnotDnat hnotBlock

/-- The inward handler redirects `dst`. -/
def inwardRedirect (natDst : NatDst) (src dst : Chain) (v : FilterVerdict) : Decision :=
  let nat := natDstEndpointAssign v.dnatIp v.dnatPort dst
  let (natDst, rc) := natDst.natDstDo src dst nat
  if rc = -1 then .ret 0 else .go natDst src nat [] dst v.rate

def inwardDecide (natDst : NatDst) (src dst : Chain) : Matched → Decision :=
  decideAction (.go natDst src dst [] []) (inwardRedirect natDst src dst)

/-- The outward handler undoes the redirection of `src`. -/
def outwardRedirect (natDst : NatDst) (src dst odst : Chain) (v : FilterVerdict) : Decision :=
  match natDst.natDstUndo src dst with
  | none => .ret 0
  | some nat => .go natDst nat dst src odst v.rate

def outwardDecide (natDst : NatDst) (src dst odst : Chain) : Matched → Decision :=
  decideAction (.go natDst src dst [] odst) (outwardRedirect natDst src dst odst)

/-- A redirection does not fail. -/
theorem inwardRedirect_eq (natDst : NatDst) (src dst : Chain) (v : FilterVerdict) :
    inwardRedirect natDst src dst v =
      .go (natDst.natDstDo src dst (natDstEndpointAssign v.dnatIp v.dnatPort dst)).1 src
        (natDstEndpointAssign v.dnatIp v.dnatPort dst) [] dst v.rate := by
  unfold inwardRedirect NatDst.natDstDo
  dsimp only
  split <;> rfl

/-! ## How both handlers end -/

/-- A packet of a rule that shapes: it is scheduled with `tupleChain`, and sent, dropped or put into
a queue. -/
def shapeAndSend (s : Relay) (queueId : QueueId) (direction : ShapeDir) (tupleChain : Chain)
    (rate : ℤ) (packet : List UInt8) : Handled :=
  match shapeSchedule s.shapeHash now tupleChain packet.length rate direction with
  | none => .crash s
  | some (h, delaytime) =>
    let s := { s with shapeHash := h }
    if delaytime = 0 then .send s packet
    else if delaytime = -1 then .drop s
    else
      match memgmtGetBuf s.memgmt packet.length with
      | (m, none) => .drop { s with memgmt := m }
      | (m, some idx) =>
        let m := m.memcpy idx packet
        match shapeDelay (s.queues queueId) delaytime idx packet.length with
        | none => .crash { s with memgmt := m }
        | some (q, false) =>
          .drop { s with
            memgmt := (memgmtFreeBuf m idx).1
            queues := Function.update s.queues queueId q }
        | some (q, true) =>
          .drop { s with memgmt := m, queues := Function.update s.queues queueId q }

/-- The chains are written back into the buffer, and the packet goes on. -/
def commitAndSend (s : Relay) (queueId : QueueId) (direction : ShapeDir)
    (src dst osrc odst shaped : Chain) (rate : Option ℤ) (packet : List UInt8) : Handled :=
  match tupleCommit left.pseudoHdr none src ⟨none, dst⟩ ⟨none, osrc⟩ ⟨none, odst⟩
      (left.buffer packet) 0 packet.length with
  | none => .crash s
  | some (buffer, rc) =>
    if rc = -1 then .drop s
    else
      let packet := buffer.take packet.length
      match rate with
      | none => .send s packet
      | some rate =>
        (shapeAndSend now s queueId direction shaped rate packet).after (.shape shaped)

/-! ## The handlers -/

/-- The inward handler once the packet is counted: source NAT, which changes `src`. -/
def inwardTranslate (s : Relay) (src dst odst : Chain) (rate : Option ℤ) (packet : List UInt8) :
    Handled :=
  if cfg.nat.isSome then
    match s.natSrc.natSrcDo now.sec src with
    | (n, none) => .drop (s.setNatSrc n)
    | (n, some nat) =>
      commitAndSend left now (s.setNatSrc n) .inward .shapeIn nat dst src odst src rate packet
  else commitAndSend left now s .inward .shapeIn src dst [] odst [] rate packet

/-- The inward handler once the chains are fetched. -/
def inwardRelay (s : Relay) (src dst : Chain) (packet : List UInt8) : Handled :=
  let (s, m) := relayFilterMatch cfg now s .inward src dst
  Handled.after (.filter (userChain .inward src dst)) <|
    match inwardDecide s.natDst src dst m with
    | .ret rc => ⟨s, none, some rc, []⟩
    | .go natDst src dst _ odst rate =>
      let s := relayGauge cfg left now { s with natDst } src packet.length .dirIn
      (inwardTranslate cfg left now s src dst odst rate packet).after (.gauge src)

/-- The inward handler from its decision on. -/
def inwardDecided (s : Relay) (packet : List UInt8) : Decision → Handled
  | .ret rc => ⟨s, none, some rc, []⟩
  | .go natDst src dst _ odst rate =>
    (inwardTranslate cfg left now (relayGauge cfg left now { s with natDst } src packet.length
      .dirIn) src dst odst rate packet).after (.gauge src)

theorem inwardRelay_eq {s s' : Relay} {src dst : Chain} {packet : List UInt8} {m : Matched}
    (h : relayFilterMatch cfg now s .inward src dst = (s', m)) :
    inwardRelay cfg left now s src dst packet =
      (inwardDecided cfg left now s' packet (inwardDecide s'.natDst src dst m)).after
        (.filter (userChain .inward src dst)) := by
  rw [inwardRelay, h]
  dsimp only
  cases inwardDecide s'.natDst src dst m <;> rfl

/-- `__proc` of `relay_inward.c`, given `fuel` calls to fetch the chains. -/
def inwardProc (fuel : ℕ) (s : Relay) (packet : List UInt8) : Option Handled :=
  if packet.length = 0 then some (.drop s)
  else
    match tupleFetch left.icmp (left.buffer packet) fuel IPPROTO_IP 0 packet.length with
    | none => none
    | some none => some (.drop s)
    | some (some (src, dst)) => some (inwardRelay cfg left now s src dst packet)

/-- The outward handler once the source NAT is undone. -/
def outwardFilter (s : Relay) (src dst odst : Chain) (packet : List UInt8) : Handled :=
  let (s, m) := relayFilterMatch cfg now s .outward src dst
  Handled.after (.filter (userChain .outward src dst)) <|
    match outwardDecide s.natDst src dst odst m with
    | .ret rc => ⟨s, none, some rc, []⟩
    | .go natDst src dst osrc odst rate =>
      let s := relayGauge cfg left now { s with natDst } dst packet.length .dirOut
      (commitAndSend left now s .outward .shapeOut src dst osrc odst dst rate packet).after
        (.gauge dst)

/-- The outward handler from its decision on. -/
def outwardDecided (s : Relay) (packet : List UInt8) : Decision → Handled
  | .ret rc => ⟨s, none, some rc, []⟩
  | .go natDst src dst osrc odst rate =>
    (commitAndSend left now (relayGauge cfg left now { s with natDst } dst packet.length
      .dirOut) .outward .shapeOut src dst osrc odst dst rate packet).after (.gauge dst)

theorem outwardFilter_eq {s s' : Relay} {src dst odst : Chain} {packet : List UInt8} {m : Matched}
    (h : relayFilterMatch cfg now s .outward src dst = (s', m)) :
    outwardFilter cfg left now s src dst odst packet =
      (outwardDecided cfg left now s' packet (outwardDecide s'.natDst src dst odst m)).after
        (.filter (userChain .outward src dst)) := by
  rw [outwardFilter, h]
  dsimp only
  cases outwardDecide s'.natDst src dst odst m <;> rfl

/-- The outward handler once the chains are fetched. -/
def outwardRelay (s : Relay) (src dst : Chain) (packet : List UInt8) : Handled :=
  if cfg.nat.isSome then
    match s.natSrc.natSrcUndo dst with
    | none => .drop s
    | some nat => outwardFilter cfg left now s src nat dst packet
  else outwardFilter cfg left now s src dst [] packet

/-- `__proc` of `relay_outward.c`, given `fuel` calls to fetch the chains. -/
def outwardProc (fuel : ℕ) (s : Relay) (packet : List UInt8) : Option Handled :=
  if packet.length = 0 then some (.drop s)
  else
    match tupleFetch left.icmp (left.buffer packet) fuel IPPROTO_IP 0 packet.length with
    | none => none
    | some none => some (.drop s)
    | some (some (src, dst)) => some (outwardRelay cfg left now s src dst packet)

end Sweetspot
