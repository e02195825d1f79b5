import Sweetspot.Session.Lifecycle

/-!
# Matching a packet against a filter

`sw_filter_match` walks the two chains of a packet, and its IP handler walks the rules of the
session's filter, moving a cursor shared by all handlers: for each rule it calls the walk again for
the rest of the chains, and a handler further down rejects the rule by returning 0 into the loop.

* `filterMatch`: the dispatcher and its three handlers.  The cursor `*rule` is the list of rules
  from the current one on, `[]` for `NULL`.
* `RuleAccepts`: what a rule asks of a packet, as one condition.
* `filterMatch_transport`: the walk below the IP header decides the rest of that condition.
* `ipLoop_eq`: hence the loop stops at the first rule that accepts.
* `filterMatch_firstMatch`: the filter of a session is first match.
-/

namespace Sweetspot

/-! ## The handlers -/

/-- `match_port`, of which the TCP and the UDP handler have a copy each. -/
def matchPort (tg : FilterTarget) (port : UInt16) : Bool :=
  match tg.op with
  | .rg => (tg.portLo = 0 ∧ tg.portHi = 0) ∨ (port ≥ tg.portLo ∧ port ≤ tg.portHi)
  | op =>
    match tg.ports with
    | [] => true
    | first :: _ =>
      match op with
      | .eq => tg.ports.any fun p => p = port
      | .ne => tg.ports.any fun p => p ≠ port
      | .lt => first > port
      | .le => first ≥ port
      | .gt => first < port
      | .ge => first ≤ port
      | _ => false

/-- The test of the TCP flags.  `set` and `mask` are promoted from signed characters. -/
def matchFlags (fl : FilterFlags) (flags : UInt8) : Bool :=
  fl.mask = 0 ∨
    fl.set.toBitVec.signExtend 32 = fl.mask.toBitVec.signExtend 32 &&& flags.toBitVec.setWidth 32

/-- The test of an address. -/
def matchAddress (tg : FilterTarget) (ip : UInt32) : Bool := tg.ip = 0 ∨ tg.ip = tg.mask &&& ip

/-- The return code and the cursor a match leaves. -/
abbrev Matched := ℤ × Ruleset

/-- The loop of the IP handler over `rs`, the cursor at `rule`; `next` matches the rest of the
chains. -/
def ipLoop (next : Ruleset → Matched) (a b : TupleIp) : Ruleset → Ruleset → Matched
  | [], rule => (0, rule)
  | r :: rs, rule =>
    if ¬ matchAddress r.src a.ip then ipLoop next a b rs rule
    else if ¬ matchAddress r.dst b.ip then ipLoop next a b rs rule
    else
      match next (r :: rs) with
      | (rc, rule) => if rc ≠ 0 then (rc, rule) else ipLoop next a b rs rule

/-- `__filter_match` of `filter_match_ip.c`.  The first time the rules are those of the session on
the user's side; `sessionFilterId` is what `sw_session_get_filter_id` returns. -/
def ipFilterMatch (filters : GlobalFilterSet) (sessionFilterId : UInt32 → Option FilterId)
    (mode : MatchMode) (next : Ruleset → Matched) (a b : TupleIp) (rule : Ruleset) : Matched :=
  match rule with
  | [] =>
    match sessionFilterId (match mode with | .inward => a.ip | .outward => b.ip) with
    | none => (-1, [])
    | some filterId =>
      let rule := filterGet filters mode filterId
      ipLoop next a b rule rule
  | r :: rs => ipLoop next a b (r :: rs) (r :: rs)

/-- `__filter_match` of `filter_match_tcp.c`. -/
def tcpFilterMatch (next : Ruleset → Matched) (a b : TupleTcp) (rule : Ruleset) : Matched :=
  match rule with
  | [] => (0, [])
  | r :: rs =>
    if ¬ matchPort r.src a.port then (0, r :: rs)
    else if ¬ matchPort r.dst b.port then (0, r :: rs)
    else if ¬ matchFlags r.flags a.flags then (0, r :: rs)
    else next (r :: rs)

/-- `__filter_match` of `filter_match_udp.c`. -/
def udpFilterMatch (next : Ruleset → Matched) (a b : TupleUdp) (rule : Ruleset) : Matched :=
  match rule with
  | [] => (0, [])
  | r :: rs =>
    if ¬ matchPort r.src a.port then (0, r :: rs)
    else if ¬ matchPort r.dst b.port then (0, r :: rs)
    else next (r :: rs)

/-- The rule under the cursor, if there is one, is for another protocol. -/
def protoMismatch (rule : Ruleset) (protocol : ℕ) : Bool :=
  match rule with
  | [] => false
  | r :: _ => r.proto ≠ 0 ∧ r.proto.toNat ≠ protocol

/-- `sw_filter_match`. -/
def filterMatch (filters : GlobalFilterSet) (sessionFilterId : UInt32 → Option FilterId)
    (mode : MatchMode) : Chain → Chain → Ruleset → Matched
  | [], [], rule => (1, rule)
  | [], _ :: _, rule => (-1, rule)
  | _ :: _, [], rule => (-1, rule)
  | x :: as, y :: bs, rule =>
    if x.protocol ≠ y.protocol then (-1, rule)
    else if protoMismatch rule x.protocol then (0, rule)
    else
      let next : Ruleset → Matched := filterMatch filters sessionFilterId mode as bs
      match x, y with
      | .ip a, .ip b => ipFilterMatch filters sessionFilterId mode next a b rule
      | .tcp a, .tcp b => tcpFilterMatch next a b rule
      | .udp a, .udp b => udpFilterMatch next a b rule
      -- no handler for ICMP: consider a match and move forward
      | _, _ => next rule

/-! ## Which rules are matched -/

section

variable {filters : GlobalFilterSet} {sessionFilterId : UInt32 → Option FilterId}
  {mode : MatchMode} {P : FilterRule → Prop}

theorem forall_ipLoop {next : Ruleset → Matched} (hnext : ∀ rule, (∀ r ∈ rule, P r) →
    ∀ r ∈ (next rule).2, P r) (a b : TupleIp) {rules rule : Ruleset} (hrules : ∀ r ∈ rules, P r)
    (hrule : ∀ r ∈ rule, P r) : ∀ r ∈ (ipLoop next a b rules rule).2, P r := by
  induction rules generalizing rule with
  | nil => exact hrule
  | cons r₀ rs ih =>
    have hrest : ∀ r ∈ rs, P r := fun r hr => hrules r (List.mem_cons_of_mem _ hr)
    rw [ipLoop]
    split
    · exact ih hrest hrule
    split
    · exact ih hrest hrule
    have hcursor := hnext (r₀ :: rs) hrules
    generalize next (r₀ :: rs) = m at hcursor ⊢
    dsimp only
    split
    · exact hcursor
    · exact ih hrest hcursor

/-- **The cursor stays in the loaded rules.** -/
theorem forall_filterMatch (hloaded : ∀ id, ∀ r ∈ filterGet filters mode id, P r)
    (as bs : Chain) {rule : Ruleset} (hrule : ∀ r ∈ rule, P r) :
    ∀ r ∈ (filterMatch filters sessionFilterId mode as bs rule).2, P r := by
  induction as generalizing bs rule with
  | nil => cases bs <;> exact hrule
  | cons x as ih =>
    cases bs with
    | nil => exact hrule
    | cons y bs =>
      have hnext : ∀ rule, (∀ r ∈ rule, P r) →
          ∀ r ∈ (filterMatch filters sessionFilterId mode as bs rule).2, P r :=
        fun _ h => ih bs h
      rw [filterMatch]
      split
      · exact hrule
      split
      · exact hrule
      dsimp only
      split
      · unfold ipFilterMatch
        split
        · split
          · simp
          · exact forall_ipLoop hnext _ _ (hloaded _) (hloaded _)
        · exact forall_ipLoop hnext _ _ hrule hrule
      · unfold tcpFilterMatch
        split
        · simp
        · split_ifs <;> first | exact hrule | exact hnext _ hrule
      · unfold udpFilterMatch
        split
        · simp
        · split_ifs <;> first | exact hrule | exact hnext _ hrule
      · exact hnext _ hrule

end

/-! ## What a rule asks for -/

/-- The ports and flags a rule asks for, of the two sides of a transport header. -/
def TransportAccepts (r : FilterRule) : TupleNode → TupleNode → Prop
  | .tcp a, .tcp b =>
    matchPort r.src a.port ∧ matchPort r.dst b.port ∧ matchFlags r.flags a.flags
  | .udp a, .udp b => matchPort r.src a.port ∧ matchPort r.dst b.port
  | _, _ => True

/-- A rule accepts a packet from `a` to `b` that carries `x` and `y`. -/
structure RuleAccepts (r : FilterRule) (a b : TupleIp) (x y : TupleNode) : Prop where
  proto : r.proto = 0 ∨ r.proto.toNat = x.protocol
  src : matchAddress r.src a.ip
  dst : matchAddress r.dst b.ip
  transport : TransportAccepts r x y

/-- Two transport nodes of one kind. -/
inductive SameShape : TupleNode → TupleNode → Prop
  | tcp (a b : TupleTcp) : SameShape (.tcp a) (.tcp b)
  | udp (a b : TupleUdp) : SameShape (.udp a) (.udp b)
  | icmp (a b : TupleIcmp) : SameShape (.icmp a) (.icmp b)

theorem SameShape.protocol_eq {x y : TupleNode} (h : SameShape x y) : x.protocol = y.protocol := by
  cases h <;> rfl

/-! ## First match -/

section

variable {filters : GlobalFilterSet} {sessionFilterId : UInt32 → Option FilterId}
  {mode : MatchMode} {x y : TupleNode}

theorem protoMismatch_cons (r : FilterRule) (rs : Ruleset) (protocol : ℕ) :
    protoMismatch (r :: rs) protocol = false ↔ r.proto = 0 ∨ r.proto.toNat = protocol := by
  simp only [protoMismatch, decide_eq_false_iff_not]
  by_cases h : r.proto = 0 <;> simp [h]

/-- **The walk below the IP header** leaves the cursor alone, and returns 1 or 0 as the rule under
it accepts the transport header or not. -/
theorem filterMatch_transport (hshape : SameShape x y) (r : FilterRule) (rs : Ruleset) :
    ((r.proto = 0 ∨ r.proto.toNat = x.protocol) ∧ TransportAccepts r x y →
      filterMatch filters sessionFilterId mode [x] [y] (r :: rs) = (1, r :: rs)) ∧
    (¬ ((r.proto = 0 ∨ r.proto.toNat = x.protocol) ∧ TransportAccepts r x y) →
      filterMatch filters sessionFilterId mode [x] [y] (r :: rs) = (0, r :: rs)) := by
  rw [← protoMismatch_cons r rs, filterMatch, if_neg (not_not.mpr hshape.protocol_eq)]
  cases hproto : protoMismatch (r :: rs) x.protocol with
  | true => simp
  | false =>
    cases hshape with
    | tcp a b =>
      by_cases hsrc : matchPort r.src a.port <;> by_cases hdst : matchPort r.dst b.port <;>
        by_cases hflags : matchFlags r.flags a.flags <;>
        simp [TransportAccepts, tcpFilterMatch, filterMatch, hsrc, hdst, hflags]
    | udp a b =>
      by_cases hsrc : matchPort r.src a.port <;> by_cases hdst : matchPort r.dst b.port <;>
        simp [TransportAccepts, udpFilterMatch, filterMatch, hsrc, hdst]
    | icmp a b => simp [TransportAccepts, filterMatch]

/-- A match at the first rule of `rules` that accepts, or none. -/
def FirstMatch (accepts : FilterRule → Prop) (rules : Ruleset) (m : Matched) : Prop :=
  (m.1 = 1 ∧ ∃ pre r post, rules = pre ++ r :: post ∧ (∀ r' ∈ pre, ¬ accepts r') ∧ accepts r ∧
    m.2 = r :: post) ∨
  (m.1 = 0 ∧ ∀ r ∈ rules, ¬ accepts r)

/-- A rule that does not accept may go in front. -/
theorem FirstMatch.cons {accepts : FilterRule → Prop} {rules : Ruleset} {m : Matched}
    {r : FilterRule} (hr : ¬ accepts r) (h : FirstMatch accepts rules m) :
    FirstMatch accepts (r :: rules) m := by
  rcases h with ⟨hrc, pre, r', post, hrules, hpre, hacc, hcursor⟩ | ⟨hrc, hnone⟩
  · refine Or.inl ⟨hrc, r :: pre, r', post, by rw [hrules, List.cons_append], ?_, hacc, hcursor⟩
    intro r'' hr''
    rcases List.mem_cons.mp hr'' with rfl | hmem
    · exact hr
    · exact hpre r'' hmem
  · refine Or.inr ⟨hrc, ?_⟩
    intro r'' hr''
    rcases List.mem_cons.mp hr'' with rfl | hmem
    · exact hr
    · exact hnone r'' hmem

/-- **The loop of the IP handler stops at the first rule that accepts**, wherever the cursor was. -/
theorem ipLoop_firstMatch (hshape : SameShape x y) (a b : TupleIp) (rules rule : Ruleset) :
    FirstMatch (RuleAccepts · a b x y) rules
      (ipLoop (filterMatch filters sessionFilterId mode [x] [y]) a b rules rule) := by
  induction rules generalizing rule with
  | nil => exact Or.inr ⟨rfl, by simp⟩
  | cons r rs ih =>
    rw [ipLoop]
    by_cases hsrc : matchAddress r.src a.ip
    · rw [if_neg (not_not.mpr hsrc)]
      by_cases hdst : matchAddress r.dst b.ip
      · rw [if_neg (not_not.mpr hdst)]
        obtain ⟨hyes, hno⟩ := @filterMatch_transport filters sessionFilterId mode x y hshape r rs
        by_cases hacc : (r.proto = 0 ∨ r.proto.toNat = x.protocol) ∧ TransportAccepts r x y
        · rw [hyes hacc]
          exact Or.inl ⟨rfl, [], r, rs, rfl, by simp, ⟨hacc.1, hsrc, hdst, hacc.2⟩, rfl⟩
        · rw [hno hacc]
          simp only [ne_eq, not_true_eq_false, if_false]
          exact (ih _).cons fun h => hacc ⟨h.proto, h.transport⟩
      · rw [if_pos hdst]
        exact (ih _).cons fun h => hdst h.dst
    · rw [if_pos hsrc]
      exact (ih _).cons fun h => hsrc h.src

end

namespace Controller

/-- A session that exists has its filter looked up, and nothing changes. -/
theorem sessionGetFilterId_of_found {cfg : Config} {now : ℤ} {s : Controller} {ip : UInt32}
    {e : SessionEntry} (h : s.sessions.retrieve ip = some e) :
    sessionGetFilterId cfg now s ip = (s, some e.filterId) := by
  rw [sessionGetFilterId, h]

/-- **The packet filter is first match.**  For a packet of a session that exists, the match returns
1 with the cursor on the first rule of the session's rules for that direction that accepts the
packet, and 0 exactly when the session has no filter or no rule accepts. -/
theorem filterMatch_firstMatch (cfg : Config) (now : ℤ) (s : Controller) (mode : MatchMode)
    {x y : TupleNode} (hshape : SameShape x y) (a b : TupleIp) {e : SessionEntry}
    (hsession : s.sessions.retrieve (match mode with | .inward => a.ip | .outward => b.ip) =
      some e) :
    let rules := filterGet cfg.filters mode e.filterId
    let m := filterMatch cfg.filters (fun ip => (sessionGetFilterId cfg now s ip).2) mode
      [.ip a, x] [.ip b, y] []
    FirstMatch (RuleAccepts · a b x y) rules m ∧
      (m.1 = 0 ↔ e.filterId = none ∨ ∀ r ∈ rules, ¬ RuleAccepts r a b x y) := by
  intro rules m
  have hm : m = ipLoop (filterMatch cfg.filters (fun ip => (sessionGetFilterId cfg now s ip).2)
      mode [x] [y]) a b rules rules := by
    have hproto : (TupleNode.ip a).protocol = (TupleNode.ip b).protocol := rfl
    show filterMatch _ _ _ _ _ _ = _
    rw [filterMatch, if_neg (not_not.mpr hproto)]
    simp only [protoMismatch, Bool.false_eq_true, if_false, ipFilterMatch]
    rw [sessionGetFilterId_of_found hsession]
  have hfirst : FirstMatch (RuleAccepts · a b x y) rules m := by
    rw [hm]
    exact ipLoop_firstMatch hshape a b rules rules
  refine ⟨hfirst, ?_⟩
  constructor
  · intro hzero
    rcases hfirst with ⟨hone, -⟩ | ⟨-, hnone⟩
    · omega
    · exact Or.inr hnone
  · intro hcases
    have hnone : ∀ r ∈ rules, ¬ RuleAccepts r a b x y := by
      rcases hcases with hid | hnone
      · intro r hr
        have hempty : rules = [] := by
          show filterGet cfg.filters mode e.filterId = []
          rw [hid]
          rfl
        rw [hempty] at hr
        exact absurd hr List.not_mem_nil
      · exact hnone
    rcases hfirst with ⟨-, pre, r, post, hrules, -, hacc, -⟩ | ⟨hzero, -⟩
    · exact absurd hacc (hnone r (by rw [hrules]; simp))
    · exact hzero

/-- The only user with a session, not yet released. -/
def oneCaptive : Controller :=
  let e := freshSession 0x0a000001 ⟨0, by decide⟩ 0
  { init with sessions := (∅ : KeyedTable entryComparator SessionEntry.ip).insert e }

/-- A DNS query of the captive meets the only rule. -/
theorem filterMatch_firstMatch_query :
    let rules := filterGet oneUserConfig.filters .inward (some ⟨0, by decide⟩)
    let m := filterMatch oneUserConfig.filters
      (fun ip => (sessionGetFilterId oneUserConfig 0 oneCaptive ip).2) .inward
      [.ip ⟨0x0a000001, 1, 0⟩, .udp ⟨4000⟩] [.ip ⟨0xc0000201, 1, 0⟩, .udp ⟨53⟩] []
    FirstMatch (RuleAccepts · ⟨0x0a000001, 1, 0⟩ ⟨0xc0000201, 1, 0⟩ (.udp ⟨4000⟩) (.udp ⟨53⟩))
        rules m ∧
      (m.1 = 0 ↔ some (⟨0, by decide⟩ : FilterSlot) = none ∨
        ∀ r ∈ rules, ¬ RuleAccepts r ⟨0x0a000001, 1, 0⟩ ⟨0xc0000201, 1, 0⟩ (.udp ⟨4000⟩)
          (.udp ⟨53⟩)) :=
  @filterMatch_firstMatch oneUserConfig 0 oneCaptive .inward (.udp ⟨4000⟩) (.udp ⟨53⟩)
    (.udp ⟨4000⟩ ⟨53⟩) ⟨0x0a000001, 1, 0⟩ ⟨0xc0000201, 1, 0⟩
    (freshSession 0x0a000001 ⟨0, by decide⟩ 0) (by decide +kernel)

end Controller

end Sweetspot
