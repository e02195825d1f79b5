import Sweetspot.Filter.Match
import Sweetspot.Tuple.Bounds

/-!
# What a matching rule has asked

The walk of `sw_filter_match` tests a rule only against the headers it comes by.  A chain that ends
early leaves conditions untested, an IP header below another one starts the loop again with
addresses of its own, and the last header of a chain may have been read behind the packet.

* `Layered`: the shapes of the chains a packet can have (`layered_of_tupleFetch`).
* `presentNodes`: the nodes that were read from the packet (`presentNodes_of_tupleFetch`).
* `Answered`: every condition of the rule is met by a header of the packet.
* `AsksNoMore`: the rule that the walk stops at has no condition left untested.
* `filterMatch_answered_iff`: a match is answered exactly then.
-/

namespace Sweetspot

/-! ## The chains of a packet -/

/-- An IP header, and below it nothing for a later fragment, or one header, or another IP header,
perhaps behind an ICMP header. -/
inductive Layered : Chain → Chain → Prop
  | fragment (a b : TupleIp) : Layered [.ip a] [.ip b]
  | carries (a b : TupleIp) {x y : TupleNode} (h : SameShape x y) : Layered [.ip a, x] [.ip b, y]
  | tunnels (a b : TupleIp) {c d : TupleIp} {as bs : Chain}
    (h : Layered (.ip c :: as) (.ip d :: bs)) :
    Layered (.ip a :: .ip c :: as) (.ip b :: .ip d :: bs)
  | quotes (a b : TupleIp) (x y : TupleIcmp) {c d : TupleIp} {as bs : Chain}
    (h : Layered (.ip c :: as) (.ip d :: bs)) :
    Layered (.ip a :: .icmp x :: .ip c :: as) (.ip b :: .icmp y :: .ip d :: bs)

theorem Layered.exists_ip {as bs : Chain} (h : Layered as bs) :
    ∃ a b as' bs', as = .ip a :: as' ∧ bs = .ip b :: bs' := by
  cases h with
  | fragment a b => exact ⟨a, b, _, _, rfl, rfl⟩
  | carries a b h => exact ⟨a, b, _, _, rfl, rfl⟩
  | tunnels a b h => exact ⟨a, b, _, _, rfl, rfl⟩
  | quotes a b x y h => exact ⟨a, b, _, _, rfl, rfl⟩

/-! ## What a rule asks for -/

/-- The target has a condition on the port: a list of ports, or a range other than 0 to 0. -/
def FilterTarget.AsksPort (tg : FilterTarget) : Prop :=
  match tg.op with
  | .rg => ¬ (tg.portLo = 0 ∧ tg.portHi = 0)
  | _ => tg.ports ≠ []

/-- One of the two targets has. -/
def FilterRule.AsksPorts (r : FilterRule) : Prop := r.src.AsksPort ∨ r.dst.AsksPort

/-- The rule has a condition on the TCP flags. -/
def FilterRule.AsksFlags (r : FilterRule) : Prop := r.flags.mask ≠ 0

/-- The nets of the rule have the two addresses. -/
def NetsMatch (r : FilterRule) (a b : TupleIp) : Prop :=
  matchAddress r.src a.ip ∧ matchAddress r.dst b.ip

/-- They have the addresses of the first header. -/
def OuterMatch (r : FilterRule) : Chain → Chain → Prop
  | .ip a :: _, .ip b :: _ => NetsMatch r a b
  | _, _ => False

/-- The ports of a header satisfy the two targets. -/
def PortsMatch (r : FilterRule) : TupleNode → TupleNode → Prop
  | .tcp a, .tcp b => matchPort r.src a.port ∧ matchPort r.dst b.port
  | .udp a, .udp b => matchPort r.src a.port ∧ matchPort r.dst b.port
  | _, _ => False

/-- The flags of a header satisfy the rule. -/
def FlagsMatch (r : FilterRule) : TupleNode → Prop
  | .tcp a => matchFlags r.flags a.flags
  | _ => False

/-- The protocol, port and flag conditions of the rule are each satisfied by one of the headers that
the nodes are from; `quoted` if there is an ICMP header above them. -/
structure HeadersAnswer (quoted : Prop) (r : FilterRule) (nodes : List (TupleNode × TupleNode)) :
    Prop where
  proto : r.proto ≠ 0 →
    (quoted ∧ r.proto.toNat = IPPROTO_ICMP) ∨ ∃ xy ∈ nodes, xy.1.protocol = r.proto.toNat
  ports : r.AsksPorts → ∃ xy ∈ nodes, PortsMatch r xy.1 xy.2
  flags : r.AsksFlags → ∃ xy ∈ nodes, FlagsMatch r xy.1

/-- `sizeof` the header of a protocol. -/
def headerSize (protocol : ℕ) : ℕ :=
  if protocol = IPPROTO_UDP ∨ protocol = IPPROTO_ICMP then 8 else 20

/-- All octets of the header are in the packet, the first `length` octets of the buffer. -/
def Header.Inside (length : ℤ) (h : Header) : Prop := (h.off + headerSize h.protocol : ℕ) ≤ length

instance (length : ℤ) (h : Header) : Decidable (h.Inside length) :=
  inferInstanceAs (Decidable (_ ≤ _))

/-- The header that the handler goes on to, if it does. -/
def Header.next (buffer : List UInt8) (h : Header) : Header :=
  if h.protocol = IPPROTO_IP then
    ⟨iphProtocol buffer h.off, iphPayload buffer h.off, iphPayloadLen buffer h.off⟩
  else ⟨IPPROTO_IP, h.off + 8, h.length - 8⟩

/-- The nodes of the two chains whose headers are in the packet; the first two are from `h`. -/
def presentNodes (buffer : List UInt8) (length : ℤ) :
    Header → Chain → Chain → List (TupleNode × TupleNode)
  | h, x :: as, y :: bs =>
    let nodes := presentNodes buffer length (h.next buffer) as bs
    if h.Inside length then (x, y) :: nodes else nodes
  | _, _, _ => []

/-- **Every condition of the rule is met**: its nets have the outer addresses, and a header of the
packet satisfies each of the others. -/
structure Answered (buffer : List UInt8) (length : ℤ) (r : FilterRule) (as bs : Chain) : Prop where
  outer : OuterMatch r as bs
  headers : HeadersAnswer False r (presentNodes buffer length ⟨IPPROTO_IP, 0, length⟩ as bs)

/-! ## What the walk leaves untested -/

instance (r : FilterRule) (x y : TupleNode) : Decidable (TransportAccepts r x y) := by
  unfold TransportAccepts
  split <;> infer_instance

instance (r : FilterRule) (a b : TupleIp) : Decidable (NetsMatch r a b) :=
  inferInstanceAs (Decidable (_ ∧ _))

theorem ruleAccepts_iff (r : FilterRule) (a b : TupleIp) (x y : TupleNode) :
    RuleAccepts r a b x y ↔
      (r.proto = 0 ∨ r.proto.toNat = x.protocol) ∧ NetsMatch r a b ∧ TransportAccepts r x y :=
  ⟨fun h => ⟨h.proto, ⟨h.src, h.dst⟩, h.transport⟩, fun h => ⟨h.1, h.2.1.1, h.2.1.2, h.2.2⟩⟩

instance (r : FilterRule) (a b : TupleIp) (x y : TupleNode) : Decidable (RuleAccepts r a b x y) :=
  decidable_of_iff' _ (ruleAccepts_iff r a b x y)

/-- From the first rule on that is for every protocol and has the addresses: where the loop stands
when it comes to a further IP header. -/
def skipTo (a b : TupleIp) (rules : Ruleset) : Ruleset :=
  rules.dropWhile fun r => ¬ (r.proto = 0 ∧ NetsMatch r a b)

/-- The conditions that no handler tests a rule for, once it has accepted a header `x`. -/
def Untested (r : FilterRule) : TupleNode → Prop
  | .tcp _ => False
  | .udp _ => r.AsksFlags
  | _ => r.AsksPorts ∨ r.AsksFlags

/-- The rule asks for nothing but addresses, or for ICMP where an ICMP header is above. -/
def AsksNothing (quoted : Prop) (r : FilterRule) : Prop :=
  ¬ r.AsksPorts ∧ ¬ r.AsksFlags ∧ (r.proto = 0 ∨ quoted ∧ r.proto.toNat = IPPROTO_ICMP)

/-- The last header that a chain is from; the first is `h`. -/
def lastHeader (buffer : List UInt8) : Header → Chain → Header
  | h, _ :: x :: as => lastHeader buffer (h.next buffer) (x :: as)
  | h, _ => h

/-- The first rule that the last headers of the chains satisfy has no condition left untested, and
`outer` holds of it.  Where the chains end at the IP header, or their last header is not in the
packet (`present`), it has no condition at all, unless it is for ICMP and behind an ICMP header. -/
def AsksNoMore (outer : FilterRule → Prop) (present quoted : Prop) :
    Chain → Chain → Ruleset → Prop
  | .ip a :: .ip c :: as, .ip b :: .ip d :: bs, rules =>
    AsksNoMore outer present quoted (.ip c :: as) (.ip d :: bs) (skipTo a b rules)
  | .ip a :: .icmp _ :: .ip c :: as, .ip b :: .icmp _ :: .ip d :: bs, rules =>
    AsksNoMore outer present True (.ip c :: as) (.ip d :: bs) (skipTo a b rules)
  | [.ip a, x], [.ip b, y], rules =>
    ∀ r, (rules.find? fun r => RuleAccepts r a b x y) = some r →
      outer r ∧ (present ∧ ¬ Untested r x ∨ ¬ present ∧ AsksNothing quoted r)
  | [.ip a], [.ip b], rules =>
    ∀ r, (rules.find? fun r => NetsMatch r a b) = some r → outer r ∧ AsksNothing quoted r
  | _, _, _ => True

/-- The rules of the session on the user's side of a packet. -/
def sessionRules (filters : GlobalFilterSet) (sessionFilterId : UInt32 → Option FilterId)
    (mode : MatchMode) : Chain → Chain → Ruleset
  | .ip a :: _, .ip b :: _ =>
    ((sessionFilterId (match mode with | .inward => a.ip | .outward => b.ip)).map
      (filterGet filters mode)).getD []
  | _, _ => []


/-! ## The shapes a fetch makes -/

section

variable {uninit : ℕ → TupleIcmp × TupleIcmp} {packet : List UInt8} {fuel protocol off : ℕ}
  {length : ℤ} {as bs : Chain}

/-- What a header can carry: one header, an IP header, or one behind an ICMP header. -/
inductive Carried : Chain → Chain → Prop
  | single {x y : TupleNode} (h : SameShape x y) : Carried [x] [y]
  | behind (x y : TupleIcmp) {as bs : Chain} (h : Layered as bs) :
    Carried (.icmp x :: as) (.icmp y :: bs)
  | below {as bs : Chain} (h : Layered as bs) : Carried as bs

theorem Carried.layered (a b : TupleIp) (h : Carried as bs) :
    Layered (.ip a :: as) (.ip b :: bs) := by
  cases h with
  | single h => exact .carries a b h
  | behind x y h =>
    obtain ⟨c, d, as', bs', rfl, rfl⟩ := h.exists_ip
    exact .quotes a b x y h
  | below h =>
    obtain ⟨c, d, as', bs', rfl, rfl⟩ := h.exists_ip
    exact .tunnels a b h

theorem layered_of_ipFetch {fetch : ℕ → ℕ → ℤ → Fetched}
    (hfetch : ∀ protocol off length as bs,
      fetch protocol off length = some (some (as, bs)) → Carried as bs)
    (h : ipFetch fetch packet off length = some (some (as, bs))) : Layered as bs := by
  unfold ipFetch at h
  split at h
  · cases h
  split at h
  · cases h
  simp only [] at h
  split at h
  · cases h
    exact .fragment _ _
  · obtain ⟨as', bs', hrest, rfl, rfl⟩ := Fetched.push_eq_some.mp h
    exact (hfetch _ _ _ _ _ hrest).layered _ _

theorem carried_of_icmpFetch {fetch : ℕ → ℕ → ℤ → Fetched}
    (hfetch : ∀ off length as bs,
      fetch IPPROTO_IP off length = some (some (as, bs)) → Layered as bs)
    (h : icmpFetch uninit fetch packet off length = some (some (as, bs))) : Carried as bs := by
  unfold icmpFetch at h
  split at h
  · cases h
  simp only [] at h
  split at h
  · cases h
    exact .single (.icmp _ _)
  split at h
  · cases h
    exact .single (.icmp _ _)
  split at h
  · cases h
    exact .single (.icmp _ _)
  · obtain ⟨as', bs', hrest, rfl, rfl⟩ := Fetched.push_eq_some.mp h
    exact .behind _ _ (hfetch _ _ _ _ hrest)

theorem carried_of_tupleFetch
    (h : tupleFetch uninit packet fuel protocol off length = some (some (as, bs))) :
    Carried as bs ∧ (protocol = IPPROTO_IP → Layered as bs) := by
  induction fuel generalizing protocol off length as bs with
  | zero => cases h
  | succ fuel ih =>
    rw [tupleFetch] at h
    split at h
    · have hlayered := layered_of_ipFetch (fun _ _ _ _ _ h => (ih h).1) h
      exact ⟨.below hlayered, fun _ => hlayered⟩
    rename_i hip
    refine ⟨?_, fun h => absurd h hip⟩
    split at h
    · unfold tcpFetch at h
      split at h <;> cases h
      exact .single (.tcp _ _)
    split at h
    · unfold udpFetch at h
      split at h <;> cases h
      exact .single (.udp _ _)
    split at h
    · exact carried_of_icmpFetch (fun _ _ _ _ h => (ih h).2 rfl) h
    · cases h

/-- **A fetch that begins at an IP header** makes chains of that shape. -/
theorem layered_of_tupleFetch
    (h : tupleFetch uninit packet fuel IPPROTO_IP off length = some (some (as, bs))) :
    Layered as bs :=
  (carried_of_tupleFetch h).2 rfl

end

/-! ## The loop of the IP handler -/

section

variable {next next' : Ruleset → Matched} {a b c d : TupleIp} {rules rule : Ruleset}

theorem ipLoop_cons (next : Ruleset → Matched) (a b : TupleIp) (r : FilterRule)
    (rs rule : Ruleset) :
    ipLoop next a b (r :: rs) rule =
      if NetsMatch r a b then
        if (next (r :: rs)).1 ≠ 0 then next (r :: rs) else ipLoop next a b rs (next (r :: rs)).2
      else ipLoop next a b rs rule := by
  rw [ipLoop]
  by_cases hsrc : matchAddress r.src a.ip <;> by_cases hdst : matchAddress r.dst b.ip <;>
    simp [NetsMatch, hsrc, hdst]

/-- The loop finds nothing exactly if no rule it comes to matches. -/
theorem ipLoop_eq_zero_iff :
    (ipLoop next a b rules rule).1 = 0 ↔
      ∀ r rs, r :: rs <:+ rules → NetsMatch r a b → (next (r :: rs)).1 = 0 := by
  induction rules generalizing rule with
  | nil => simp [ipLoop]
  | cons r rs ih =>
    rw [ipLoop_cons]
    constructor
    · intro hzero r' rs' hsuffix hnets
      rcases List.suffix_cons_iff.mp hsuffix with heq | hsuffix
      · cases heq
        rw [if_pos hnets] at hzero
        by_contra hne
        rw [if_pos hne] at hzero
        exact hne hzero
      · by_cases hr : NetsMatch r a b
        · rw [if_pos hr] at hzero
          by_cases hne : (next (r :: rs)).1 ≠ 0
          · rw [if_pos hne] at hzero
            exact absurd hzero hne
          · rw [if_neg hne] at hzero
            exact ih.mp hzero r' rs' hsuffix hnets
        · rw [if_neg hr] at hzero
          exact ih.mp hzero r' rs' hsuffix hnets
    · intro h
      have hrest : ∀ rule, (ipLoop next a b rs rule).1 = 0 := fun rule =>
        ih.mpr fun r' rs' hsuffix => h r' rs' (hsuffix.trans (List.suffix_cons r rs))
      by_cases hr : NetsMatch r a b
      · have hzero := h r rs List.suffix_rfl hr
        rw [if_pos hr, if_neg (not_not.mpr hzero)]
        exact hrest _
      · rw [if_neg hr]
        exact hrest _

/-- Where every rule is tested by itself, the loop is a search. -/
theorem ipLoop_find_iff (test : FilterRule → Bool)
    (hnext : ∀ r rs, next (r :: rs) = (if test r then 1 else 0, r :: rs)) {r : FilterRule} :
    (∃ rs, ipLoop next a b rules rule = (1, r :: rs)) ↔
      (rules.find? fun r => NetsMatch r a b ∧ test r) = some r := by
  induction rules generalizing rule with
  | nil => simp [ipLoop]
  | cons r' rs ih =>
    rw [ipLoop_cons, hnext, List.find?_cons]
    by_cases hnets : NetsMatch r' a b <;> cases htest : test r' <;> simp [hnets, ih]

/-- Where the rest of the chains is walked by another loop, that loop decides from the first rule on
that gets to it: it has found nothing there only if it finds nothing from a later rule on. -/
theorem ipLoop_skipTo
    (hnext : ∀ r rs, next (r :: rs) =
      if r.proto = 0 then ipLoop next' c d (r :: rs) (r :: rs) else (0, r :: rs))
    {m : Matched} (hm : m.1 ≠ 0) :
    ipLoop next a b rules rule = m ↔
      ipLoop next' c d (skipTo a b rules) (skipTo a b rules) = m := by
  induction rules generalizing rule with
  | nil => simp [skipTo, ipLoop, Prod.ext_iff, hm.symm]
  | cons r rs ih =>
    rw [ipLoop_cons, hnext]
    by_cases hr : r.proto = 0 ∧ NetsMatch r a b
    · have hskip : skipTo a b (r :: rs) = r :: rs := by simp [skipTo, hr.1, hr.2]
      rw [hskip, if_pos hr.1, if_pos hr.2]
      by_cases hfound : (ipLoop next' c d (r :: rs) (r :: rs)).1 ≠ 0
      · rw [if_pos hfound]
      · rw [if_neg hfound]
        push Not at hfound
        have hlater := ipLoop_eq_zero_iff.mp hfound
        have hrest : ∀ rule, (ipLoop next a b rs rule).1 = 0 := by
          intro rule
          refine ipLoop_eq_zero_iff.mpr fun r' rs' hsuffix _ => ?_
          rw [hnext]
          split
          · refine ipLoop_eq_zero_iff.mpr fun r'' rs'' hsuffix' => ?_
            exact hlater r'' rs'' (hsuffix'.trans (hsuffix.trans (List.suffix_cons r rs)))
          · rfl
        constructor
        · intro h
          rw [← h] at hm
          exact absurd (hrest _) hm
        · intro h
          rw [← h] at hm
          exact absurd hfound hm
    · have hskip : skipTo a b (r :: rs) = skipTo a b rs := by
        rw [skipTo, List.dropWhile_cons, if_pos (decide_eq_true hr)]
        rfl
      rw [hskip]
      by_cases hnets : NetsMatch r a b
      · have hproto : r.proto ≠ 0 := fun h => hr ⟨h, hnets⟩
        rw [if_pos hnets, if_neg hproto]
        simp only [ne_eq, not_true_eq_false, if_false]
        exact ih
      · rw [if_neg hnets]
        exact ih

end

/-! ## What is left untested -/

section

variable {filters : GlobalFilterSet} {sessionFilterId : UInt32 → Option FilterId}
  {mode : MatchMode} {r : FilterRule} {as bs : Chain} {a b : TupleIp} {x y : TupleNode}
  {quoted : Prop}

/-- The loop of the first IP header. -/
def walk (filters : GlobalFilterSet) (sessionFilterId : UInt32 → Option FilterId)
    (mode : MatchMode) : Chain → Chain → Ruleset → Ruleset → Matched
  | .ip a :: as, .ip b :: bs, rules, rule =>
    ipLoop (filterMatch filters sessionFilterId mode as bs) a b rules rule
  | _, _, _, rule => (-1, rule)

/-- An IP header below another one: its loop, for a rule without a protocol. -/
theorem filterMatch_ip_cons (r : FilterRule) (rs : Ruleset) :
    filterMatch filters sessionFilterId mode (.ip a :: as) (.ip b :: bs) (r :: rs) =
      if r.proto = 0 then
        walk filters sessionFilterId mode (.ip a :: as) (.ip b :: bs) (r :: rs) (r :: rs)
      else (0, r :: rs) := by
  have hprotocol : (TupleNode.ip a).protocol = (TupleNode.ip b).protocol := rfl
  rw [filterMatch, if_neg (not_not.mpr hprotocol)]
  by_cases hproto : r.proto = 0
  · simp [protoMismatch, hproto, ipFilterMatch, walk]
  · have hmismatch : protoMismatch (r :: rs) (TupleNode.ip a).protocol = true := by
      have hne : r.proto.toNat ≠ 0 := fun h => hproto (UInt8.toNat_inj.mp h)
      simpa [protoMismatch, hproto, TupleNode.protocol, IPPROTO_IP] using hne
    rw [if_pos hmismatch, if_neg hproto]

/-- The same behind an ICMP header. -/
theorem filterMatch_icmp_ip_cons (x y : TupleIcmp) (r : FilterRule) (rs : Ruleset) :
    filterMatch filters sessionFilterId mode (.icmp x :: .ip a :: as) (.icmp y :: .ip b :: bs)
        (r :: rs) =
      if r.proto = 0 then
        walk filters sessionFilterId mode (.ip a :: as) (.ip b :: bs) (r :: rs) (r :: rs)
      else (0, r :: rs) := by
  have hprotocol : (TupleNode.icmp x).protocol = (TupleNode.icmp y).protocol := rfl
  rw [filterMatch, if_neg (not_not.mpr hprotocol)]
  simp only [filterMatch_ip_cons]
  split
  · rename_i hmismatch
    have hproto : r.proto ≠ 0 := by
      intro h
      simp [protoMismatch, h] at hmismatch
    rw [if_neg hproto]
  · rfl

/-- A header that has accepted a rule answers what it asks, but for what no handler tests. -/
theorem headersAnswer_single (hshape : SameShape x y) (h : RuleAccepts r a b x y) :
    HeadersAnswer quoted r [(x, y)] ↔ ¬ Untested r x := by
  have hproto : r.proto ≠ 0 → (quoted ∧ r.proto.toNat = IPPROTO_ICMP) ∨
      ∃ xy ∈ [(x, y)], TupleNode.protocol xy.1 = r.proto.toNat := by
    intro hne
    exact Or.inr ⟨(x, y), List.mem_singleton_self _, (h.proto.resolve_left hne).symm⟩
  cases hshape with
  | tcp p q =>
    refine iff_of_true ⟨hproto, fun _ => ?_, fun _ => ?_⟩ id
    · exact ⟨_, List.mem_singleton_self _, h.transport.1, h.transport.2.1⟩
    · exact ⟨_, List.mem_singleton_self _, h.transport.2.2⟩
  | udp p q =>
    constructor
    · intro hanswer hasks
      obtain ⟨xy, hxy, hflags⟩ := hanswer.flags hasks
      rw [List.mem_singleton] at hxy
      subst hxy
      exact hflags
    · intro huntested
      refine ⟨hproto, fun _ => ?_, fun hasks => absurd hasks huntested⟩
      exact ⟨_, List.mem_singleton_self _, h.transport⟩
  | icmp p q =>
    constructor
    · rintro hanswer (hasks | hasks)
      · obtain ⟨xy, hxy, hports⟩ := hanswer.ports hasks
        rw [List.mem_singleton] at hxy
        subst hxy
        exact hports
      · obtain ⟨xy, hxy, hflags⟩ := hanswer.flags hasks
        rw [List.mem_singleton] at hxy
        subst hxy
        exact hflags
    · intro huntested
      exact ⟨hproto, fun hasks => absurd (Or.inl hasks) huntested,
        fun hasks => absurd (Or.inr hasks) huntested⟩

/-- Where there is no header, nothing is answered. -/
theorem headersAnswer_nil : HeadersAnswer quoted r [] ↔ AsksNothing quoted r := by
  constructor
  · rintro ⟨hproto, hports, hflags⟩
    refine ⟨fun hasks => ?_, fun hasks => ?_, ?_⟩
    · obtain ⟨xy, hxy, -⟩ := hports hasks
      cases hxy
    · obtain ⟨xy, hxy, -⟩ := hflags hasks
      cases hxy
    · by_cases hzero : r.proto = 0
      · exact Or.inl hzero
      · rcases hproto hzero with hquoted | ⟨xy, hxy, -⟩
        · exact Or.inr hquoted
        · cases hxy
  · rintro ⟨hports, hflags, hproto⟩
    exact ⟨fun hne => Or.inl (hproto.resolve_left hne), fun h => absurd h hports,
      fun h => absurd h hflags⟩

/-- A header on top that has neither ports nor flags changes no more than which protocols are
answered. -/
theorem headersAnswer_cons {quoted' : Prop} {nodes : List (TupleNode × TupleNode)}
    (hports : ¬ PortsMatch r x y) (hflags : ¬ FlagsMatch r x)
    (hproto : r.proto ≠ 0 →
      ((quoted ∧ r.proto.toNat = IPPROTO_ICMP ∨
          ∃ xy ∈ (x, y) :: nodes, TupleNode.protocol xy.1 = r.proto.toNat) ↔
        (quoted' ∧ r.proto.toNat = IPPROTO_ICMP ∨
          ∃ xy ∈ nodes, TupleNode.protocol xy.1 = r.proto.toNat))) :
    HeadersAnswer quoted r ((x, y) :: nodes) ↔ HeadersAnswer quoted' r nodes := by
  have hportsOf : (∃ xy ∈ (x, y) :: nodes, PortsMatch r xy.1 xy.2) ↔
      ∃ xy ∈ nodes, PortsMatch r xy.1 xy.2 := by
    simp [hports]
  have hflagsOf : (∃ xy ∈ (x, y) :: nodes, FlagsMatch r xy.1) ↔
      ∃ xy ∈ nodes, FlagsMatch r xy.1 := by
    simp [hflags]
  constructor
  · intro h
    exact ⟨fun hne => (hproto hne).mp (h.proto hne), fun hasks => hportsOf.mp (h.ports hasks),
      fun hasks => hflagsOf.mp (h.flags hasks)⟩
  · intro h
    exact ⟨fun hne => (hproto hne).mpr (h.proto hne), fun hasks => hportsOf.mpr (h.ports hasks),
      fun hasks => hflagsOf.mpr (h.flags hasks)⟩

/-- An IP header on top answers nothing. -/
theorem headersAnswer_ip_cons {nodes : List (TupleNode × TupleNode)} :
    HeadersAnswer quoted r ((.ip a, .ip b) :: nodes) ↔ HeadersAnswer quoted r nodes := by
  refine headersAnswer_cons id id fun hne => ?_
  have hprotocol : (TupleNode.ip a).protocol ≠ r.proto.toNat := fun h =>
    hne (UInt8.toNat_inj.mp h.symm)
  simp [hprotocol]

/-- An ICMP header on top answers a rule for ICMP. -/
theorem headersAnswer_icmp_cons {p q : TupleIcmp} {nodes : List (TupleNode × TupleNode)} :
    HeadersAnswer quoted r ((.icmp p, .icmp q) :: nodes) ↔ HeadersAnswer True r nodes := by
  refine headersAnswer_cons id id fun _ => ?_
  constructor
  · rintro (⟨-, hicmp⟩ | ⟨z, hz, hprotocol⟩)
    · exact Or.inl ⟨trivial, hicmp⟩
    · rcases List.mem_cons.mp hz with rfl | hz
      · exact Or.inl ⟨trivial, hprotocol.symm⟩
      · exact Or.inr ⟨z, hz, hprotocol⟩
  · rintro (⟨-, hicmp⟩ | ⟨z, hz, hprotocol⟩)
    · exact Or.inr ⟨_, List.mem_cons_self, hicmp.symm⟩
    · exact Or.inr ⟨z, List.mem_cons_of_mem _ hz, hprotocol⟩

/-- All nodes, or all but the last. -/
def allBut (present : Prop) [Decidable present] (as bs : Chain) : List (TupleNode × TupleNode) :=
  if present then as.zip bs else (as.zip bs).dropLast

theorem allBut_cons (present : Prop) [Decidable present] (x y x' y' : TupleNode) (as bs : Chain) :
    allBut present (x :: x' :: as) (y :: y' :: bs) =
      (x, y) :: allBut present (x' :: as) (y' :: bs) := by
  unfold allBut
  split <;> rfl

/-- At an IP header with one header below it, the walk stops at the first rule that both satisfy. -/
theorem walk_carries_iff (hshape : SameShape x y) {rules rule : Ruleset} (r : FilterRule) :
    (∃ rs, walk filters sessionFilterId mode [.ip a, x] [.ip b, y] rules rule = (1, r :: rs)) ↔
      (rules.find? fun r => RuleAccepts r a b x y) = some r := by
  have hnext : ∀ r rs, filterMatch filters sessionFilterId mode [x] [y] (r :: rs) =
      (if decide ((r.proto = 0 ∨ r.proto.toNat = x.protocol) ∧ TransportAccepts r x y) then 1
        else 0, r :: rs) := by
    intro r rs
    obtain ⟨hyes, hno⟩ := @filterMatch_transport filters sessionFilterId mode x y hshape r rs
    by_cases hacc : (r.proto = 0 ∨ r.proto.toNat = x.protocol) ∧ TransportAccepts r x y
    · rw [hyes hacc, decide_eq_true hacc]
      rfl
    · rw [hno hacc, decide_eq_false hacc]
      rfl
  rw [walk, ipLoop_find_iff _ hnext]
  simp only [ruleAccepts_iff, decide_eq_true_eq, and_left_comm]

/-- What its headers answer of that rule. -/
theorem headersAnswer_carries_iff (hshape : SameShape x y) (h : RuleAccepts r a b x y)
    (present : Prop) [Decidable present] :
    HeadersAnswer quoted r (allBut present [.ip a, x] [.ip b, y]) ↔
      present ∧ ¬ Untested r x ∨ ¬ present ∧ AsksNothing quoted r := by
  rw [allBut_cons, headersAnswer_ip_cons, ← headersAnswer_single hshape h, ← headersAnswer_nil,
    allBut]
  by_cases hpresent : present
  · simp only [hpresent, if_true, true_and, not_true_eq_false, false_and, or_false]
    exact Iff.rfl
  · simp only [hpresent, if_false, not_false_eq_true, true_and, false_and, false_or]
    exact Iff.rfl

/-- **The condition**, by induction on the layers: the loops of all IP headers end where the search
of the last one does. -/
theorem asksNoMore_iff (outer : FilterRule → Prop) (present quoted : Prop) [Decidable present]
    {rules rule : Ruleset} (h : Layered as bs) :
    AsksNoMore outer present quoted as bs rules ↔
      ∀ r rs, walk filters sessionFilterId mode as bs rules rule = (1, r :: rs) →
        outer r ∧ HeadersAnswer quoted r (allBut present as bs) := by
  induction h generalizing quoted rules rule with
  | fragment a b =>
    have hfind := fun r => @ipLoop_find_iff (filterMatch filters sessionFilterId mode [] []) a b
      rules rule (fun _ => true) (fun _ _ => rfl) r
    have hanswer : ∀ r, HeadersAnswer quoted r (allBut present [.ip a] [.ip b]) ↔
        AsksNothing quoted r := by
      intro r
      rw [allBut, ← headersAnswer_nil]
      split
      · exact headersAnswer_ip_cons
      · exact Iff.rfl
    simp only [and_true] at hfind
    simp only [AsksNoMore, walk, ← hfind, hanswer]
    exact ⟨fun h r rs hwalk => h r ⟨rs, hwalk⟩, fun h r ⟨rs, hwalk⟩ => h r rs hwalk⟩
  | @carries a b x y hshape =>
    have hasks : AsksNoMore outer present quoted [.ip a, x] [.ip b, y] rules ↔
        ∀ r, (rules.find? fun r => RuleAccepts r a b x y) = some r →
          outer r ∧ (present ∧ ¬ Untested r x ∨ ¬ present ∧ AsksNothing quoted r) := by
      cases hshape <;> exact Iff.rfl
    rw [hasks]
    constructor
    · intro h r rs hwalk
      have hfound := (walk_carries_iff hshape r).mp ⟨rs, hwalk⟩
      have haccepts : RuleAccepts r a b x y := by simpa using List.find?_some hfound
      exact (h r hfound).imp_right (headersAnswer_carries_iff hshape haccepts present).mpr
    · intro h r hfound
      obtain ⟨rs, hwalk⟩ := (walk_carries_iff hshape r).mpr hfound
      have haccepts : RuleAccepts r a b x y := by simpa using List.find?_some hfound
      exact (h r rs hwalk).imp_right (headersAnswer_carries_iff hshape haccepts present).mp
  | @tunnels a b c d as bs h ih =>
    have hskip := fun r rs => @ipLoop_skipTo
      (filterMatch filters sessionFilterId mode (.ip c :: as) (.ip d :: bs))
      (filterMatch filters sessionFilterId mode as bs) a b c d rules rule
      filterMatch_ip_cons (1, r :: rs) (by simp)
    simp only [AsksNoMore]
    rw [ih quoted]
    simp only [allBut_cons, headersAnswer_ip_cons]
    constructor
    · intro hinner r rs hwalk
      exact hinner r rs ((hskip r rs).mp hwalk)
    · intro houter r rs hwalk
      exact houter r rs ((hskip r rs).mpr hwalk)
  | @quotes a b x y c d as bs h ih =>
    have hskip := fun r rs => @ipLoop_skipTo
      (filterMatch filters sessionFilterId mode (.icmp x :: .ip c :: as) (.icmp y :: .ip d :: bs))
      (filterMatch filters sessionFilterId mode as bs) a b c d rules rule
      (filterMatch_icmp_ip_cons x y) (1, r :: rs) (by simp)
    simp only [AsksNoMore]
    rw [ih True]
    simp only [allBut_cons, headersAnswer_ip_cons, headersAnswer_icmp_cons]
    constructor
    · intro hinner r rs hwalk
      exact hinner r rs ((hskip r rs).mp hwalk)
    · intro houter r rs hwalk
      exact houter r rs ((hskip r rs).mpr hwalk)

/-- The walk begins with the rules of the session. -/
theorem filterMatch_nil (h : Layered as bs) {rs : Ruleset} :
    filterMatch filters sessionFilterId mode as bs [] = (1, r :: rs) ↔
      let rules := sessionRules filters sessionFilterId mode as bs
      walk filters sessionFilterId mode as bs rules rules = (1, r :: rs) := by
  obtain ⟨a, b, as', bs', rfl, rfl⟩ := h.exists_ip
  have hprotocol : (TupleNode.ip a).protocol = (TupleNode.ip b).protocol := rfl
  rw [filterMatch, if_neg (not_not.mpr hprotocol)]
  simp only [protoMismatch, Bool.false_eq_true, if_false, ipFilterMatch, sessionRules, walk]
  cases sessionFilterId (match mode with | .inward => a.ip | .outward => b.ip) with
  | none => simp [ipLoop]
  | some filterId => exact Iff.rfl

/-! ## What is in the packet -/

/-- A header that goes on to another one is in the packet itself. -/
theorem inside_of_next {uninit : ℕ → TupleIcmp × TupleIcmp} {buffer : List UInt8} {fuel : ℕ}
    {length : ℤ} {h : Header} (hbound : h.off + h.length ≤ length)
    (hfetch : tupleFetch uninit buffer fuel h.protocol h.off h.length =
      some (some (x :: as, y :: bs))) (has : as ≠ []) :
    h.Inside length ∧ (h.next buffer).off + (h.next buffer).length ≤ length ∧
      ∃ fuel', tupleFetch uninit buffer fuel' (h.next buffer).protocol (h.next buffer).off
        (h.next buffer).length = some (some (as, bs)) := by
  obtain ⟨protocol, off, len⟩ := h
  simp only at hbound hfetch
  by_cases hip : protocol = IPPROTO_IP
  · subst hip
    obtain ⟨-, hsize, htot, as', bs', ha, hb, hrest⟩ := tupleFetch_ip hfetch
    cases ha
    cases hb
    have hlen : 20 ≤ len := le_of_not_sizeLt hsize (le_trans (by omega) htot)
    rcases hrest with ⟨-, rfl, -⟩ | ⟨-, fuel', hnext⟩
    · exact absurd rfl has
    · refine ⟨?_, ?_, fuel', hnext⟩
      · show ((off + 20 : ℕ) : ℤ) ≤ length
        push_cast
        omega
      · have hend := iphPayload_add_payloadLen buffer off
        show ((iphPayload buffer off : ℕ) : ℤ) + iphPayloadLen buffer off ≤ length
        omega
  by_cases hicmp : protocol = IPPROTO_ICMP
  · subst hicmp
    obtain ⟨fuel', hnext⟩ := tupleFetch_icmp_next hfetch has
    obtain ⟨-, hsize, htot, -⟩ := tupleFetch_ip hnext
    have hlen : 20 ≤ len - 8 := le_of_not_sizeLt hsize (le_trans (by omega) htot)
    refine ⟨?_, ?_, fuel', hnext⟩
    · show ((off + 8 : ℕ) : ℤ) ≤ length
      push_cast
      omega
    · show ((off + 8 : ℕ) : ℤ) + (len - 8) ≤ length
      push_cast
      omega
  -- the other handlers end the chains
  by_cases htcp : protocol = IPPROTO_TCP
  · subst htcp
    obtain ⟨-, ha, -⟩ := tupleFetch_tcp hfetch
    cases ha
    exact absurd rfl has
  by_cases hudp : protocol = IPPROTO_UDP
  · subst hudp
    obtain ⟨-, ha, -⟩ := tupleFetch_udp hfetch
    cases ha
    exact absurd rfl has
  · cases fuel with
    | zero => cases hfetch
    | succ fuel => simp [tupleFetch, hip, htcp, hudp, hicmp] at hfetch

/-- **All nodes are from the packet**, or all but the last. -/
theorem presentNodes_of_tupleFetch {uninit : ℕ → TupleIcmp × TupleIcmp} {buffer : List UInt8}
    {fuel : ℕ} {length : ℤ} {h : Header} (hbound : h.off + h.length ≤ length)
    (hfetch : tupleFetch uninit buffer fuel h.protocol h.off h.length = some (some (as, bs))) :
    presentNodes buffer length h as bs =
      allBut ((lastHeader buffer h as).Inside length) as bs := by
  induction as generalizing bs fuel h with
  | nil =>
    obtain ⟨x, as, -, -, ha, -⟩ := exists_cons_of_tupleFetch hfetch
    cases ha
  | cons x as ih =>
    obtain ⟨-, -, y, bs, -, rfl, -⟩ := exists_cons_of_tupleFetch hfetch
    cases as with
    | nil =>
      -- both chains end here
      obtain rfl : bs = [] := by
        cases (carried_of_tupleFetch hfetch).1 with
        | single h => rfl
        | behind _ _ h => cases h
        | below h =>
          cases h
          rfl
      have hlast : lastHeader buffer h [x] = h := by simp only [lastHeader]
      rw [hlast, allBut]
      simp only [presentNodes]
      by_cases hinside : h.Inside length
      · rw [if_pos hinside, if_pos hinside]
        rfl
      · rw [if_neg hinside, if_neg hinside]
        rfl
    | cons x' as =>
      obtain ⟨hinside, hbound', fuel', hnext⟩ := inside_of_next hbound hfetch (by simp)
      obtain ⟨-, -, y', bs', -, rfl, -⟩ := exists_cons_of_tupleFetch hnext
      rw [presentNodes, if_pos hinside, ih hbound' hnext, lastHeader, allBut_cons]

/-- **Every condition of a matching rule is met, exactly if none was left untested**: for any packet
that is fetched and any filters, the rule a match stops at is answered by the packet if and only if
the first rule that the last headers satisfy asks no more. -/
theorem filterMatch_answered_iff {uninit : ℕ → TupleIcmp × TupleIcmp} {buffer : List UInt8}
    {fuel : ℕ} {length : ℤ}
    (hfetch : tupleFetch uninit buffer fuel IPPROTO_IP 0 length = some (some (as, bs)))
    (filters : GlobalFilterSet) (sessionFilterId : UInt32 → Option FilterId) (mode : MatchMode) :
    (∀ r rs, filterMatch filters sessionFilterId mode as bs [] = (1, r :: rs) →
        Answered buffer length r as bs) ↔
      AsksNoMore (OuterMatch · as bs)
        ((lastHeader buffer ⟨IPPROTO_IP, 0, length⟩ as).Inside length) False as bs
        (sessionRules filters sessionFilterId mode as bs) := by
  have hlayered := layered_of_tupleFetch hfetch
  have hpresent := @presentNodes_of_tupleFetch as bs uninit buffer fuel length
    ⟨IPPROTO_IP, 0, length⟩ (by simp) hfetch
  rw [asksNoMore_iff (OuterMatch · as bs) _ False hlayered, ← hpresent]
  constructor
  · intro h r rs hwalk
    obtain ⟨houter, hheaders⟩ := h r rs ((filterMatch_nil hlayered).mpr hwalk)
    exact ⟨houter, hheaders⟩
  · intro h r rs hmatch
    obtain ⟨houter, hheaders⟩ := h r rs ((filterMatch_nil hlayered).mp hmatch)
    exact ⟨houter, hheaders⟩

end

/-- One filter, whose only rule is for TCP to port 80. -/
def webFilters : GlobalFilterSet := fun idx =>
  if idx = ⟨0, filterSlots_pos⟩ then
    some ⟨"web", [⟨⟨0, 0, [], 0, 0, .none⟩, ⟨0, 0, [80], 0, 0, .eq⟩, ⟨0, 0⟩, 6, ⟨1, 0, 0, 0⟩, 1⟩],
      []⟩
  else none

/-- A later fragment of a datagram that 10.0.0.1 sends over UDP. -/
def laterFragment : List UInt8 :=
  [0x45, 0, 0, 28, 0, 1, 0, 1, 64, 17, 0, 0, 10, 0, 0, 1, 192, 0, 2, 1, 0, 0, 0, 0, 0, 0, 0, 0]

/-- A query over UDP. -/
def queryDatagram : List UInt8 :=
  [0x45, 0, 0, 28, 0, 1, 0, 0, 64, 17, 0xae, 0xce, 10, 0, 0, 1, 192, 0, 2, 1,
    0x0f, 0xa0, 0, 53, 0, 8, 0x24, 0x07]

/-- The query comes by the rule and is answered, since nothing matches. -/
theorem filterMatch_answered_iff_query :
    (∀ r rs, filterMatch webFilters (fun _ => some (some ⟨0, by decide⟩)) .inward
        [.ip ⟨0x0a000001, 1, 0⟩, .udp ⟨4000⟩] [.ip ⟨0xc0000201, 1, 0⟩, .udp ⟨53⟩] [] =
          (1, r :: rs) →
        Answered queryDatagram 28 r [.ip ⟨0x0a000001, 1, 0⟩, .udp ⟨4000⟩]
          [.ip ⟨0xc0000201, 1, 0⟩, .udp ⟨53⟩]) ↔
      AsksNoMore (OuterMatch · [.ip ⟨0x0a000001, 1, 0⟩, .udp ⟨4000⟩]
          [.ip ⟨0xc0000201, 1, 0⟩, .udp ⟨53⟩])
        ((lastHeader queryDatagram ⟨IPPROTO_IP, 0, 28⟩
          [.ip ⟨0x0a000001, 1, 0⟩, .udp ⟨4000⟩]).Inside 28) False
        [.ip ⟨0x0a000001, 1, 0⟩, .udp ⟨4000⟩] [.ip ⟨0xc0000201, 1, 0⟩, .udp ⟨53⟩]
        (sessionRules webFilters (fun _ => some (some ⟨0, by decide⟩)) .inward
          [.ip ⟨0x0a000001, 1, 0⟩, .udp ⟨4000⟩] [.ip ⟨0xc0000201, 1, 0⟩, .udp ⟨53⟩]) :=
  @filterMatch_answered_iff [.ip ⟨0x0a000001, 1, 0⟩, .udp ⟨4000⟩]
    [.ip ⟨0xc0000201, 1, 0⟩, .udp ⟨53⟩] (fun _ => (⟨0, 0, 0⟩, ⟨0, 0, 0⟩)) queryDatagram 2 28
    (by decide) webFilters
    (fun _ => some (some ⟨0, by decide⟩)) .inward

/-- The fragment matches the rule for TCP. -/
theorem filterMatch_fragment :
    ¬ ∀ uninit buffer fuel length as bs,
      tupleFetch uninit buffer fuel IPPROTO_IP 0 length = some (some (as, bs)) →
      ∀ filters sessionFilterId mode r rs,
        filterMatch filters sessionFilterId mode as bs [] = (1, r :: rs) →
          Answered buffer length r as bs := by
  intro h
  have hanswered := h (fun _ => (⟨0, 0, 0⟩, ⟨0, 0, 0⟩)) laterFragment 1 28
    [.ip ⟨0x0a000001, 1, 1⟩] [.ip ⟨0xc0000201, 1, 1⟩] (by decide) webFilters
    (fun _ => some (some ⟨0, by decide⟩)) .inward _ _ rfl
  -- it carries no TCP
  obtain ⟨-, hicmp⟩ | ⟨xy, hxy, hprotocol⟩ := hanswered.headers.proto (by decide)
  · exact absurd hicmp (by decide)
  · have hnodes : presentNodes laterFragment 28 ⟨IPPROTO_IP, 0, 28⟩ [.ip ⟨0x0a000001, 1, 1⟩]
        [.ip ⟨0xc0000201, 1, 1⟩] = [(.ip ⟨0x0a000001, 1, 1⟩, .ip ⟨0xc0000201, 1, 1⟩)] := by
      decide
    rw [hnodes, List.mem_singleton] at hxy
    subst hxy
    exact absurd hprotocol (by decide)

end Sweetspot
