import Sweetspot.Relay.Calls
import Sweetspot.Tuple.Flow

/-!
# Conversations

A user sends a packet, and somebody answers it.  The answer that reaches the user is for the address
and port the packet came from, and comes from those it was sent to.

* `relay_conversation`: the answer is for the user's side of the flow, and is the user's flow
  backwards exactly if its source was left alone or regained (`Regained`).
* `relay_solicited`: and nothing else is let in.
-/

namespace Sweetspot

namespace Flow

/-- The side that sends. -/
def source (f : Flow) : Chain := side f.protocol f.saddr f.sport

/-- The side that is sent to. -/
def target (f : Flow) : Chain := side f.protocol f.daddr f.dport

end Flow

/-- The packet of a user meets a rule that redirects it. -/
def InwardRedirects (cfg : Config) (left : Leftover) (now : Timeval) (fuel : ℕ) (s : Relay)
    (packet : List UInt8) : Prop :=
  ∃ src dst v, Fetches left fuel packet src dst ∧ RedirectedBy cfg now s .inward src dst v

/-- The packet for a user does, its destination being translated. -/
def OutwardRedirects (cfg : Config) (left : Leftover) (now : Timeval) (fuel : ℕ) (s : Relay)
    (packet : List UInt8) : Prop :=
  ∃ src dst nat v, Fetches left fuel packet src dst ∧ s.natSrc.natSrcUndo dst = some nat ∧
    RedirectedBy cfg now s .outward src nat v

/-- The packets of `f` were sent on as `f'`.  An answer regains the side the user sent to: from the
destination NAT if it is redirected, and otherwise because that side was not changed. -/
def Regained (s : Relay) (redirected : Prop) (f f' : Flow) : Prop :=
  (redirected → s.natDst.AnswersWith f.source f.target f'.target) ∧
    (¬ redirected → f'.daddr = f.daddr ∧ f'.dport = f.dport)

/-! ## Sides through the translations -/

section

variable {q : PortProtocol} {ip : UInt32} {port : UInt16} {a b : Chain}

/-- Chains of one shape with a side have one. -/
theorem side_of_sameProtocols (ha : Side q ip port a) (h : SameProtocols a b) :
    ∃ ip' port', Side q ip' port' b := by
  obtain ⟨id, fragOff, flags, rfl⟩ := ha
  obtain ⟨y, bs, hy, hrest, rfl⟩ := List.forall₂_cons_left_iff.1 h
  obtain ⟨z, bs', hz, hnil, rfl⟩ := List.forall₂_cons_left_iff.1 hrest
  rw [List.forall₂_nil_left_iff] at hnil
  subst hnil
  -- a node is determined by its protocol and its fields
  obtain ⟨prv, rfl⟩ : ∃ prv, y = .ip prv := by
    cases y with
    | ip prv => exact ⟨prv, rfl⟩
    | tcp prv => cases hy
    | udp prv => cases hy
    | icmp prv => cases hy
  obtain ⟨port', flags', rfl⟩ : ∃ port' flags', z = q.node port' flags' := by
    cases q <;> cases z <;> first
      | exact ⟨_, _, rfl⟩
      | exact ⟨_, 0, rfl⟩
      | cases hz
  exact ⟨prv.ip, port', prv.id, prv.fragOff, flags', rfl⟩

/-- A chain of a side is as good as the side itself. -/
theorem natTupleCmp_side (ha : Side q ip port a) : natTupleCmp a (side q ip port) = 0 :=
  (natTupleCmp_side_iff ha).2 (side_side q ip port)

/-- Redirecting a side. -/
theorem side_natDstEndpointAssign (ha : Side q ip port a) (ip' : UInt32) (port' : UInt16) :
    Side q ip' port' (natDstEndpointAssign ip' port' a) := by
  obtain ⟨id, fragOff, flags, rfl⟩ := ha
  cases q <;> exact ⟨id, fragOff, flags, rfl⟩

/-- What destination NAT answers depends on the sides only. -/
theorem natDstUndo_congr (n : NatDst) {nat dst nat' dst' : Chain} (hnat : natTupleCmp nat nat' = 0)
    (hdst : natTupleCmp dst dst' = 0) : n.natDstUndo nat dst = n.natDstUndo nat' dst' := by
  have hkey : natRevComparator.comp (dst, nat) (dst', nat') = 0 :=
    (natRevComparator_comp _ _).2 ⟨hdst, hnat⟩
  rw [NatDst.natDstUndo, NatDst.natDstUndo, KeyedTable.retrieve_congr hkey]

/-- So does what source NAT holds. -/
theorem holds_congr {n : NatSrc} {p' q' : Chain} {t : ℤ} (h : n.Holds a b t)
    (hp : natTupleCmp a p' = 0) (hq : natTupleCmp b q' = 0) : n.Holds p' q' t := by
  obtain ⟨r, hr, hrp, hrq, ht⟩ := h
  exact ⟨r, hr, natTupleCmp_trans hrp hp, natTupleCmp_trans hrq hq, ht⟩

end

/-! ## The two ways -/

/-- What is behind a packet does not matter to its flow. -/
theorem HasFlow.buffer {p : List UInt8} {f : Flow} (hp : HasFlow p f) (left : Leftover) :
    HasFlow (left.buffer p) f :=
  hp.congr (left.sameOctets_buffer p) hp.totLen (by exact_mod_cast left.length_le_buffer p)

/-- **A packet that is written back** with other sides is a packet between those. -/
theorem WrittenBack.hasFlow {left : Leftover} {p p' : List UInt8} {f : Flow}
    {src dst osrc odst : Chain} {saddr daddr : UInt32} {sport dport : UInt16}
    (h : WrittenBack left src dst osrc odst p p')
    (hp : HasFlow p f) (hsrc : Side f.protocol saddr sport src)
    (hdst : Side f.protocol daddr dport dst) :
    HasFlow p' ⟨f.protocol, saddr, sport, daddr, dport⟩ := by
  obtain ⟨buffer, rc, hcommit, hrc, rfl⟩ := h
  have hlength : p.length ≤ (left.buffer p).length := by exact_mod_cast left.length_le_buffer p
  have htwenty := hp.twenty_le
  have htotLen : iphTotLen (left.buffer p) 0 = iphTotLen p 0 := by
    rw [iphTotLen, iphTotLen, (left.sameOctets_buffer p).get16 (by omega)]
  exact hasFlow_of_tupleCommit (hp.buffer left) hsrc hdst (by rw [htotLen]; exact hp.totLen) hlength
    hcommit hrc

/-- A packet is fetched into one pair of chains. -/
theorem fetches_unique {left : Leftover} {fuel : ℕ} {p : List UInt8} {src dst src' dst' : Chain}
    (h : Fetches left fuel p src dst) (h' : Fetches left fuel p src' dst') :
    src' = src ∧ dst' = dst := by
  have heq := h'.2
  rw [h.2] at heq
  cases heq
  exact ⟨rfl, rfl⟩

section

variable {cfg : Config} {left : Leftover} {now : Timeval} {fuel : ℕ} {s : Relay}
  {p p' : List UInt8} {f : Flow} {r : Handled}

/-- **The way in.**  The packet is sent from a side that is now bound to that of the user, to the
side it was for unless it is redirected. -/
theorem flow_of_inward (hs : s.natSrc.Paired) (hcongruent : s.Congruent) (hnat : cfg.nat.isSome)
    (hp : HasFlow p f) (h : inwardProc cfg left now fuel s p = some r) (hsent : r.sent = some p') :
    ∃ f', HasFlow p' f' ∧ f'.protocol = f.protocol ∧
      r.relay.natSrc.Holds f.source f'.source now.sec ∧
      (¬ InwardRedirects cfg left now fuel s p → f'.daddr = f.daddr ∧ f'.dport = f.dport) := by
  cases inwardProc_done h with
  | kept _ hnone =>
    rw [hnone hnat] at hsent
    cases hsent
  | @asked src dst dst' n n' pub hfetch htarget hn hdo hn' hwhat =>
    obtain ⟨pub', odst, rfl, hwritten⟩ := hwhat p' hsent
    obtain ⟨hsrc, hdst⟩ := sides_of_tupleFetch (hp.buffer left) hfetch.2
    -- the public side
    have hncongruent : n.Congruent :=
      ⟨by rw [hn.prvHash]; exact hcongruent.src.prvFits,
        by rw [hn.pubHash]; exact hcongruent.src.pubFits⟩
    have hshape := NatSrc.sameProtocols_natSrcDo hncongruent (congrArg Prod.snd hdo)
    obtain ⟨saddr, sport, hpub⟩ := side_of_sameProtocols hsrc hshape
    have hbound := NatSrc.holds_of_done (NatSrc.done_of_natSrcDo hdo) (hn.paired hs).agree
    have hheld : r.relay.natSrc.Holds f.source (side f.protocol saddr sport) now.sec :=
      hn'.holds (holds_congr hbound (natTupleCmp_side hsrc) (natTupleCmp_side hpub))
    rcases htarget with ⟨hplain, rfl⟩ | ⟨v, hv, rfl⟩
    · exact ⟨_, hwritten.hasFlow hp hpub hdst, rfl, hheld, fun _ => ⟨rfl, rfl⟩⟩
    · refine ⟨_, hwritten.hasFlow hp hpub (side_natDstEndpointAssign hdst _ _), rfl, hheld,
        fun hplain => ?_⟩
      exact absurd ⟨src, dst, v, hfetch, hv⟩ hplain

/-- **The way out.**  A packet for a side that is bound is sent to the user's, from the side it came
from unless that is regained. -/
theorem flow_of_outward {t : ℤ} {ip : UInt32} {port : UInt16}
    (hheld : s.natSrc.Holds (side f.protocol ip port) f.target t) (hcongruent : s.Congruent)
    (hnat : cfg.nat.isSome) (hp : HasFlow p f)
    (h : outwardProc cfg left now fuel s p = some r) (hsent : r.sent = some p') :
    ∃ g, HasFlow p' g ∧ g.protocol = f.protocol ∧ g.daddr = ip ∧ g.dport = port ∧
      (OutwardRedirects cfg left now fuel s p →
        ∃ org, s.natDst.natDstUndo f.source (side f.protocol ip port) = some org ∧
          natTupleCmp g.source org = 0) ∧
      (¬ OutwardRedirects cfg left now fuel s p → g.saddr = f.saddr ∧ g.sport = f.sport) := by
  obtain ⟨src, dst, nat, hfetch, hundone, src', osrc, hsource, hwritten⟩ :=
    outwardProc_sent hnat h hsent
  obtain ⟨hsrc, hdst⟩ := sides_of_tupleFetch (hp.buffer left) hfetch.2
  -- the private side
  have huser : Side f.protocol ip port nat := by
    obtain ⟨prv, hprv, hcmp⟩ := NatSrc.undo_of_holds hheld
    have hsame : natTupleCmp dst f.target = 0 := natTupleCmp_side hdst
    rw [NatSrc.natSrcUndo, ← KeyedTable.retrieve_congr (C := natComparator) hsame,
      ← NatSrc.natSrcUndo, hundone] at hprv
    cases hprv
    exact (natTupleCmp_side_iff (side_side f.protocol ip port)).1 (natTupleCmp_symm hcmp)
  rcases hsource with ⟨hplain, rfl⟩ | ⟨⟨v, hv⟩, hundo⟩
  · refine ⟨_, hwritten.hasFlow hp hsrc huser, rfl, rfl, rfl, ?_, fun _ => ⟨rfl, rfl⟩⟩
    rintro ⟨src₁, dst₁, nat₁, v, hfetch₁, hundone₁, hv⟩
    obtain ⟨rfl, rfl⟩ := fetches_unique hfetch hfetch₁
    rw [hundone] at hundone₁
    cases hundone₁
    exact absurd hv (hplain v)
  · have hshape := NatDst.sameProtocols_natDstUndo hcongruent.dst hundo
    obtain ⟨saddr, sport, horg⟩ := side_of_sameProtocols hsrc hshape
    refine ⟨_, hwritten.hasFlow hp horg huser, rfl, rfl, rfl, fun _ => ?_, ?_⟩
    · refine ⟨src', ?_, natTupleCmp_symm (natTupleCmp_side horg)⟩
      rw [← hundo]
      exact natDstUndo_congr _ (natTupleCmp_symm (natTupleCmp_side hsrc))
        (natTupleCmp_symm (natTupleCmp_side huser))
    · intro hplain
      exact absurd ⟨src, dst, nat, v, hfetch, hundone, hv⟩ hplain

end

/-! ## The two together -/

/-- **Conversations.**  Whatever happened before and whatever is handled in between, a packet that
answers a user's packet within `ACTIVE_REL_PROTECT_SEC` seconds is sent on to the address and port
the user's packet came from; and it comes from those the user's packet was sent to exactly if its
source was left alone, or the destination NAT still has it. -/
theorem relay_conversation {s₀ s s₂ : Relay} {calls mid : List RelayCall} (hfresh : s₀.Fresh)
    (hrun : Run RelayCall.Does s₀ calls s) {cfg : Config} {left : Leftover} {now : Timeval}
    {fuel : ℕ} {p p' : List UInt8} {f : Flow} {r : Handled} (hnat : cfg.nat.isSome)
    (hp : HasFlow p f) (h : inwardProc cfg left now fuel s p = some r) (hsent : r.sent = some p')
    (hmid : Run RelayCall.Does r.relay mid s₂) (hwithin : ∀ c ∈ mid, c.Within now.sec) :
    ∃ f', HasFlow p' f' ∧ f'.protocol = f.protocol ∧
      (¬ InwardRedirects cfg left now fuel s p → f'.daddr = f.daddr ∧ f'.dport = f.dport) ∧
      ∀ cfg₂ left₂ now₂ fuel₂ q q' r₂, cfg₂.nat.isSome → HasFlow q f'.reverse →
        outwardProc cfg₂ left₂ now₂ fuel₂ s₂ q = some r₂ → r₂.sent = some q' →
        ∃ g, HasFlow q' g ∧ g.protocol = f.protocol ∧ g.daddr = f.saddr ∧ g.dport = f.sport ∧
          (g = f.reverse ↔
            Regained s₂ (OutwardRedirects cfg₂ left₂ now₂ fuel₂ s₂ q) f f') := by
  obtain ⟨hpaired, hcongruent⟩ := relay_invariant hfresh hrun
  obtain ⟨f', hp', hprotocol, hheld, hplain⟩ :=
    flow_of_inward hpaired hcongruent hnat hp h hsent
  refine ⟨f', hp', hprotocol, hplain, ?_⟩
  intro cfg₂ left₂ now₂ fuel₂ q q' r₂ hnat₂ hq hout hsent₂
  -- the binding is still there
  have hafter : RelayCall.Does s (.inward cfg left now fuel p) r.relay := .inward h
  obtain ⟨-, hcongruent₂⟩ := relay_invariant hfresh
    (Run.append_iff.2 ⟨s, hrun, .cons hafter hmid⟩)
  have hheld₂ := holds_of_calls hmid (paired_of_does hafter hpaired) hwithin hheld
  have hbound : s₂.natSrc.Holds (side f'.reverse.protocol f.saddr f.sport) f'.reverse.target
      now.sec := by
    rw [show f'.reverse.protocol = f.protocol from hprotocol]
    exact hheld₂
  obtain ⟨g, hq', hgprotocol, hgaddr, hgport, hredirected, hleft⟩ :=
    flow_of_outward hbound hcongruent₂ hnat₂ hq hout hsent₂
  have hgprotocol' : g.protocol = f.protocol := hgprotocol.trans hprotocol
  refine ⟨g, hq', hgprotocol', hgaddr, hgport, ?_⟩
  -- only the side it comes from is left
  have hreverse : g = f.reverse ↔ g.saddr = f.daddr ∧ g.sport = f.dport := by
    rw [Flow.ext_iff]
    exact ⟨fun h => ⟨h.2.1, h.2.2.1⟩, fun h => ⟨hgprotocol', h.1, h.2, hgaddr, hgport⟩⟩
  rw [hreverse]
  by_cases hredirects : OutwardRedirects cfg₂ left₂ now₂ fuel₂ s₂ q
  · obtain ⟨org, hundo, horg⟩ := hredirected hredirects
    rw [show f'.reverse.protocol = f.protocol from hprotocol] at hundo
    have hside : Side f.protocol g.saddr g.sport org := by
      refine (natTupleCmp_side_iff ?_).1 horg
      rw [← hgprotocol']
      exact side_side _ _ _
    constructor
    · rintro ⟨haddr, hport⟩
      refine ⟨fun _ => ⟨org, hundo, ?_⟩, fun hno => absurd hredirects hno⟩
      rw [haddr, hport] at hside
      exact natTupleCmp_side hside
    · rintro ⟨hanswers, -⟩
      obtain ⟨org', hundo', horg'⟩ := hanswers hredirects
      rw [show f'.target = f'.reverse.source from rfl, show f.source = side f.protocol f.saddr
        f.sport from rfl, hundo] at hundo'
      cases hundo'
      have htarget := (natTupleCmp_side_iff hside).1 horg'
      obtain ⟨-, haddr, hport⟩ := htarget.unique (side_side f.protocol f.daddr f.dport)
      exact ⟨haddr, hport⟩
  · obtain ⟨haddr, hport⟩ := hleft hredirects
    rw [haddr, hport]
    constructor
    · exact fun h => ⟨fun h' => absurd h' hredirects, fun _ => h⟩
    · exact fun h => h.2 hredirects

/-- Source NAT is on; the user, 10.0.0.1, has 203.0.113.7 and the ports from 1024 to 1123. -/
def translatedConfig : Config :=
  { oneUserConfig with nat := some ⟨[], [], ⟨1, 100⟩, ⟨1, 100⟩, ⟨1, 100⟩⟩ }

def translatedRelay : Relay :=
  { oneCaptiveRelay with
    controller :=
      { Controller.oneCaptive with
        endpoints :=
          { Endpoints.empty with
            ip := (∅ : KeyedTable _ _).insert ⟨0x0a000001, 0xcb007107⟩
            udp := (∅ : KeyedTable _ _).insert ⟨0xcb007107, 0x0a000001, 1024, 1123, 1024, 0⟩ } } }

/-- The query is sent on from 203.0.113.7, port 1024. -/
def translatedQuery : List UInt8 :=
  [0x45, 0, 0, 28, 0, 1, 0, 0, 64, 17, 0x7c, 0xc7, 203, 0, 113, 7, 192, 0, 2, 1,
    4, 0, 0, 53, 0, 8, 0, 0]

/-- And answered. -/
def queryAnswer : List UInt8 :=
  [0x45, 0, 0, 28, 0, 2, 0, 0, 64, 17, 0x7c, 0xc6, 192, 0, 2, 1, 203, 0, 113, 7,
    0, 53, 4, 0, 0, 8, 0, 0]

/-- The flow of the query. -/
def queryFlow : Flow := ⟨.udp, 0x0a000001, 4000, 0xc0000201, 53⟩

/-- The flow it is sent on in. -/
def translatedFlow : Flow := ⟨.udp, 0xcb007107, 1024, 0xc0000201, 53⟩

theorem hasFlow_queryPacket : HasFlow queryPacket queryFlow := by
  constructor <;> decide

/-- Another query of the user, from port 4001. -/
def otherQuery : List UInt8 :=
  [0x45, 0, 0, 28, 0, 3, 0, 0, 64, 17, 0xae, 0xcc, 10, 0, 0, 1, 192, 0, 2, 1,
    15, 161, 0, 53, 0, 8, 0, 0]

theorem relay_conversation_query :
    ∃ r r₁ r₂, inwardProc translatedConfig .zero ⟨100, 0⟩ 2 translatedRelay queryPacket = some r ∧
      inwardProc translatedConfig .zero ⟨100, 500000⟩ 2 r.relay otherQuery = some r₁ ∧
      outwardProc translatedConfig .zero ⟨101, 0⟩ 2 r₁.relay queryAnswer = some r₂ ∧
      ∃ q' g, r₂.sent = some q' ∧ HasFlow q' g ∧ g.daddr = 0x0a000001 ∧ g.dport = 4000 := by
  have hrun : ((inwardProc translatedConfig .zero ⟨100, 0⟩ 2 translatedRelay queryPacket).bind
      fun r => (inwardProc translatedConfig .zero ⟨100, 500000⟩ 2 r.relay otherQuery).bind fun r₁ =>
        (outwardProc translatedConfig .zero ⟨101, 0⟩ 2 r₁.relay queryAnswer).map fun r₂ =>
          (r.sent, r₂.sent.isSome)) = some (some translatedQuery, true) := by decide +kernel
  obtain ⟨r, hr, hrun⟩ := Option.bind_eq_some_iff.1 hrun
  obtain ⟨r₁, hr₁, hrun⟩ := Option.bind_eq_some_iff.1 hrun
  obtain ⟨r₂, hr₂, hrun⟩ := Option.map_eq_some_iff.1 hrun
  obtain ⟨hsent, hsent₂⟩ := Prod.mk.inj hrun
  obtain ⟨q', hq'⟩ := Option.isSome_iff_exists.1 hsent₂
  obtain ⟨f', hf', -, -, hanswer⟩ := @relay_conversation translatedRelay translatedRelay r₁.relay []
    [.inward translatedConfig .zero ⟨100, 500000⟩ 2 otherQuery] ⟨rfl, rfl, rfl⟩ (.nil _)
    translatedConfig .zero ⟨100, 0⟩ 2 queryPacket translatedQuery queryFlow r rfl
    hasFlow_queryPacket hr hsent (.cons (.inward hr₁) (.nil _))
    (by simp [RelayCall.Within, ACTIVE_REL_PROTECT_SEC])
  have htranslated : HasFlow translatedQuery translatedFlow := by constructor <;> decide
  obtain rfl := hf'.unique htranslated
  have hq : HasFlow queryAnswer translatedFlow.reverse := by constructor <;> decide
  obtain ⟨g, hg, -, haddr, hport, -⟩ :=
    hanswer translatedConfig .zero ⟨101, 0⟩ 2 queryAnswer q' r₂ rfl hq hr₂ hq'
  exact ⟨r, r₁, r₂, hr, hr₁, hr₂, q', g, hq', hg, haddr, hport⟩

/-! ## Nothing else is let in -/

/-- Among the calls is the packet of a user whose source was given `pub` at the time `t`, and no
expiry pass after it came more than `RELATION_EXPIRE_INTERVAL` seconds later. -/
inductive LetOut (s₀ s : Relay) (calls : List RelayCall) (src pub : Chain) (t : ℤ) : Prop
  | mk {pre post : List RelayCall} {s₁ s₂ : Relay} {cfg : Config} {left : Leftover} {now : Timeval}
    {fuel : ℕ} {packet : List UInt8} {dst : Chain}
    (hcalls : calls = pre ++ .inward cfg left now fuel packet :: post)
    (hpre : Run RelayCall.Does s₀ pre s₁)
    (hdoes : RelayCall.Does s₁ (.inward cfg left now fuel packet) s₂)
    (hpost : Run RelayCall.Does s₂ post s) (hfetch : Fetches left fuel packet src dst)
    (ht : now.sec = t) (hbound : s₂.natSrc.Holds src pub t)
    (hexpire : ∀ t', .expire t' ∈ post → t' - t ≤ RELATION_EXPIRE_INTERVAL)

section

variable {s₀ s s' : Relay} {calls : List RelayCall} {src pub : Chain} {t : ℤ}

/-- One more call, and if it is an expiry pass it comes in time. -/
theorem LetOut.concat {c : RelayCall} (h : LetOut s₀ s calls src pub t)
    (hdoes : RelayCall.Does s c s')
    (hc : ∀ t', c = .expire t' → t' - t ≤ RELATION_EXPIRE_INTERVAL) :
    LetOut s₀ s' (calls ++ [c]) src pub t := by
  obtain ⟨rfl, hpre, hasked, hpost, hfetch, ht, hbound, hexpire⟩ := h
  refine .mk (by simp) hpre hasked (Run.concat_iff.2 ⟨s, hpost, hdoes⟩) hfetch ht hbound ?_
  intro t' hmem
  rcases List.mem_append.1 hmem with hmem | hmem
  · exact hexpire t' hmem
  · exact hc t' (List.mem_singleton.1 hmem).symm

theorem LetOut.congr {pub' : Chain} (h : LetOut s₀ s calls src pub t)
    (hpub : natTupleCmp pub pub' = 0) : LetOut s₀ s calls src pub' t := by
  obtain ⟨hcalls, hpre, hasked, hpost, hfetch, ht, hbound, hexpire⟩ := h
  exact .mk hcalls hpre hasked hpost hfetch ht (holds_congr hbound (natTupleCmp_self _) hpub)
    hexpire

/-- Every relation was last used for the packet of a user. -/
def AllLetOut (s₀ : Relay) (calls : List RelayCall) (s : Relay) : Prop :=
  ∀ r ∈ s.prvHash, ∃ src, natTupleCmp r.prv src = 0 ∧ LetOut s₀ s calls src r.pub r.lastDlTime

theorem allLetOut_step {c : RelayCall} (hrun : Run RelayCall.Does s₀ calls s)
    (hs : s.natSrc.Paired) (hall : AllLetOut s₀ calls s) (hdoes : RelayCall.Does s c s') :
    AllLetOut s₀ (calls ++ [c]) s' := by
  -- a relation that the call leaves alone
  have hother : ∀ {x}, x ∈ s.prvHash →
      (∀ t', c = .expire t' → t' - x.lastDlTime ≤ RELATION_EXPIRE_INTERVAL) →
      ∃ src, natTupleCmp x.prv src = 0 ∧
        LetOut s₀ s' (calls ++ [c]) src x.pub x.lastDlTime := by
    intro x hx hc
    obtain ⟨src, hsrc, hout⟩ := hall x hx
    exact ⟨src, hsrc, hout.concat hdoes hc⟩
  intro x hx
  change x ∈ s'.natSrc.prvHash at hx
  cases sourceMoves_of_does hdoes with
  | kept hc hkept =>
    rw [hkept.prvHash] at hx
    exact hother hx fun t' ht' => absurd ht' (hc t')
  | @expired now order _ horder hs' =>
    rw [hs'] at hx
    obtain ⟨hmem, hnot⟩ := ((NatSrc.mem_natSrcRelExpire hs.agree horder x).1).1 hx
    refine hother hmem fun t' ht' => ?_
    cases ht'
    exact not_lt.1 hnot
  | @asked cfg left now fuel packet src dst n n' out _ hfetch hn hdo hn' =>
    have hold : ∀ {x}, x ∈ n.prvHash → x ∈ s.prvHash := by
      intro x hx
      rw [hn.prvHash] at hx
      exact hx
    have hdone := NatSrc.done_of_natSrcDo hdo
    -- the relation that the call returns
    have hself : ∀ {x : Relation}, natTupleCmp x.prv src = 0 → now.sec = x.lastDlTime →
        out = some x.pub → ∃ src, natTupleCmp x.prv src = 0 ∧
          LetOut s₀ s' (calls ++ [.inward cfg left now fuel packet]) src x.pub x.lastDlTime := by
      rintro x hprv htime rfl
      have hbound := hn'.holds (NatSrc.holds_of_done hdone (hn.paired hs).agree)
      rw [htime] at hbound
      exact ⟨src, hprv, .mk rfl hrun hdoes (.nil _) hfetch htime hbound (by simp)⟩
    have hkeep : ∀ {x}, x ∈ n.prvHash → ∃ src, natTupleCmp x.prv src = 0 ∧
        LetOut s₀ s' (calls ++ [.inward cfg left now fuel packet]) src x.pub x.lastDlTime :=
      fun hx => hother (hold hx) fun t' ht' => by cases ht'
    rw [hn'.prvHash] at hx
    cases hdone with
    | @refreshed r hheld hs' =>
      subst hs'
      obtain ⟨x, hxmem, rfl⟩ := NatSrc.mem_touch_prvHash.1 hx
      by_cases hrid : x.rid = r.rid
      · obtain rfl := (hn.paired hs).numbered.2 x hxmem r (KeyedTable.mem_of_retrieve hheld) hrid
        refine hself ?_ ?_ ?_
        · rw [Relation.touch_prv]
          exact KeyedTable.comp_of_retrieve hheld
        · simp [Relation.touch]
        · rw [Relation.touch_pub]
      · rw [Relation.touch_of_ne hrid]
        exact hkeep hxmem
    | failed hprv =>
      rw [hprv] at hx
      exact hkeep hx
    | inserted hnew hrid hrprv hrnow hfree hprv =>
      rw [hprv] at hx
      rcases KeyedTable.mem_insert.1 hx with rfl | ⟨hx, -⟩
      · subst hrprv
        exact hself (natTupleCmp_self _) hrnow.symm rfl
      · exact hkeep hx
    | preempted hnew hrid hrprv hrnow hheld hage hprv =>
      rw [hprv] at hx
      rcases KeyedTable.mem_insert.1 hx with rfl | ⟨hx, -⟩
      · subst hrprv
        exact hself (natTupleCmp_self _) hrnow.symm rfl
      · exact hkeep (KeyedTable.mem_delete.1 hx).1

theorem allLetOut_of_run (hfresh : s₀.Fresh) (hrun : Run RelayCall.Does s₀ calls s) :
    AllLetOut s₀ calls s := by
  refine hrun.history (P := AllLetOut s₀) ?_ ?_
  · intro r hr
    rw [hfresh.prvHash] at hr
    exact absurd hr (KeyedTable.not_mem_empty r)
  · intro calls s c s' hrun hall hdoes
    exact allLetOut_step hrun (relay_invariant hfresh hrun).1 hall hdoes

end

/-- **Nothing unasked gets in.**  Whatever happened before, a packet that is sent on to a user is
for the source of a packet that the user sent earlier, which was given the destination of this one;
and no expiry pass since came more than `RELATION_EXPIRE_INTERVAL` seconds after that packet. -/
theorem relay_solicited {s₀ s : Relay} {calls : List RelayCall} (hfresh : s₀.Fresh)
    (hrun : Run RelayCall.Does s₀ calls s) {cfg : Config} {left : Leftover} {now : Timeval}
    {fuel : ℕ} {q q' : List UInt8} {r : Handled} (hnat : cfg.nat.isSome)
    (h : outwardProc cfg left now fuel s q = some r) (hsent : r.sent = some q') :
    ∃ src dst user t, Fetches left fuel q src dst ∧ LetOut s₀ s calls user dst t ∧
      ∀ g, HasFlow q g → ∃ g', HasFlow q' g' ∧ g'.protocol = g.protocol ∧
        Side g.protocol g'.daddr g'.dport user := by
  obtain ⟨hpaired, hcongruent⟩ := relay_invariant hfresh hrun
  obtain ⟨src, dst, nat, hfetch, hundone, -⟩ := outwardProc_sent hnat h hsent
  obtain ⟨x, hfound, rfl⟩ := Option.map_eq_some_iff.1 hundone
  have hx : x ∈ s.pubHash := KeyedTable.mem_of_retrieve hfound
  have hxpub : natTupleCmp x.pub dst = 0 := KeyedTable.comp_of_retrieve hfound
  obtain ⟨user, huser, hout⟩ := allLetOut_of_run hfresh hrun x ((hpaired.agree x).2 hx)
  refine ⟨src, dst, user, x.lastDlTime, hfetch, hout.congr hxpub, ?_⟩
  intro g hg
  obtain ⟨-, hdst⟩ := sides_of_tupleFetch (hg.buffer left) hfetch.2
  -- the private side is one of the same protocol
  obtain ⟨-, hshape⟩ := NatSrc.fits_natSrcUndo hcongruent.src hundone
  obtain ⟨ip, port, hprv⟩ := side_of_sameProtocols hdst hshape
  have hheld : s.natSrc.Holds (side g.protocol ip port) g.target x.lastDlTime :=
    ⟨x, hx, natTupleCmp_side hprv, natTupleCmp_trans hxpub (natTupleCmp_side hdst), le_rfl⟩
  obtain ⟨g', hg', hprotocol, rfl, rfl, -⟩ := flow_of_outward hheld hcongruent hnat hg h hsent
  exact ⟨g', hg', hprotocol, (natTupleCmp_side_iff hprv).1 huser⟩

/-- The answer, as it reaches the user. -/
def deliveredAnswer : List UInt8 :=
  [0x45, 0, 0, 28, 0, 2, 0, 0, 64, 17, 0xae, 0xcd, 192, 0, 2, 1, 10, 0, 0, 1,
    0, 53, 15, 160, 0, 8, 0, 0]

theorem relay_solicited_answer :
    ∃ s src dst user t, Fetches .zero 2 queryAnswer src dst ∧
      LetOut translatedRelay s [.inward translatedConfig .zero ⟨100, 0⟩ 2 queryPacket] user dst t ∧
      ∀ g, HasFlow queryAnswer g → ∃ g', HasFlow deliveredAnswer g' ∧ g'.protocol = g.protocol ∧
        Side g.protocol g'.daddr g'.dport user := by
  have hsent : ((inwardProc translatedConfig .zero ⟨100, 0⟩ 2 translatedRelay queryPacket).bind
      fun r => (outwardProc translatedConfig .zero ⟨101, 0⟩ 2 r.relay queryAnswer).map
        Handled.sent) = some (some deliveredAnswer) := by decide +kernel
  obtain ⟨r, hr, hsent⟩ := Option.bind_eq_some_iff.1 hsent
  obtain ⟨r₂, hr₂, hsent₂⟩ := Option.map_eq_some_iff.1 hsent
  exact ⟨r.relay, @relay_solicited translatedRelay r.relay
    [.inward translatedConfig .zero ⟨100, 0⟩ 2 queryPacket] ⟨rfl, rfl, rfl⟩
    (.single (.inward hr)) translatedConfig .zero ⟨101, 0⟩ 2 queryAnswer deliveredAnswer r₂ rfl hr₂
    hsent₂⟩

end Sweetspot
