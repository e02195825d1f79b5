import Sweetspot.Relay.Tables

/-!
# Whose packet it is

The filter is looked up, traffic is counted and packets are scheduled by the address of the user:
the source of a packet of his, and the destination of a packet for him once source NAT is undone.

* `Attributed`: the chains that a handler calls with are all of that address.
* `relay_attributed_iff`: they are, but for a packet that is shaped on its way in while there is no
  source NAT: it is scheduled with no chain at all.
-/

namespace Sweetspot

/-- A chain of the address. -/
def OfAddress (ip : Option UInt32) (tupleChain : Chain) : Prop :=
  ∃ prv as, tupleChain = .ip prv :: as ∧ ip = some prv.ip

/-- Every call is made with a chain of the address. -/
def Attributed (ip : Option UInt32) (r : Handled) : Prop :=
  ∀ c ∈ r.calls, OfAddress ip c.tupleChain

/-- The actions that shape and with which a packet goes on. -/
def ActionShapes (action : ℕ) : Prop :=
  action = SW_FILTER_ACTION_SHAPE ∨
    action = SW_FILTER_ACTION_PASS ||| SW_FILTER_ACTION_SHAPE ∨
    action = SW_FILTER_ACTION_DNAT ||| SW_FILTER_ACTION_SHAPE

/-- The chains can be written back to the packet. -/
def Commits (left : Leftover) (src dst osrc odst : Chain) (packet : List UInt8) : Prop :=
  ∃ buffer rc, tupleCommit left.pseudoHdr none src ⟨none, dst⟩ ⟨none, osrc⟩ ⟨none, odst⟩
    (left.buffer packet) 0 packet.length = some (buffer, rc) ∧ rc ≠ -1

/-- The packet comes in, meets the rule and can be sent on: redirected, or to where it was going. -/
def GoesOn (left : Leftover) (v : FilterVerdict) (src dst : Chain) (packet : List UInt8) : Prop :=
  (ActionRedirects v.action ∧
      Commits left src (natDstEndpointAssign v.dnatIp v.dnatPort dst) [] dst packet) ∨
    (ActionPasses v.action ∧ Commits left src dst [] [] packet)

/-- The chains of a packet that is handled, given `fuel` calls to fetch them. -/
def Fetches (left : Leftover) (fuel : ℕ) (packet : List UInt8) (src dst : Chain) : Prop :=
  packet.length ≠ 0 ∧
    tupleFetch left.icmp (left.buffer packet) fuel IPPROTO_IP 0 packet.length =
      some (some (src, dst))

/-- A packet comes in while there is no source NAT, and goes on by a rule that shapes. -/
def ShapedUntranslated (cfg : Config) (left : Leftover) (now : Timeval) (fuel : ℕ) (s : Relay)
    (packet : List UInt8) : Prop :=
  cfg.nat = none ∧ ∃ src dst rule rules, Fetches left fuel packet src dst ∧
    (relayFilterMatch cfg now s .inward src dst).2 = (1, rule :: rules) ∧
    ActionShapes rule.verdict.action ∧ GoesOn left rule.verdict src dst packet

/-- The user a packet is for: the destination, once source NAT is undone. -/
def outwardUser (cfg : Config) (s : Relay) (dst : Chain) : Option UInt32 :=
  match if cfg.nat.isSome then s.natSrc.natSrcUndo dst else some dst with
  | some (.ip prv :: _) => some prv.ip
  | _ => none

/-! ## The calls -/

theorem attributed_after {ip : Option UInt32} {c : ServiceCall} {r : Handled} :
    Attributed ip (r.after c) ↔ OfAddress ip c.tupleChain ∧ Attributed ip r :=
  List.forall_mem_cons

theorem attributed_after_of {ip : Option UInt32} {c : ServiceCall} {r : Handled}
    (h : OfAddress ip c.tupleChain) : Attributed ip (r.after c) ↔ Attributed ip r := by
  rw [attributed_after, and_iff_right h]

theorem attributed_of_no_calls {ip : Option UInt32} {r : Handled} (h : r.calls = []) :
    Attributed ip r := by
  intro c hc
  rw [h] at hc
  cases hc

section

variable {cfg : Config} {left : Leftover} {now : Timeval} {s : Relay} {packet : List UInt8}

/-- Once it is scheduled a packet's chain is not used. -/
theorem calls_shapeAndSend (queueId : QueueId) (direction : ShapeDir) (tupleChain : Chain)
    (rate : ℤ) : (shapeAndSend now s queueId direction tupleChain rate packet).calls = [] := by
  unfold shapeAndSend
  split
  · rfl
  · dsimp only
    split_ifs
    · rfl
    · rfl
    · split
      · rfl
      · split <;> rfl

/-- **A packet is scheduled** if its rule shapes and its chains are written back. -/
theorem attributed_commitAndSend {ip : Option UInt32} (queueId : QueueId) (direction : ShapeDir)
    (src dst osrc odst shaped : Chain) (rate : Option ℤ) :
    Attributed ip
        (commitAndSend left now s queueId direction src dst osrc odst shaped rate packet) ↔
      (rate ≠ none → Commits left src dst osrc odst packet → OfAddress ip shaped) := by
  unfold commitAndSend Commits
  cases tupleCommit left.pseudoHdr none src ⟨none, dst⟩ ⟨none, osrc⟩ ⟨none, odst⟩
    (left.buffer packet) 0 packet.length with
  | none => simp [attributed_of_no_calls (r := .crash s) rfl]
  | some res =>
    obtain ⟨buffer, rc⟩ := res
    by_cases hrc : rc = -1
    · simp [hrc, attributed_of_no_calls (r := .drop s) rfl]
    · cases rate with
      | none => simp [hrc, attributed_of_no_calls (r := .send s (buffer.take packet.length)) rfl]
      | some rate =>
        have hrest : Attributed ip
            (shapeAndSend now s queueId direction shaped rate (buffer.take packet.length)) :=
          attributed_of_no_calls (calls_shapeAndSend _ _ _ _)
        simp [hrc, attributed_after, hrest, ServiceCall.tupleChain]

/-- With source NAT a packet is scheduled with the chain it came with, and without it with none. -/
theorem attributed_inwardTranslate {src : Chain} {prv : TupleIp} {as : Chain}
    (hsrc : src = .ip prv :: as) (dst odst : Chain) (rate : Option ℤ) :
    Attributed (some prv.ip) (inwardTranslate cfg left now s src dst odst rate packet) ↔
      ¬ (cfg.nat = none ∧ rate ≠ none ∧ Commits left src dst [] odst packet) := by
  unfold inwardTranslate
  cases cfg.nat with
  | none =>
    have hnull : ¬ OfAddress (some prv.ip) [] := by
      rintro ⟨prv', as', h, -⟩
      cases h
    simp only [Option.isSome_none, Bool.false_eq_true, if_false, attributed_commitAndSend, hnull,
      true_and, not_and]
  | some nat =>
    simp only [Option.isSome_some, if_true, reduceCtorEq, false_and, not_false_iff, iff_true]
    split
    · exact attributed_of_no_calls rfl
    · exact (attributed_commitAndSend _ _ _ _ _ _ _ _).2 fun _ _ => ⟨prv, as, hsrc, rfl⟩

/-- The rate of a rule that goes on is used if its action shapes. -/
theorem rate_ne_none_iff {v : FilterVerdict}
    (h : ActionPasses v.action ∨ ActionRedirects v.action) :
    v.rate ≠ none ↔ ActionShapes v.action := by
  obtain ⟨action, ip, port, rate⟩ := v
  rcases h with (rfl | rfl | rfl) | (rfl | rfl) <;>
    simp [FilterVerdict.rate, ActionShapes, SW_FILTER_ACTION_PASS, SW_FILTER_ACTION_DNAT,
      SW_FILTER_ACTION_SHAPE]

theorem ActionShapes.goes {action : ℕ} (h : ActionShapes action) :
    ActionPasses action ∨ ActionRedirects action := by
  rcases h with rfl | rfl | rfl
  · exact Or.inl (Or.inr (Or.inr rfl))
  · exact Or.inl (Or.inr (Or.inl rfl))
  · exact Or.inr (Or.inr rfl)

theorem ActionPasses.not_redirects {action : ℕ} (h : ActionPasses action) :
    ¬ ActionRedirects action := by
  rcases h with rfl | rfl | rfl <;>
    simp [ActionRedirects, SW_FILTER_ACTION_PASS, SW_FILTER_ACTION_DNAT, SW_FILTER_ACTION_SHAPE]

theorem ActionShapes.ne_block {action : ℕ} (h : ActionShapes action) :
    action ≠ SW_FILTER_ACTION_BLOCK := by
  rcases h with rfl | rfl | rfl <;>
    simp [SW_FILTER_ACTION_PASS, SW_FILTER_ACTION_BLOCK, SW_FILTER_ACTION_DNAT,
      SW_FILTER_ACTION_SHAPE]

/-- **A packet that comes in** is attributed to its source, unless it is scheduled without source
NAT. -/
theorem attributed_inwardRelay {src dst : Chain} {prv : TupleIp} {as : Chain}
    (hsrc : src = .ip prv :: as) :
    Attributed (some prv.ip) (inwardRelay cfg left now s src dst packet) ↔
      ¬ (cfg.nat = none ∧ ∃ rule rules,
        (relayFilterMatch cfg now s .inward src dst).2 = (1, rule :: rules) ∧
          ActionShapes rule.verdict.action ∧ GoesOn left rule.verdict src dst packet) := by
  have huser : OfAddress (some prv.ip) src := ⟨prv, as, hsrc, rfl⟩
  rcases hres : relayFilterMatch cfg now s .inward src dst with ⟨s₁, m⟩
  rw [inwardRelay_eq cfg left now hres,
    attributed_after_of (c := .filter (userChain .inward src dst)) huser]
  have hrules : (cfg.nat = none ∧ ∃ rule rules, m = (1, rule :: rules) ∧
      ActionShapes rule.verdict.action ∧ GoesOn left rule.verdict src dst packet) ↔
        ∃ rule, (∃ rules, m = (1, rule :: rules)) ∧ cfg.nat = none ∧
          ActionShapes rule.verdict.action ∧ GoesOn left rule.verdict src dst packet := by
    constructor
    · rintro ⟨hnat, rule, rules, hm, h⟩
      exact ⟨rule, ⟨rules, hm⟩, hnat, h⟩
    · rintro ⟨rule, ⟨rules, hm⟩, hnat, h⟩
      exact ⟨hnat, rule, rules, hm, h⟩
  rw [hrules]
  refine decideAction_iff (fun d => Attributed (some prv.ip)
    (inwardDecided cfg left now s₁ packet d))
    (fun v => cfg.nat = none ∧ ActionShapes v.action ∧ GoesOn left v src dst packet)
    ?_ (attributed_of_no_calls rfl) ?_ ?_ ?_ ?_
  · rw [inwardDecided, attributed_after_of (c := .gauge src) huser,
      attributed_inwardTranslate hsrc]
    simp
  · intro v hpass
    rw [inwardDecided, attributed_after_of (c := .gauge src) huser,
      attributed_inwardTranslate hsrc, rate_ne_none_iff (Or.inl hpass)]
    simp [GoesOn, hpass, hpass.not_redirects]
  · intro v hdnat
    have hnotPass : ¬ ActionPasses v.action := fun h => h.not_redirects hdnat
    rw [inwardRedirect_eq, inwardDecided, attributed_after_of (c := .gauge src) huser,
      attributed_inwardTranslate hsrc, rate_ne_none_iff (Or.inr hdnat)]
    simp [GoesOn, hdnat, hnotPass]
  · exact fun v h => h.2.1.ne_block
  · intro rule rules _ hunhandled
    refine iff_of_true (attributed_of_no_calls rfl) ?_
    exact fun h => hunhandled (h.2.1.goes.imp_right Or.inl)

/-- **A packet that goes out** is attributed to its destination. -/
theorem attributed_outwardFilter (hs : s.Congruent) {src dst : Chain} {prv : TupleIp} {as : Chain}
    (hdst : dst = .ip prv :: as) (odst : Chain) :
    Attributed (some prv.ip) (outwardFilter cfg left now s src dst odst packet) := by
  have huser : OfAddress (some prv.ip) dst := ⟨prv, as, hdst, rfl⟩
  unfold outwardFilter
  have hmatch := hs.kept (@relayFilterMatch_natKept cfg now s .outward src dst)
  generalize relayFilterMatch cfg now s .outward src dst = res at hmatch ⊢
  obtain ⟨s, m⟩ := res
  dsimp only at hmatch ⊢
  rw [attributed_after_of (c := .filter (userChain .outward src dst)) huser]
  split
  · exact attributed_of_no_calls rfl
  · rename_i hgo
    obtain ⟨-, rfl, -⟩ := outwardDecide_fits hmatch.dst hgo
    rw [attributed_after_of (c := .gauge _) huser, attributed_commitAndSend]
    exact fun _ _ => huser

theorem attributed_outwardRelay (hs : s.Congruent) {src dst : Chain} (hdst : BeginsIp dst) :
    Attributed (outwardUser cfg s dst) (outwardRelay cfg left now s src dst packet) := by
  unfold outwardRelay outwardUser
  split_ifs
  · cases hundo : s.natSrc.natSrcUndo dst with
    | none => exact attributed_of_no_calls rfl
    | some nat =>
      obtain ⟨⟨prv, as, rfl⟩, -⟩ := NatSrc.fits_natSrcUndo hs.src hundo
      exact attributed_outwardFilter hs rfl dst
  · obtain ⟨prv, as, rfl⟩ := hdst
    exact attributed_outwardFilter hs rfl []

end

/-- **Consistent attribution.**  Whatever happened before, a packet that comes in is looked up,
counted and scheduled by its source, unless it is shaped without source NAT, and a packet that goes
out by its destination once source NAT is undone. -/
theorem relay_attributed_iff {s₀ s : Relay} (hfresh : s₀.Fresh)
    (hrun : Relation.ReflTransGen RelayStep s₀ s) (cfg : Config) (left : Leftover) (now : Timeval)
    (fuel : ℕ) (packet : List UInt8) :
    (∀ r, inwardProc cfg left now fuel s packet = some r →
      (Attributed (some (iphSaddr packet 0)) r ↔
        ¬ ShapedUntranslated cfg left now fuel s packet)) ∧
    ∀ r src dst, outwardProc cfg left now fuel s packet = some r →
      Fetches left fuel packet src dst → Attributed (outwardUser cfg s dst) r := by
  have hs := congruent_of_run hfresh hrun
  refine ⟨?_, ?_⟩
  · intro r hr
    unfold inwardProc at hr
    by_cases hlength : packet.length = 0
    · rw [if_pos hlength] at hr
      cases hr
      refine iff_of_true (attributed_of_no_calls rfl) ?_
      rintro ⟨-, src, dst, rule, rules, ⟨hne, -⟩, -⟩
      exact hne hlength
    · rw [if_neg hlength] at hr
      split at hr
      · cases hr
      · rename_i hfetch
        cases hr
        refine iff_of_true (attributed_of_no_calls rfl) ?_
        rintro ⟨-, src, dst, rule, rules, ⟨-, hfetch'⟩, -⟩
        rw [hfetch] at hfetch'
        cases hfetch'
      · rename_i src dst hfetch
        cases hr
        obtain ⟨⟨prv, as, hsrc, hip⟩, -⟩ := fetched_begin hfetch
        rw [← left.iphSaddr_buffer hfetch, ← hip, attributed_inwardRelay hsrc, not_iff_not]
        refine and_congr_right fun _ => ?_
        constructor
        · rintro ⟨rule, rules, h⟩
          exact ⟨src, dst, rule, rules, ⟨hlength, hfetch⟩, h⟩
        · rintro ⟨src', dst', rule, rules, ⟨-, hfetch'⟩, h⟩
          rw [hfetch] at hfetch'
          cases hfetch'
          exact ⟨rule, rules, h⟩
  · intro r src dst hr hfetches
    obtain ⟨hlength, hfetch⟩ := hfetches
    unfold outwardProc at hr
    rw [if_neg hlength, hfetch] at hr
    cases hr
    obtain ⟨-, prv, as, hdst, -⟩ := fetched_begin hfetch
    exact attributed_outwardRelay hs ⟨prv, as, hdst⟩

/-- One rule for every packet of a user: it is shaped. -/
def shapedConfig : Config :=
  { oneUserConfig with
    filters := fun idx =>
      if idx.val = 0 then
        some ⟨"anonymous",
          [⟨⟨0, 0, [], 0, 0, .none⟩, ⟨0, 0, [], 0, 0, .none⟩, ⟨0, 0⟩, 0, ⟨9, 0, 0, 64000⟩, 0⟩], []⟩
      else none }

/-- The only user has a session; nothing is translated yet. -/
def oneCaptiveRelay : Relay where
  controller := Controller.oneCaptive
  prvHash := ∅
  pubHash := ∅
  nextRid := 0
  natDst := NatDst.init
  shapeHash := ∅
  memgmt := memgmtCreate
  queues := fun _ => shapeQueueCreate

/-- Memory that held nothing. -/
def Leftover.zero : Leftover := ⟨fun _ => (⟨0, 0, 0⟩, ⟨0, 0, 0⟩), 0, 0, []⟩

/-- A DNS query of the user, 10.0.0.1, without a checksum of its own. -/
def queryPacket : List UInt8 :=
  [0x45, 0, 0, 28, 0, 1, 0, 0, 64, 17, 0xae, 0xce, 10, 0, 0, 1, 192, 0, 2, 1,
    15, 160, 0, 53, 0, 8, 0, 0]

theorem relay_attributed_iff_query :
    (∀ r, inwardProc oneUserConfig .zero ⟨0, 0⟩ 2 oneCaptiveRelay queryPacket = some r →
      (Attributed (some (iphSaddr queryPacket 0)) r ↔
        ¬ ShapedUntranslated oneUserConfig .zero ⟨0, 0⟩ 2 oneCaptiveRelay queryPacket)) ∧
    ∀ r src dst, outwardProc oneUserConfig .zero ⟨0, 0⟩ 2 oneCaptiveRelay queryPacket = some r →
      Fetches .zero 2 queryPacket src dst →
      Attributed (outwardUser oneUserConfig oneCaptiveRelay dst) r :=
  @relay_attributed_iff oneCaptiveRelay oneCaptiveRelay ⟨rfl, rfl, rfl⟩ .refl oneUserConfig .zero
    ⟨0, 0⟩ 2 queryPacket

/-- Attribution is not always consistent: here the packet of a user is scheduled with no chain. -/
theorem relay_misattributed :
    ¬ ∀ (s₀ s : Relay) (cfg : Config) (left : Leftover) (now : Timeval) (fuel : ℕ)
      (packet : List UInt8), s₀.Fresh → Relation.ReflTransGen RelayStep s₀ s →
      (∀ r, inwardProc cfg left now fuel s packet = some r →
        Attributed (some (iphSaddr packet 0)) r) ∧
      ∀ r src dst, outwardProc cfg left now fuel s packet = some r →
        Fetches left fuel packet src dst → Attributed (outwardUser cfg s dst) r := by
  intro h
  have hcalls : ((inwardProc shapedConfig .zero ⟨0, 0⟩ 2 oneCaptiveRelay queryPacket).map
      fun r => decide (.shape [] ∈ r.calls)) = some true := by decide +kernel
  obtain ⟨r, hr, hmem⟩ := Option.map_eq_some_iff.1 hcalls
  have hall := (h oneCaptiveRelay oneCaptiveRelay shapedConfig .zero ⟨0, 0⟩ 2 queryPacket
    ⟨rfl, rfl, rfl⟩ .refl).1 r hr
  obtain ⟨prv, as, hnull, -⟩ := hall _ (of_decide_eq_true hmem)
  cases hnull

end Sweetspot
