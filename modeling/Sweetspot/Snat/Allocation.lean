import Sweetspot.Snat.Binding
import Sweetspot.Snat.Cursor

/-!
# Source NAT: which public tuple a new flow gets

A private tuple with no relation yet is an address with entries and one protocol above it.  Its
candidates are the public tuples on the way of the address's cursor round its range.

* `Op`, `exec`: source NAT together with the creation and deletion of endpoints; `Reachable` says
  what holds in all reachable states.
* `candidate`, `Available`: the public tuples in the order of the cursor, and whether one may be
  taken, being unused or held by a relation that has been idle for long enough.
* `assignAttempts_first`, `assignAttempts_none`: the retry loop stops at the first available one.
* `natSrcDo_allocates`: what `natSrcDo` does with it, and that with a small range it gives up only
  when all of it is in use.
-/

namespace Sweetspot

namespace TupleNode

/-- The protocol of a node, as far as its handler keeps a cursor. -/
def natProto : TupleNode → Option NatProto
  | ip _ => none
  | tcp _ => some .tcp
  | udp _ => some .udp
  | icmp _ => some .icmp

/-- The node with the value of a cursor written into it. -/
def withValue (v : UInt16) : TupleNode → TupleNode
  | ip a => ip a
  | tcp a => tcp { a with port := v }
  | udp a => udp { a with port := v }
  | icmp a => icmp { a with seq := v }

end TupleNode

namespace NatSrc

/-! ## Runs with endpoints that come and go -/

/-- A call on source NAT, or on the endpoints below it. -/
inductive Op
  | call (c : Call)
  | new (prvIp : UInt32)
  | del (prvIp : UInt32)

inductive OpStep (cfg : EndpointConfig) : NatSrc → Op → NatSrc → Prop
  | call {s s' : NatSrc} {c : Call} (h : Step s c s') : OpStep cfg s (.call c) s'
  | new (s : NatSrc) (prvIp : UInt32) :
      OpStep cfg s (.new prvIp) { s with endpoints := (s.endpoints.endpointNew cfg prvIp).1 }
  | del (s : NatSrc) (prvIp : UInt32) :
      OpStep cfg s (.del prvIp) { s with endpoints := s.endpoints.endpointDel prvIp }

/-- What holds in every reachable state: the tables agree, and the cursors are in their ranges. -/
def Sound (s : NatSrc) : Prop := s.prvHash.Agree s.pubHash ∧ s.endpoints.Within

theorem assignAttempts_within (attempts : ℕ) (s : NatSrc) (now : ℤ) (prv : Chain)
    (h : s.endpoints.Within) : (assignAttempts attempts s now prv).1.endpoints.Within := by
  induction attempts generalizing s with
  | zero => exact h
  | succ attempts ih =>
    have hwithin : (s.assign prv).1.endpoints.Within := Endpoints.within_assign prv prv 0 h
    rcases hassign : s.assign prv with ⟨s₁, _ | pub⟩
    · rw [assignAttempts_succ_of_none hassign]
      rwa [hassign] at hwithin
    · rw [assignAttempts_succ hassign]
      rw [hassign] at hwithin
      split
      · exact hwithin
      · split
        · exact ih s₁ hwithin
        · exact hwithin

theorem natSrcDo_within (s : NatSrc) (now : ℤ) (prv : Chain) (h : s.endpoints.Within) :
    (s.natSrcDo now prv).1.endpoints.Within := by
  cases hheld : s.prvHash.retrieve prv with
  | some r =>
    simp only [natSrcDo, prvLookup, hheld]
    exact h
  | none =>
    have hattempts := assignAttempts_within ASSIGN_RETRY_MAX s now prv h
    rw [natSrcDo_of_new hheld]
    generalize assignAttempts ASSIGN_RETRY_MAX s now prv = res at hattempts ⊢
    obtain ⟨s', _ | ⟨pub, reused⟩⟩ := res
    · exact hattempts
    · exact hattempts

theorem natSrcRelExpire_endpoints (s : NatSrc) (now : ℤ) (order : List Relation) :
    (s.natSrcRelExpire now order).endpoints = s.endpoints := by
  induction order generalizing s with
  | nil => rfl
  | cons ri order ih =>
    refine (ih _).trans ?_
    dsimp only [expireCurrentSeq]
    split <;> rfl

theorem sound_of_step {cfg : EndpointConfig} {k : ℕ} (hcfg : Divided cfg k) {s s' : NatSrc}
    {op : Op} (h : OpStep cfg s op s') (hs : s.Sound) : s'.Sound := by
  obtain ⟨hagree, hwithin⟩ := hs
  cases h with
  | call h =>
    refine ⟨agree_of_step h hagree, ?_⟩
    cases h with
    | @natDo _ now prv _ h =>
      have := natSrcDo_within s now prv hwithin
      rwa [h] at this
    | undo => exact hwithin
    | expire _ h =>
      rw [← h, natSrcRelExpire_endpoints]
      exact hwithin
  | new prvIp => exact ⟨hagree, Endpoints.within_exec hcfg (.new prvIp) hwithin⟩
  | del prvIp => exact ⟨hagree, Endpoints.within_exec hcfg (.del prvIp) hwithin⟩

theorem sound_of_run {cfg : EndpointConfig} {k : ℕ} (hcfg : Divided cfg k) {ops : List Op}
    {s : NatSrc} (hrun : Run (OpStep cfg) (init .empty) ops s) : s.Sound := by
  refine hrun.invariant (P := Sound) (fun _ _ _ => sound_of_step hcfg) ?_
  exact ⟨KeyedTable.agree_empty, Endpoints.within_empty⟩

/-! ## Candidates -/

/-- The public tuple with a value of the range in it. -/
def publicTuple (ep : EndpointIp) (ip : TupleIp) (n : TupleNode) (v : UInt16) : Chain :=
  [.ip { ip with ip := ep.pubIp }, n.withValue v]

/-- The `i`-th public tuple on the way of the cursor, from where it stands. -/
def candidate (ep : EndpointIp) (ip : TupleIp) (n : TupleNode) (r : CursorRange) (i : ℕ) : Chain :=
  publicTuple ep ip n (r.advance i).cursor

/-- The public tuple is unused, or its holder has not been refreshed for
`ACTIVE_REL_PROTECT_SEC` seconds. -/
def Available (s : NatSrc) (now : ℤ) (pub : Chain) : Prop :=
  ∀ r, s.pubHash.retrieve pub = some r → ACTIVE_REL_PROTECT_SEC ≤ now - r.lastDlTime

/-- The address has an entry and a range for the protocol above it. -/
structure Served (e : Endpoints) (ip : TupleIp) (n : TupleNode) (ep : EndpointIp)
    (r : CursorRange) : Prop where
  entry : e.ip.retrieve ip.ip = some ep
  range : ∃ proto, n.natProto = some proto ∧ (e.entries ip.ip).range proto = some r

/-- **One assignment** yields the tuple at the cursor and moves that on. -/
theorem Served.assign {e : Endpoints} {ip : TupleIp} {n : TupleNode} {ep : EndpointIp}
    {r : CursorRange} (h : Served e ip n ep r) :
    ∃ e', endpointAssign [.ip ip, n] [.ip ip, n] 0 e = (e', some (candidate ep ip n r 0)) ∧
      Served e' ip n ep r.next := by
  obtain ⟨hentry, proto, hproto, hrange⟩ := h
  cases n with
  | ip a => cases hproto
  | tcp a =>
    obtain rfl := Option.some.inj hproto
    obtain ⟨x, hx, rfl⟩ := Option.map_eq_some_iff.1 hrange
    have hx : e.tcp.retrieve ip.ip = some x := hx
    refine ⟨{ e with tcp := e.tcp.insert (x.assigned a.port) }, ?_, hentry, .tcp, rfl, ?_⟩
    · simp only [endpointAssign, hentry, hx, Option.map_some]
      rfl
    · rw [Endpoints.range_insert_tcp hx, if_pos ⟨rfl, rfl⟩]
  | udp a =>
    obtain rfl := Option.some.inj hproto
    obtain ⟨x, hx, rfl⟩ := Option.map_eq_some_iff.1 hrange
    have hx : e.udp.retrieve ip.ip = some x := hx
    refine ⟨{ e with udp := e.udp.insert x.assigned }, ?_, hentry, .udp, rfl, ?_⟩
    · simp only [endpointAssign, hentry, hx, Option.map_some]
      rfl
    · rw [Endpoints.range_insert_udp hx, if_pos ⟨rfl, rfl⟩]
  | icmp a =>
    obtain rfl := Option.some.inj hproto
    obtain ⟨x, hx, rfl⟩ := Option.map_eq_some_iff.1 hrange
    have hx : e.icmp.retrieve ip.ip = some x := hx
    refine ⟨{ e with icmp := e.icmp.insert x.assigned }, ?_, hentry, .icmp, rfl, ?_⟩
    · simp only [endpointAssign, hentry, hx, Option.map_some]
      rfl
    · rw [Endpoints.range_insert_icmp hx, if_pos ⟨rfl, rfl⟩]

/-! ## The retry loop -/

section Loop

variable {s : NatSrc} {now : ℤ} {ip : TupleIp} {n : TupleNode} {ep : EndpointIp} {r : CursorRange}

theorem not_available_iff {pub : Chain} : ¬ s.Available now pub ↔
    ∃ x, s.pubHash.retrieve pub = some x ∧ now - x.lastDlTime < ACTIVE_REL_PROTECT_SEC := by
  simp [Available]

/-- One round tries the tuple at the cursor. -/
theorem Served.round (h : Served s.endpoints ip n ep r) (attempts : ℕ) (now : ℤ) :
    ∃ e₁, Served e₁ ip n ep r.next ∧ assignAttempts (attempts + 1) s now [.ip ip, n] =
      match s.pubHash.retrieve (candidate ep ip n r 0) with
      | none => ({ s with endpoints := e₁ }, some (candidate ep ip n r 0, none))
      | some x =>
        if now - x.lastDlTime < ACTIVE_REL_PROTECT_SEC then
          assignAttempts attempts { s with endpoints := e₁ } now [.ip ip, n]
        else
          ({ s with
              endpoints := e₁
              prvHash := s.prvHash.delete x.prv
              pubHash := s.pubHash.delete x.pub },
            some (candidate ep ip n r 0, some x.rid)) := by
  obtain ⟨e₁, hassign, hserved⟩ := h.assign
  exact ⟨e₁, hserved, assignAttempts_succ (by rw [NatSrc.assign, hassign]) attempts now⟩

/-- **The loop stops at the first available candidate**, if it gets there, and drops the holder. -/
theorem assignAttempts_first (h : Served s.endpoints ip n ep r) {i attempts : ℕ}
    (hi : i < attempts) (hfirst : ∀ j < i, ¬ s.Available now (candidate ep ip n r j))
    (havail : s.Available now (candidate ep ip n r i)) :
    ∃ e', assignAttempts attempts s now [.ip ip, n] =
      match s.pubHash.retrieve (candidate ep ip n r i) with
      | none => ({ s with endpoints := e' }, some (candidate ep ip n r i, none))
      | some x =>
        ({ s with
            endpoints := e'
            prvHash := s.prvHash.delete x.prv
            pubHash := s.pubHash.delete x.pub },
          some (candidate ep ip n r i, some x.rid)) := by
  induction i generalizing s r attempts with
  | zero =>
    obtain ⟨attempts, rfl⟩ := Nat.exists_eq_add_one_of_ne_zero (Nat.ne_zero_of_lt hi)
    obtain ⟨e₁, -, hround⟩ := h.round attempts now
    refine ⟨e₁, hround.trans ?_⟩
    cases hheld : s.pubHash.retrieve (candidate ep ip n r 0) with
    | none => rfl
    | some x => exact if_neg (Int.not_lt.2 (havail x hheld))
  | succ i ih =>
    -- the first candidate is held by an active relation, and the cursor moves past it
    obtain ⟨attempts, rfl⟩ := Nat.exists_eq_add_one_of_ne_zero (Nat.ne_zero_of_lt hi)
    obtain ⟨e₁, hserved, hround⟩ := h.round attempts now
    obtain ⟨x, hheld, hage⟩ := not_available_iff.1 (hfirst 0 (Nat.succ_pos i))
    obtain ⟨e', he'⟩ := @ih { s with endpoints := e₁ } r.next hserved attempts (by omega)
      (fun j hj => hfirst (j + 1) (by omega)) havail
    refine ⟨e', hround.trans ?_⟩
    rw [hheld]
    exact (if_pos hage).trans he'

/-- **If no candidate is available, the tables stay as they are.** -/
theorem assignAttempts_none (h : Served s.endpoints ip n ep r) {attempts : ℕ}
    (hnone : ∀ i < attempts, ¬ s.Available now (candidate ep ip n r i)) :
    ∃ e', assignAttempts attempts s now [.ip ip, n] = ({ s with endpoints := e' }, none) := by
  induction attempts generalizing s r with
  | zero => exact ⟨s.endpoints, rfl⟩
  | succ attempts ih =>
    obtain ⟨e₁, hserved, hround⟩ := h.round attempts now
    obtain ⟨x, hheld, hage⟩ := not_available_iff.1 (hnone 0 (Nat.succ_pos attempts))
    obtain ⟨e', he'⟩ := @ih { s with endpoints := e₁ } r.next hserved
      fun i hi => hnone (i + 1) (by omega)
    refine ⟨e', hround.trans ?_⟩
    rw [hheld]
    exact (if_pos hage).trans he'

end Loop

/-! ## The allocation -/

/-- The relation `x` has been stored, whoever held its public tuple is gone, and the others are as
they were. -/
structure Replaced (s s' : NatSrc) (x : Relation) : Prop where
  prv : ∀ y, y ∈ s'.prvHash ↔ y = x ∨ y ∈ s.prvHash ∧ natTupleCmp y.pub x.pub ≠ 0
  pub : ∀ y, y ∈ s'.pubHash ↔ y = x ∨ y ∈ s.pubHash ∧ natTupleCmp y.pub x.pub ≠ 0

theorem replaced_of_free {s s' : NatSrc} {x : Relation} (hagree : s.prvHash.Agree s.pubHash)
    (hnew : s.prvHash.retrieve x.prv = none) (hfree : s.pubHash.retrieve x.pub = none)
    (hprv : s'.prvHash = s.prvHash.insert x) (hpub : s'.pubHash = s.pubHash.insert x) :
    Replaced s s' x where
  prv y := by
    rw [hprv, KeyedTable.mem_insert_of_free hnew]
    refine or_congr_right (and_iff_left_of_imp fun hy => ?_).symm
    exact KeyedTable.retrieve_eq_none_iff.1 hfree y ((hagree y).1 hy)
  pub y := by
    rw [hpub]
    exact KeyedTable.mem_insert

theorem replaced_of_held {s s' : NatSrc} {x old : Relation} (hagree : s.prvHash.Agree s.pubHash)
    (hnew : s.prvHash.retrieve x.prv = none) (hheld : s.pubHash.retrieve x.pub = some old)
    (hprv : s'.prvHash = (s.prvHash.delete old.prv).insert x)
    (hpub : s'.pubHash = (s.pubHash.delete old.pub).insert x) : Replaced s s' x := by
  have hold := KeyedTable.mem_of_retrieve hheld
  -- among what is stored, the old holder is the one with an equal public tuple
  have hne : ∀ y ∈ s.pubHash, y ≠ old ↔ natTupleCmp y.pub x.pub ≠ 0 := by
    intro y hy
    refine not_congr ⟨?_, fun h => ?_⟩
    · rintro rfl
      exact KeyedTable.comp_of_retrieve hheld
    · exact KeyedTable.eq_of_comp_eq_zero hy hold
        (natTupleCmp_trans h (natTupleCmp_symm (KeyedTable.comp_of_retrieve hheld)))
  constructor
  · intro y
    rw [hprv, KeyedTable.mem_insert_of_free (KeyedTable.retrieve_delete_of_free hnew),
      KeyedTable.mem_delete_of_mem ((hagree old).2 hold)]
    exact or_congr_right (and_congr_right fun hy => hne y ((hagree y).1 hy))
  · intro y
    rw [hpub, KeyedTable.mem_insert_of_free (KeyedTable.retrieve_delete_of_held hheld),
      KeyedTable.mem_delete_of_mem hold]
    exact or_congr_right (and_congr_right (hne y))

/-- **New-flow endpoint allocation.**  In every reachable state, for a private tuple that has no
relation but whose address has entries: the call binds it to the first available candidate, if one
of the first `ASSIGN_RETRY_MAX` is available, in place of its holder, and changes no other
relation; otherwise it fails and changes none.  If the range is no larger than that, it fails only
if every public tuple of the range is held by an active relation. -/
theorem natSrcDo_allocates (pubNs prvNs : Netset) (cfg : EndpointConfig)
    (hcreate : endpointCreate pubNs prvNs = some cfg) (ops : List Op) (s : NatSrc)
    (hrun : Run (OpStep cfg) (init .empty) ops s) (now : ℤ) (ip : TupleIp) (n : TupleNode)
    (ep : EndpointIp) (r : CursorRange) (hserved : Served s.endpoints ip n ep r)
    (hnew : s.prvHash.retrieve [.ip ip, n] = none) :
    (∀ i < ASSIGN_RETRY_MAX, s.Available now (candidate ep ip n r i) →
      (∀ j < i, ¬ s.Available now (candidate ep ip n r j)) →
      ∃ x : Relation, x.prv = [.ip ip, n] ∧ x.pub = candidate ep ip n r i ∧ x.lastDlTime = now ∧
        (s.natSrcDo now [.ip ip, n]).2 = some x.pub ∧
        Replaced s (s.natSrcDo now [.ip ip, n]).1 x) ∧
    ((∀ i < ASSIGN_RETRY_MAX, ¬ s.Available now (candidate ep ip n r i)) →
      (s.natSrcDo now [.ip ip, n]).2 = none ∧
        (s.natSrcDo now [.ip ip, n]).1.prvHash = s.prvHash ∧
        (s.natSrcDo now [.ip ip, n]).1.pubHash = s.pubHash) ∧
    (r.size ≤ ASSIGN_RETRY_MAX → (s.natSrcDo now [.ip ip, n]).2 = none →
      ∀ v ∈ r.values, ¬ s.Available now (publicTuple ep ip n v)) := by
  obtain ⟨k, hcfg⟩ := divided_of_endpointCreate hcreate
  obtain ⟨hagree, hwithin⟩ := sound_of_run hcfg hrun
  have hcall := natSrcDo_of_new hnew now
  have hbinds : ∀ i < ASSIGN_RETRY_MAX, s.Available now (candidate ep ip n r i) →
      (∀ j < i, ¬ s.Available now (candidate ep ip n r j)) →
      ∃ x : Relation, x.prv = [.ip ip, n] ∧ x.pub = candidate ep ip n r i ∧ x.lastDlTime = now ∧
        (s.natSrcDo now [.ip ip, n]).2 = some x.pub ∧
        Replaced s (s.natSrcDo now [.ip ip, n]).1 x := by
    intro i hi havail hfirst
    obtain ⟨e', he'⟩ := assignAttempts_first hserved hi hfirst havail
    rw [hcall, he']
    cases hheld : s.pubHash.retrieve (candidate ep ip n r i) with
    | none =>
      exact ⟨⟨s.nextRid, [.ip ip, n], candidate ep ip n r i, now⟩, rfl, rfl, rfl, rfl,
        replaced_of_free hagree hnew hheld rfl rfl⟩
    | some old =>
      exact ⟨⟨old.rid, [.ip ip, n], candidate ep ip n r i, now⟩, rfl, rfl, rfl, rfl,
        replaced_of_held hagree hnew hheld rfl rfl⟩
  refine ⟨hbinds, ?_, ?_⟩
  · intro hnone
    obtain ⟨e', he'⟩ := assignAttempts_none hserved hnone
    rw [hcall, he']
    exact ⟨rfl, rfl, rfl⟩
  · intro hsize hfail v hv havail
    obtain ⟨proto, hproto, hrange⟩ := hserved.range
    have hin : r.cursor ∈ r.values := hwithin _ proto r hrange
    obtain ⟨i, hi, hvi⟩ := (CursorRange.cyclic r.low r.high).exists_iterate hin hv
    have hcand : candidate ep ip n r i = publicTuple ep ip n v := by
      rw [candidate, ← hvi]
      rfl
    -- the first available candidate is not behind this one
    classical
    have hex : ∃ i, s.Available now (candidate ep ip n r i) := ⟨i, hcand.symm ▸ havail⟩
    have hle : Nat.find hex ≤ i := Nat.find_le (hcand.symm ▸ havail)
    obtain ⟨x, -, -, -, hsome, -⟩ := hbinds (Nat.find hex)
      (lt_of_le_of_lt hle (lt_of_lt_of_le hi hsize)) (Nat.find_spec hex)
      fun j hj => Nat.find_min hex hj
    rw [hsome] at hfail
    cases hfail

/-! ### The first flow of the first of four hosts -/

theorem natSrcDo_allocates_firstFlow :
    ∃ cfg ep r s, endpointCreate twoPublic fourHosts = some cfg ∧
      Run (OpStep cfg) (init .empty) [.new 0x0a000001] s ∧
      ∃ x : Relation, x.prv = [.ip ⟨0x0a000001, 7, 0⟩, .tcp ⟨40000, 2⟩] ∧
        x.pub = candidate ep ⟨0x0a000001, 7, 0⟩ (.tcp ⟨40000, 2⟩) r 0 ∧ x.lastDlTime = 100 ∧
        (s.natSrcDo 100 [.ip ⟨0x0a000001, 7, 0⟩, .tcp ⟨40000, 2⟩]).2 = some x.pub ∧
        Replaced s (s.natSrcDo 100 [.ip ⟨0x0a000001, 7, 0⟩, .tcp ⟨40000, 2⟩]).1 x := by
  obtain ⟨cfg, hcreate⟩ := Option.isSome_iff_exists.1
    (show (endpointCreate twoPublic fourHosts).isSome by decide +kernel)
  have hsome : ((endpointCreate twoPublic fourHosts).bind (ipNew · 0x0a000001)).isSome := by
    decide +kernel
  rw [hcreate, Option.bind_some] at hsome
  obtain ⟨ep, hep⟩ := Option.isSome_iff_exists.1 hsome
  have hentries : ((Endpoints.empty.endpointNew cfg 0x0a000001).1).entries 0x0a000001 =
      .new cfg 0x0a000001 := by
    rw [Endpoints.entries_endpointNew hsome, if_pos rfl]
  have hserved : Served (Endpoints.empty.endpointNew cfg 0x0a000001).1 ⟨0x0a000001, 7, 0⟩
      (.tcp ⟨40000, 2⟩) ep (tcpNew cfg 0x0a000001 ep.pubIp).range := by
    refine ⟨(congrArg Entries.ip hentries).trans ?_, .tcp, rfl, ?_⟩
    · simp [Entries.new, hep]
    · rw [hentries]
      simp [Entries.new, hep, Entries.range]
  have hrun : Run (OpStep cfg) (init .empty) [.new 0x0a000001]
      { init .empty with endpoints := (Endpoints.empty.endpointNew cfg 0x0a000001).1 } :=
    Run.single (.new (init .empty) 0x0a000001)
  exact ⟨cfg, ep, _, _, hcreate, hrun,
    (natSrcDo_allocates twoPublic fourHosts cfg hcreate _ _ hrun 100 _ _ ep _ hserved rfl).1 0
      (by decide) (by rintro r ⟨⟩) (by omega)⟩

end NatSrc

end Sweetspot
