import Sweetspot.Filter.Conditions
import Sweetspot.Filter.Numbers
import Sweetspot.Filter.Soundness
import Sweetspot.Filter.Load

/-!
# From the text of a filter to its decisions

A filter is a file of rules.  It is scanned, parsed and stored, and packets are matched against what
was stored.  Here the whole way is followed: what a rule says of a packet is read off the words it
is written in, and the first rule that says so is the one that the matcher stops at.

* `FlagsText.Means`, `ObjectText.Means`, `RuleText.Means`: what is said of a packet.
* `RuleText.Plain`: the rules that are matched as they are written.
* `RuleText.accepts_store_iff`: they are.
* `FirstMeant`: first match over the rules of a text.
* `filterMatch_firstMeant`: from the octets of a file to the verdict on a packet.
-/

namespace Sweetspot

open FilterParser

/-! ## Flags -/

/-- The letters of the TCP flags, each with the place of its bit. -/
def flagTable : List (Char × ℕ) := [('F', 0), ('S', 1), ('R', 2), ('P', 3), ('A', 4), ('U', 5)]

/-- What the flags of a rule say of those of a packet: of the flags of the mask exactly those are
set that are named first. -/
def FlagsText.Means (flags : UInt8) (f : FlagsText) : Prop :=
  ∀ entry ∈ flagTable, entry.1 ∈ f.set.word ↔
    (∃ m ∈ f.mask, entry.1 ∈ m.word) ∧ flags.toBitVec.getLsbD entry.2 = true

/-- The bits of a word are those of its letters. -/
theorem tcpFlags_getLsbD {acc bits : Int8} {w : List Char} (h : tcpFlags acc w = some bits)
    (i : ℕ) : bits.toBitVec.getLsbD i = (acc.toBitVec.getLsbD i ||
      w.any fun c => (tcpFlag c).any fun bit => bit.toBitVec.getLsbD i) := by
  induction w generalizing acc with
  | nil =>
    rw [tcpFlags] at h
    rw [Option.some.inj h]
    simp
  | cons c w ih =>
    obtain ⟨bit, hbit, hrest⟩ := Option.bind_eq_some_iff.1 h
    rw [ih hrest, List.any_cons, hbit, Option.any_some, Int8.toBitVec_or, BitVec.getLsbD_or,
      Bool.or_assoc]

theorem tcpFlag_any (c : Char) {l : Char} {i : ℕ} (h : (l, i) ∈ flagTable) :
    ((tcpFlag c).any fun bit => bit.toBitVec.getLsbD i) = true ↔ c = l := by
  simp only [flagTable, List.mem_cons, Prod.mk.injEq, List.not_mem_nil, or_false] at h
  rcases h with ⟨rfl, rfl⟩ | ⟨rfl, rfl⟩ | ⟨rfl, rfl⟩ | ⟨rfl, rfl⟩ | ⟨rfl, rfl⟩ | ⟨rfl, rfl⟩ <;>
    unfold tcpFlag <;> split <;> simp_all

theorem tcpFlag_any_high (c : Char) {i : ℕ} (h : 6 ≤ i) :
    ((tcpFlag c).any fun bit => bit.toBitVec.getLsbD i) = false := by
  have hbit : ∀ bit : Int8, tcpFlag c = some bit → bit.toBitVec.getLsbD i = false := by
    intro bit hbit
    rcases Nat.lt_or_ge i 8 with hlt | hge
    · obtain rfl | rfl : i = 6 ∨ i = 7 := by omega
      all_goals
        unfold tcpFlag at hbit
        split at hbit <;> cases hbit <;> rfl
    · exact BitVec.getLsbD_of_ge _ _ hge
  cases hflag : tcpFlag c with
  | none => rfl
  | some bit => exact hbit bit hflag

namespace Name

variable {s : Name} (hs : s.IsFlags)
include hs

theorem bits_getLsbD (i : ℕ) : s.bits.toBitVec.getLsbD i =
    s.word.any fun c => (tcpFlag c).any fun bit => bit.toBitVec.getLsbD i := by
  obtain ⟨bits, hbits⟩ := Option.isSome_iff_exists.1 hs
  rw [Name.bits, hbits, Option.getD_some, tcpFlags_getLsbD hbits]
  simp

/-- The bit of a letter is that of the word just if the letter is in it. -/
theorem bits_getLsbD_iff {l : Char} {i : ℕ} (h : (l, i) ∈ flagTable) :
    s.bits.toBitVec.getLsbD i = true ↔ l ∈ s.word := by
  simp only [bits_getLsbD hs, List.any_eq_true, tcpFlag_any _ h, exists_eq_right]

theorem bits_getLsbD_high {i : ℕ} (h : 6 ≤ i) : s.bits.toBitVec.getLsbD i = false := by
  rw [bits_getLsbD hs, List.any_eq_false]
  intro c _
  simp [tcpFlag_any_high c h]

/-- A word of flags has a bit. -/
theorem bits_ne_zero : s.bits ≠ 0 := by
  intro hzero
  obtain ⟨bits, hbits⟩ := Option.isSome_iff_exists.1 hs
  cases hword : s.word with
  | nil =>
    have hplain := s.plain
    rw [hword] at hplain
    exact absurd hplain (by decide)
  | cons c w =>
    rw [hword] at hbits
    obtain ⟨bit, hbit, -⟩ := Option.bind_eq_some_iff.1 hbits
    obtain ⟨i, hi⟩ : ∃ i, (c, i) ∈ flagTable := by
      unfold tcpFlag at hbit
      split at hbit <;> cases hbit <;> simp [flagTable]
    have hset := (bits_getLsbD_iff hs hi).2 (hword ▸ List.mem_cons_self)
    rw [hzero] at hset
    simp at hset

end Name

/-- Signed characters without their high bits, compared as integers. -/
theorem eq_signExtend_and_iff {set mask : Int8} {flags : UInt8}
    (hset : ∀ i, 6 ≤ i → set.toBitVec.getLsbD i = false)
    (hmask : ∀ i, 6 ≤ i → mask.toBitVec.getLsbD i = false) :
    set.toBitVec.signExtend 32 = mask.toBitVec.signExtend 32 &&& flags.toBitVec.setWidth 32 ↔
      ∀ i < 6, set.toBitVec.getLsbD i =
        (mask.toBitVec.getLsbD i && flags.toBitVec.getLsbD i) := by
  have hextend : ∀ (x : Int8), (∀ i, 6 ≤ i → x.toBitVec.getLsbD i = false) → ∀ i < 32,
      (x.toBitVec.signExtend 32).getLsbD i = x.toBitVec.getLsbD i := by
    intro x hx i hi
    have hmsb : x.toBitVec.msb = false := hx 7 (by omega)
    rw [BitVec.getLsbD_signExtend, hmsb, decide_eq_true hi, Bool.true_and]
    split_ifs with hlt
    · rfl
    · exact (hx i (by omega)).symm
  constructor
  · intro h i hi
    have hbit := congrArg (fun v : BitVec 32 => v.getLsbD i) h
    simp only [BitVec.getLsbD_and, BitVec.getLsbD_setWidth] at hbit
    rw [hextend set hset i (by omega), hextend mask hmask i (by omega)] at hbit
    simpa [show i < 32 by omega] using hbit
  · intro h
    refine BitVec.eq_of_getLsbD_eq fun i hi => ?_
    rw [hextend set hset i hi, BitVec.getLsbD_and, hextend mask hmask i hi,
      BitVec.getLsbD_setWidth]
    rcases Nat.lt_or_ge i 6 with hlt | hge
    · simp [h i hlt, hi]
    · simp [hset i hge, hmask i hge]

/-- **Flags with a mask are matched as they are written.** -/
theorem FlagsText.matchFlags_iff {f : FlagsText} (hacc : f.Accepted) {m : Name}
    (hm : f.mask = some m) (flags : UInt8) :
    matchFlags ⟨f.set.bits, m.bits⟩ flags ↔ f.Means flags := by
  have hmask : m.IsFlags := hacc.mask m hm
  rw [matchFlags, decide_eq_true_eq, or_iff_right (m.bits_ne_zero hmask),
    eq_signExtend_and_iff (fun i => Name.bits_getLsbD_high hacc.set)
      fun i => Name.bits_getLsbD_high hmask]
  have hletter : ∀ l i, (l, i) ∈ flagTable →
      ((f.set.bits.toBitVec.getLsbD i = (m.bits.toBitVec.getLsbD i && flags.toBitVec.getLsbD i)) ↔
        (l ∈ f.set.word ↔ (∃ m ∈ f.mask, l ∈ m.word) ∧ flags.toBitVec.getLsbD i = true)) := by
    intro l i hmem
    have hm' : (∃ m ∈ f.mask, l ∈ m.word) ↔ l ∈ m.word := by simp [hm]
    rw [hm', Bool.eq_iff_iff, Bool.and_eq_true, Name.bits_getLsbD_iff hacc.set hmem,
      Name.bits_getLsbD_iff hmask hmem]
  constructor
  · rintro h ⟨l, i⟩ hmem
    have hplace : ∀ entry ∈ flagTable, entry.2 < 6 := by decide
    exact (hletter l i hmem).1 (h i (hplace (l, i) hmem))
  · intro h i hi
    have hplaces : ∀ i < 6, i ∈ flagTable.map Prod.snd := by decide
    obtain ⟨⟨l, i⟩, hmem, rfl⟩ := List.mem_map.1 (hplaces i hi)
    exact (hletter l i hmem).2 (h (l, i) hmem)

/-! ## The sides -/

/-- The port of a header, if it has ports. -/
def TupleNode.port? : TupleNode → Option UInt16
  | .tcp prv => some prv.port
  | .udp prv => some prv.port
  | _ => none

/-- What an object says of a side of a packet. -/
def ObjectText.Means (net : NetDb) (ip : UInt32) (port : Option UInt16) (o : ObjectText) : Prop :=
  (∀ n ∈ o.network?, n.Contains net ip) ∧ ∀ t ∈ o.port?, ∃ p ∈ port, t.Means p

/-- The objects of which the numbers fit, and that are matched as they are written. -/
structure ObjectText.Plain (net : NetDb) (o : ObjectText) : Prop where
  network : ∀ n ∈ o.network?, n.Matchable net
  slash : ∀ n ∈ o.network?, ∀ k, n.mask = some (.slash k) → k.decimal ≤ 32
  port : ∀ t ∈ o.port?, t.Matchable
  portnum : ∀ t ∈ o.port?, ∀ p ∈ t.numerals, p.decimal ≤ 65535

theorem NetworkText.matchAddress_iff {net : NetDb} {n : NetworkText} (hn : n.Matchable net)
    (hslash : ∀ k, n.mask = some (.slash k) → k.decimal ≤ 32) {tg : FilterTarget}
    (hip : tg.ip = n.address net) (hmask : tg.mask = storedMask net n.mask) (ip : UInt32) :
    matchAddress tg ip ↔ n.Contains net ip := by
  rw [Sweetspot.matchAddress_iff, hip, hmask]
  rcases n with ⟨host, _ | m | k⟩
  · have hones : ∀ a : UInt32, 0xffffffff &&& a = a := fun a => UInt32.neg_one_and
    have hall := (matchAddress_mask_iff (NetworkText.address net ⟨host, none⟩) 0xffffffff).2
      ⟨hones _, fun hzero => absurd hzero hn⟩ ip
    rw [hones, hones] at hall
    rw [storedMask, hones]
    exact hall
  · have hmasked := (matchAddress_mask_iff (NetworkText.address net ⟨host, some (.mask m)⟩)
      (net.inetAddr m.word)).2 ⟨by rw [UInt32.and_comm]; exact hn.1, hn.2⟩ ip
    rw [UInt32.and_comm _ ip, UInt32.and_comm _ (NetworkText.address net _)] at hmasked
    rw [storedMask, UInt32.and_comm]
    exact hmasked
  · have hk : k.decimal ≤ 32 := hslash k rfl
    rw [storedMask_slash net hk]
    by_cases hzero : k.decimal = 0
    · exact (matchAddress_all_iff _ _ hzero).2 hn ip
    · exact (matchAddress_prefix_iff _ (by omega)).2 ⟨hn.1, fun ha => hzero (hn.2 ha)⟩ ip

/-- The target of a side that is not written accepts every port and address. -/
theorem matchAddress_emptyTarget (ip : UInt32) : matchAddress emptyTarget ip := by
  rw [matchAddress_iff]
  exact Or.inl rfl

theorem matchPort_emptyTarget (port : UInt16) : matchPort emptyTarget port := rfl

/-- A port condition alone leaves the address of a target as it was. -/
theorem PortText.store_ip (tg : FilterTarget) (t : PortText) : (t.store tg).ip = tg.ip := by
  cases t <;> rfl

namespace ObjectText

variable {net : NetDb} {o : ObjectText} (h : o.Plain net)
include h

theorem matchAddress_store_iff (ip : UInt32) :
    matchAddress (o.store net emptyTarget) ip ↔ ∀ n ∈ o.network?, n.Contains net ip := by
  cases hn : o.network? with
  | none =>
    rw [Sweetspot.matchAddress_iff, store, storeNetwork, hn]
    refine iff_of_true (Or.inl ?_) (by simp)
    cases o.port? with
    | none => rfl
    | some t => exact t.store_ip _
  | some n =>
    obtain ⟨hip, hmask⟩ := store_of_network hn emptyTarget
    rw [forall_mem_some]
    exact NetworkText.matchAddress_iff (h.network n hn) (h.slash n hn) hip hmask ip

theorem matchPort_store_iff (port : UInt16) :
    matchPort (o.store net emptyTarget) port ↔ ∀ t ∈ o.port?, t.Means port := by
  rw [store]
  cases ht : o.port? with
  | none =>
    refine iff_of_true ?_ (by simp)
    rw [Option.elim_none, storeNetwork]
    cases o.network? <;> rfl
  | some t =>
    rw [forall_mem_some, Option.elim_some]
    exact (Sweetspot.matchPort_store_iff (h.portnum t ht) _).2 (h.port t ht) port

end ObjectText

/-! ## Rules -/

namespace RuleText

/-- The number of the protocol that is written; 0 without one. -/
def number (net : NetDb) (r : RuleText) : ℤ := (r.proto.bind (ProtoText.number? net)).getD 0

/-- **What a rule says of a packet**: every part that is written does. -/
structure Means (net : NetDb) (a b : TupleIp) (x y : TupleNode) (r : RuleText) : Prop where
  proto : r.number net = 0 ∨ r.number net = x.protocol
  src : ∀ o ∈ r.src, o.Means net a.ip x.port?
  dst : ∀ o ∈ r.dst, o.Means net b.ip y.port?
  flags : ∀ f ∈ r.flags, ∃ prv, x = .tcp prv ∧ f.Means prv.flags

/-- The rules that are matched as they are written: the number of a protocol fits, ports and flags
are asked of a protocol that has them, and of flags it is said which. -/
structure Plain (net : NetDb) (r : RuleText) : Prop where
  number : 0 ≤ r.number net ∧ r.number net ≤ 255
  object : ∀ side, ∀ o ∈ r.object side, o.Plain net
  ports : ∀ side, ∀ o ∈ r.object side, o.port?.isSome →
    r.flags.isSome ∨ r.number net = IPPROTO_TCP ∨ r.number net = IPPROTO_UDP
  flags : ∀ f ∈ r.flags, f.mask.isSome ∧ (r.number net = 0 ∨ r.number net = IPPROTO_TCP)

/-! ## What is stored of a rule -/

variable {net : NetDb} {r : RuleText}

theorem flags_store (net : NetDb) (r : RuleText) : (r.store net).flags =
    r.flags.elim ⟨0, 0⟩ fun f => ⟨f.set.bits, f.mask.elim 0 Name.bits⟩ := by
  rcases r with ⟨action, dir, proto, src, dst, flags, redir, rate, -, -⟩
  cases flags <;> rfl

/-- A number that fits is stored as it is written. -/
theorem toNat_storedProto (h : 0 ≤ r.number net ∧ r.number net ≤ 255) :
    ((storedProto net r.proto).toNat : ℤ) = r.number net := by
  have hstored : storedProto net r.proto = UInt8.ofInt (r.number net) := by
    rw [storedProto, number]
    cases r.proto.bind (ProtoText.number? net) <;> rfl
  rw [hstored, UInt8.ofInt, UInt8.toNat_ofNat']
  omega

theorem storedProto_eq_zero (h : 0 ≤ r.number net ∧ r.number net ≤ 255) :
    storedProto net r.proto = 0 ↔ r.number net = 0 := by
  rw [← UInt8.toNat_inj, ← toNat_storedProto h, UInt8.toNat_zero]
  exact Int.natCast_eq_zero.symm

section

variable (h : r.Plain net) (side : RuleSide)
include h

theorem matchAddress_target_iff (ip : UInt32) : matchAddress ((r.store net).target side) ip ↔
    ∀ o ∈ r.object side, ∀ n ∈ o.network?, n.Contains net ip := by
  rw [target_store]
  cases ho : r.object side with
  | none => exact iff_of_true (matchAddress_emptyTarget ip) (by simp)
  | some o =>
    rw [forall_mem_some]
    exact ObjectText.matchAddress_store_iff (h.object side o ho) ip

theorem matchPort_target_iff (port : UInt16) : matchPort ((r.store net).target side) port ↔
    ∀ o ∈ r.object side, ∀ t ∈ o.port?, t.Means port := by
  rw [target_store]
  cases ho : r.object side with
  | none => exact iff_of_true (matchPort_emptyTarget port) (by simp)
  | some o =>
    rw [forall_mem_some]
    exact ObjectText.matchPort_store_iff (h.object side o ho) port

end

/-- With flags the protocol is TCP, without them it is the one that is written. -/
theorem protocol_accepts_iff (h : r.Plain net) (x : TupleNode) :
    ((r.store net).proto = 0 ∨ (r.store net).proto.toNat = x.protocol) ↔
      (r.number net = 0 ∨ r.number net = x.protocol) ∧
        (r.flags.isSome → x.protocol = IPPROTO_TCP) := by
  have hnumber := toNat_storedProto h.number
  have hzero := storedProto_eq_zero h.number
  cases hflags : r.flags with
  | none =>
    rw [proto_store, hflags, ← hzero, ← hnumber]
    simp
  | some f =>
    have hproto : (r.store net).proto = 6 := by
      rw [proto_store, hflags]
      rcases (h.flags f hflags).2 with hf | hf
      · simp [hzero.2 hf]
      · rw [hf] at hnumber
        have hsix : storedProto net r.proto = 6 := UInt8.toNat_inj.1 (by exact_mod_cast hnumber)
        simp [hsix]
    rw [hproto]
    constructor
    · rintro (hfalse | hx)
      · cases hfalse
      · exact ⟨(h.flags f hflags).2.imp id fun hf => by rw [hf, ← hx]; rfl, fun _ => hx.symm⟩
    · rintro ⟨-, hx⟩
      exact Or.inr (hx rfl).symm

theorem matchFlags_store_iff (h : r.Plain net) (hacc : r.Accepted net) (flags : UInt8) :
    matchFlags (r.store net).flags flags ↔ ∀ f ∈ r.flags, f.Means flags := by
  rw [flags_store]
  cases hf : r.flags with
  | none => exact iff_of_true rfl (by simp)
  | some f =>
    obtain ⟨m, hm⟩ := Option.isSome_iff_exists.1 (h.flags f hf).1
    rw [forall_mem_some, Option.elim_some, hm]
    exact FlagsText.matchFlags_iff (hacc.flags f hf) hm flags

/-- What the sides and the flags ask of the header below. -/
theorem transport_accepts_iff (h : r.Plain net) (hacc : r.Accepted net) {x y : TupleNode}
    (hshape : SameShape x y) (hproto : (r.number net = 0 ∨ r.number net = x.protocol) ∧
      (r.flags.isSome → x.protocol = IPPROTO_TCP)) :
    TransportAccepts (r.store net) x y ↔
      (∀ o ∈ r.src, ∀ t ∈ o.port?, ∃ p ∈ x.port?, t.Means p) ∧
      (∀ o ∈ r.dst, ∀ t ∈ o.port?, ∃ p ∈ y.port?, t.Means p) ∧
      ∀ f ∈ r.flags, ∃ prv, x = .tcp prv ∧ f.Means prv.flags := by
  have hflags : x.protocol ≠ IPPROTO_TCP → r.flags = none := fun hne => by
    by_contra hsome
    exact hne (hproto.2 (Option.isSome_iff_ne_none.2 hsome))
  cases hshape with
  | tcp p q =>
    refine and_congr ((matchPort_target_iff h .src p.port).trans ?_)
      (and_congr ((matchPort_target_iff h .dst q.port).trans ?_)
        ((matchFlags_store_iff h hacc p.flags).trans ?_))
    · simp [object, TupleNode.port?]
    · simp [object, TupleNode.port?]
    · simp
  | udp p q =>
    rw [hflags (show IPPROTO_UDP ≠ IPPROTO_TCP by decide)]
    refine (and_congr ((matchPort_target_iff h .src p.port).trans ?_)
      ((matchPort_target_iff h .dst q.port).trans ?_))
    · simp [object, TupleNode.port?]
    · simp [object, TupleNode.port?]
  | icmp p q =>
    have hnone := hflags (show IPPROTO_ICMP ≠ IPPROTO_TCP by decide)
    -- a port would have a protocol with ports
    have hport : ∀ side, ∀ o ∈ r.object side, ∀ t, o.port? ≠ some t := by
      intro side o ho t ht
      have hnumber := hproto.1
      have hasked := h.ports side o ho (by rw [ht]; rfl)
      rw [hnone] at hasked
      simp only [TupleNode.protocol, IPPROTO_TCP, IPPROTO_UDP, IPPROTO_ICMP] at hnumber hasked
      rcases hasked with hfalse | htcp | hudp
      · cases hfalse
      · rcases hnumber with hn | hn <;> omega
      · rcases hnumber with hn | hn <;> omega
    rw [hnone]
    exact iff_of_true trivial ⟨fun o ho t ht => absurd ht (hport .src o ho t),
      fun o ho t ht => absurd ht (hport .dst o ho t), by simp⟩

/-- **A plain rule accepts the packets of which what it says is true.** -/
theorem accepts_store_iff (h : r.Plain net) (hacc : r.Accepted net) (num : ℕ) (a b : TupleIp)
    {x y : TupleNode} (hshape : SameShape x y) :
    RuleAccepts { r.store net with num } a b x y ↔ r.Means net a b x y := by
  have hsrc := matchAddress_target_iff h .src a.ip
  have hdst := matchAddress_target_iff h .dst b.ip
  constructor
  · intro hr
    have hproto := (protocol_accepts_iff h x).1 hr.proto
    obtain ⟨hsp, hdp, hflags⟩ := (transport_accepts_iff h hacc hshape hproto).1 hr.transport
    exact ⟨hproto.1, fun o ho => ⟨hsrc.1 hr.src o ho, hsp o ho⟩,
      fun o ho => ⟨hdst.1 hr.dst o ho, hdp o ho⟩, hflags⟩
  · intro hm
    have hproto : (r.number net = 0 ∨ r.number net = x.protocol) ∧
        (r.flags.isSome → x.protocol = IPPROTO_TCP) := by
      refine ⟨hm.proto, fun hsome => ?_⟩
      obtain ⟨f, hf⟩ := Option.isSome_iff_exists.1 hsome
      obtain ⟨prv, rfl, -⟩ := hm.flags f hf
      rfl
    exact ⟨(protocol_accepts_iff h x).2 hproto, hsrc.2 fun o ho => (hm.src o ho).1,
      hdst.2 fun o ho => (hm.dst o ho).1, (transport_accepts_iff h hacc hshape hproto).2
        ⟨fun o ho => (hm.src o ho).2, fun o ho => (hm.dst o ho).2, hm.flags⟩⟩

end RuleText

/-! ## Files -/

/-- **First match, as the rules are written**: the first one that is true of the packet is under the
cursor, with its place among them for a number, or none is and nothing is matched. -/
def FirstMeant (net : NetDb) (means : RuleText → Prop) (rs : List RuleText) (m : Matched) : Prop :=
  (m.1 = 1 ∧ ∃ pre r post, rs = pre ++ r :: post ∧ (∀ r' ∈ pre, ¬ means r') ∧ means r ∧
    m.2.head? = some { r.store net with num := pre.length }) ∨
  (m.1 = 0 ∧ ∀ r ∈ rs, ¬ means r)

/-- The stored rules accept as the written ones mean, so the first of them is the first of these. -/
theorem firstMeant_of_firstMatch {net : NetDb} {means : RuleText → Prop}
    {accepts : FilterRule → Prop} {dir : MatchMode} {rs : List RuleText} {m : Matched}
    (hmeans : ∀ r ∈ rs, r.dir = dir → ∀ num, accepts { r.store net with num } ↔ means r)
    (h : FirstMatch accepts (storedRuleset net dir rs) m) :
    FirstMeant net means (rs.filter fun r => r.dir = dir) m := by
  have hwritten : ∀ r ∈ rs.filter (fun r => r.dir = dir), ∀ num,
      accepts { r.store net with num } ↔ means r := by
    intro r hr
    rw [List.mem_filter, decide_eq_true_eq] at hr
    exact hmeans r hr.1 hr.2
  rw [storedRuleset] at h
  generalize rs.filter (fun r => r.dir = dir) = ws at h hwritten ⊢
  rcases h with ⟨hrc, pre, x, post, hrules, hpre, hacc, hcursor⟩ | ⟨hrc, hnone⟩
  · obtain ⟨xs, xs', hws, rfl, hrest⟩ := List.mapIdx_eq_append_iff.1 hrules
    obtain ⟨x', post', rfl, rfl, rfl⟩ := List.mapIdx_eq_cons_iff.1 hrest
    obtain ⟨pre', ws', rfl, rfl, hws'⟩ := List.map_eq_append_iff.1 hws
    obtain ⟨r, post, rfl, rfl, rfl⟩ := List.map_eq_cons_iff.1 hws'
    refine Or.inl ⟨hrc, pre', r, post, rfl, fun r' hr' hm => ?_, ?_, ?_⟩
    · obtain ⟨i, hi, rfl⟩ := List.mem_iff_getElem.1 hr'
      refine hpre _ (List.mem_mapIdx.2 ⟨i, by simpa using hi, rfl⟩) ?_
      rw [List.getElem_map]
      exact (hwritten _ (List.mem_append_left _ hr') i).2 hm
    · exact (hwritten r (by simp) _).1 hacc
    · rw [hcursor]
      simp
  · refine Or.inr ⟨hrc, fun r hr hm => ?_⟩
    obtain ⟨i, hi, rfl⟩ := List.mem_iff_getElem.1 hr
    refine hnone _ (List.mem_mapIdx.2 ⟨i, by simpa using hi, rfl⟩) ?_
    rw [List.getElem_map]
    exact (hwritten _ hr i).2 hm

/-- The address of the user that a packet is from or to. -/
def MatchMode.user (mode : MatchMode) (a b : TupleIp) : UInt32 :=
  match mode with
  | .inward => a.ip
  | .outward => b.ip

namespace Controller

/-- The first IP header starts the loop over the rules of the session. -/
theorem filterMatch_of_session (cfg : Config) (now : ℤ) (s : Controller) (mode : MatchMode)
    (a b : TupleIp) (as bs : Chain) {e : SessionEntry}
    (hsession : s.sessions.retrieve (mode.user a b) = some e) :
    filterMatch cfg.filters (fun ip => (sessionGetFilterId cfg now s ip).2) mode (.ip a :: as)
        (.ip b :: bs) [] =
      ipLoop (filterMatch cfg.filters (fun ip => (sessionGetFilterId cfg now s ip).2) mode as bs)
        a b (filterGet cfg.filters mode e.filterId) (filterGet cfg.filters mode e.filterId) := by
  have hproto : (TupleNode.ip a).protocol = (TupleNode.ip b).protocol := rfl
  rw [filterMatch, if_neg (not_not.mpr hproto)]
  simp only [protoMismatch, Bool.false_eq_true, if_false, ipFilterMatch]
  cases mode with
  | inward =>
    have hid : sessionGetFilterId cfg now s a.ip = (s, some e.filterId) :=
      sessionGetFilterId_of_found hsession
    simp only [hid]
  | outward =>
    have hid : sessionGetFilterId cfg now s b.ip = (s, some e.filterId) :=
      sessionGetFilterId_of_found hsession
    simp only [hid]

/-- **From the octets of a file to the verdict on a packet.**  A file of plain rules is loaded into
the slot of a session: then the first rule of the file that is for the direction and says so of the
packet decides. -/
theorem filterMatch_firstMeant (cfg : Config) (now : ℤ) (s : Controller) (mode : MatchMode)
    (net : NetDb) {stack file : List UInt8} {last : UInt8} {rs : List RuleText}
    (hrs : Written ((NulString.str file).map octetChar) rs)
    (hplain : ∀ r ∈ rs, r.dir = mode → r.Plain net) {name : String} {rsIn rsOut : Ruleset}
    (hload : filterLoadText net stack (file ++ [last]) = .ok (rsIn, rsOut)) {slot : FilterSlot}
    (hslot : cfg.filters slot = some ⟨name, rsIn, rsOut⟩) {x y : TupleNode}
    (hshape : SameShape x y) (a b : TupleIp) {e : SessionEntry}
    (hsession : s.sessions.retrieve (mode.user a b) = some e) (hfilter : e.filterId = some slot) :
    FirstMeant net (RuleText.Means net a b x y) (rs.filter fun r => r.dir = mode)
      (filterMatch cfg.filters (fun ip => (sessionGetFilterId cfg now s ip).2) mode
        [.ip a, x] [.ip b, y] []) := by
  have hsize : file.length + 1 < FILTER_TEXT_SIZE - 1 := by
    by_contra hlong
    rw [filterLoadText_of_length (by rw [List.length_append]; exact not_lt.1 hlong)] at hload
    cases hload
  rw [filterLoadText_concat hsize] at hload
  obtain ⟨hacc, hin, hout⟩ := stored_of_written hrs hload
  have hrules : filterGet cfg.filters mode e.filterId = storedRuleset net mode rs := by
    rw [hfilter, filterGet, hslot]
    cases mode with
    | inward => exact hin
    | outward => exact hout
  rw [filterMatch_of_session cfg now s mode a b [x] [y] hsession, hrules]
  refine firstMeant_of_firstMatch ?_ (ipLoop_firstMatch hshape a b _ _)
  intro r hr hdir num
  exact RuleText.accepts_store_iff (hplain r hr hdir) (hacc r hr) num a b hshape

/-- `block in proto tcp from 10.0.0.0/8 to port eq 80,443 flags S/SA`. -/
def blockSyns : RuleText :=
  { RuleText.passIn (some (.name ⟨"tcp".toList, by decide +kernel⟩))
      (some (.network tenNetwork none)) (some (.port (webPorts .eq))) with
    action := .block
    flags := some ⟨⟨['S'], by decide +kernel⟩, some ⟨['S', 'A'], by decide +kernel⟩⟩
    flags_proto := fun _ => rfl }

theorem tenNetwork_plain : (ObjectText.network tenNetwork none).Plain .small where
  network := forall_mem_some.2 (show tenNetwork.Matchable .small from ⟨by decide +kernel,
    by decide +kernel⟩)
  slash := forall_mem_some.2 fun k hk => by
    obtain rfl := MaskText.slash.inj (Option.some.inj hk)
    decide +kernel
  port t ht := by cases ht
  portnum t ht := by cases ht

theorem webPorts_plain : (ObjectText.port (webPorts .eq)).Plain .small where
  network n hn := by cases hn
  slash n hn := by cases hn
  port := forall_mem_some.2 (show ∀ p ∈ List.drop _ _, _ by decide +kernel)
  portnum := forall_mem_some.2 (by decide +kernel)

theorem blockSyns_plain : blockSyns.Plain .small where
  number := by decide +kernel
  object side o ho := by
    cases side with
    | src =>
      obtain rfl := Option.some.inj ho
      exact tenNetwork_plain
    | dst =>
      obtain rfl := Option.some.inj ho
      exact webPorts_plain
  ports side o ho _ := Or.inl rfl
  flags f hf := by
    obtain rfl := Option.some.inj hf
    exact ⟨rfl, Or.inr (by decide +kernel)⟩

def synsText : List UInt8 :=
  "block in proto tcp from 10.0.0.0/8 to port eq 80,443 flags S/SA".toUTF8.toList

/-- A configuration with that filter in every slot. -/
def synsConfig : Config :=
  { oneUserConfig with
    filters := fun _ => some ⟨"syns", storedRuleset .small .inward [blockSyns], []⟩ }

theorem synsText_written :
    Written ((NulString.str synsText).map octetChar) [blockSyns] := by
  decide +kernel

theorem synsText_loads : filterLoadText .small [] (synsText ++ [10]) =
    .ok (storedRuleset .small .inward [blockSyns], []) := by
  rw [filterLoadText_concat (by decide +kernel)]
  decide +kernel

/-- The first packet of a connection meets the rule. -/
theorem filterMatch_firstMeant_syns :
    FirstMeant .small (RuleText.Means .small ⟨0x0a000001, 1, 0⟩ ⟨0xc0000201, 1, 0⟩
        (.tcp ⟨4000, 2⟩) (.tcp ⟨80, 2⟩))
      ([blockSyns].filter fun r => r.dir = .inward)
      (filterMatch synsConfig.filters
        (fun ip => (sessionGetFilterId synsConfig 0 oneCaptive ip).2) .inward
        [.ip ⟨0x0a000001, 1, 0⟩, .tcp ⟨4000, 2⟩] [.ip ⟨0xc0000201, 1, 0⟩, .tcp ⟨80, 2⟩]
        []) :=
  filterMatch_firstMeant synsConfig 0 oneCaptive .inward .small synsText_written
    (by simpa using fun _ => blockSyns_plain) synsText_loads rfl (.tcp _ _) ⟨0x0a000001, 1, 0⟩
    ⟨0xc0000201, 1, 0⟩ (e := freshSession 0x0a000001 ⟨0, by decide⟩ 0) (by decide +kernel) rfl

end Controller

end Sweetspot
