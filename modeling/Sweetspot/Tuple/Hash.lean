import Sweetspot.Lib.Fnv
import Sweetspot.Tuple.Headers

/-!
# The hashes of a chain

The tables of the address translators look a chain up by its hash first, and compare only where
the hashes are equal.  A handler hashes a zeroed structure with the fields it cares for, from the
hash of the rest of the chain.  The ICMP handler of the NAT family takes the wrong one for the
rest: it compares the packet that the message quotes as NAT does, and hashes it as the plain
family does, with the ids and offsets of its IP header.

* `tupleHash_eq_of_cmp`: the plain hash agrees with the plain comparison.
* `natTupleHash_eq_iff`: of chains that compare equal the NAT hashes are equal exactly when the
  plain hashes of the quoted packets are.
* `exists_built_twins`: so a packet that quotes another one always has a twin, one octet away, that
  compares equal and is hashed differently.
* `natTupleHash_agrees_iff`: which chains are hashed as they are compared.
-/

namespace Sweetspot

open Octets Fnv

/-! ## The hashed structures -/

/-- A `uint16_t` of the host, least significant octet first. -/
def hostOctets (v : ℕ) : List UInt8 := [UInt8.ofNat (v % 256), UInt8.ofNat (v / 256)]

/-- The octets of a 16-bit header field. -/
def octets16 (v : UInt16) : List UInt8 := put16 [0, 0] 0 v

/-- The structure `h` that the `__hash` of the handler of a node fills in.  The zeros are the
padding of the compiler. -/
def TupleNode.hashed : TupleNode → List UInt8
  | .ip prv =>
    hostOctets IPPROTO_IP ++ octets16 prv.id ++ octets16 prv.fragOff ++ [0, 0] ++ octets32 prv.ip
  | .tcp prv => hostOctets IPPROTO_TCP ++ octets16 prv.port
  | .udp prv => hostOctets IPPROTO_UDP ++ octets16 prv.port
  | .icmp prv =>
    hostOctets IPPROTO_ICMP ++ [prv.type, 0] ++ octets16 prv.id ++ octets16 prv.seq

/-- The same of `__hash_simpl__`, which leaves fields of IP and of ICMP at zero. -/
def TupleNode.hashedSimpl : TupleNode → List UInt8
  | .ip prv => TupleNode.hashed (.ip { prv with id := 0 })
  | .tcp prv => TupleNode.hashed (.tcp prv)
  | .udp prv => TupleNode.hashed (.udp prv)
  | .icmp prv => TupleNode.hashed (.icmp { prv with id := 0, seq := 0 })

/-- The same of the NAT handlers of IP and ICMP. -/
def TupleIp.natHashed (prv : TupleIp) : List UInt8 :=
  hostOctets IPPROTO_IP ++ [0, 0] ++ octets32 prv.ip

def TupleIcmp.natHashed (prv : TupleIcmp) : List UInt8 :=
  hostOctets IPPROTO_ICMP ++ octets16 prv.id ++ octets16 prv.seq

/-! ## The hashes -/

/-- A chain hashed from its end, every node from the hash of the rest. -/
def chainHash (hashed : TupleNode → List UInt8) : Chain → UInt32
  | [] => FNV1_32A_INIT
  | x :: as => fnv32aBuf (hashed x) (chainHash hashed as)

/-- `sw_tuple_hash`. -/
def tupleHash : Chain → UInt32 := chainHash TupleNode.hashed

/-- `sw_tuple_hash_simpl`. -/
def tupleHashSimpl : Chain → UInt32 := chainHash TupleNode.hashedSimpl

/-- `sw_nat_tuple_hash`. -/
def natTupleHash : Chain → UInt32
  | [] => FNV1_32A_INIT
  | .ip prv :: as => fnv32aBuf prv.natHashed (natTupleHash as)
  | .tcp prv :: as => fnv32aBuf (TupleNode.tcp prv).hashed (tupleHash as)
  | .udp prv :: as => fnv32aBuf (TupleNode.udp prv).hashed (tupleHash as)
  -- the handler calls sw_tuple_hash, not sw_nat_tuple_hash
  | .icmp prv :: as => fnv32aBuf prv.natHashed (tupleHash as)

@[simp] theorem tupleHash_cons (x : TupleNode) (as : Chain) :
    tupleHash (x :: as) = fnv32aBuf x.hashed (tupleHash as) := rfl

/-! ## The plain family -/

/-- A hash that looks at no field `sw_tuple_cmp` ignores is a hash of what that compares. -/
theorem chainHash_tupleImage {hashed : TupleNode → List UInt8}
    (h : ∀ prv : TupleTcp, hashed (.tcp { prv with flags := 0 }) = hashed (.tcp prv)) (a : Chain) :
    chainHash hashed (tupleImage a) = chainHash hashed a := by
  induction a with
  | nil => rfl
  | cons x as ih =>
    cases x with
    | ip prv => rw [tupleImage, chainHash, chainHash, ih]; simp
    | tcp prv => rw [tupleImage, chainHash, chainHash, ih, h]
    | udp prv => rw [tupleImage, chainHash, chainHash, ih]; simp
    | icmp prv => rw [tupleImage, chainHash, chainHash, ih]; simp

/-- So it agrees with that comparison. -/
theorem chainHash_eq_of_cmp {hashed : TupleNode → List UInt8}
    (hflags : ∀ prv : TupleTcp, hashed (.tcp { prv with flags := 0 }) = hashed (.tcp prv))
    {a b : Chain} (h : tupleCmp a b = 0) : chainHash hashed a = chainHash hashed b := by
  have himage := (tupleCmp_eq_zero_iff a b).mp h
  calc chainHash hashed a = chainHash hashed (tupleImage a) := (chainHash_tupleImage hflags a).symm
    _ = chainHash hashed (tupleImage b) := by rw [himage]
    _ = chainHash hashed b := chainHash_tupleImage hflags b

/-- **The plain hash agrees with the plain comparison.** -/
theorem tupleHash_eq_of_cmp {a b : Chain} (h : tupleCmp a b = 0) : tupleHash a = tupleHash b :=
  chainHash_eq_of_cmp (fun _ => rfl) h

/-- So does the simplified one. -/
theorem tupleHashSimpl_eq_of_cmp {a b : Chain} (h : tupleCmp a b = 0) :
    tupleHashSimpl a = tupleHashSimpl b :=
  chainHash_eq_of_cmp (fun _ => rfl) h

/-! ## The NAT family -/

/-- What a chain quotes: the part behind its first ICMP node, if only IP nodes are before that. -/
def quotedChain : Chain → Chain
  | .ip _ :: as => quotedChain as
  | .icmp _ :: as => as
  | _ => []

/-- Chains `sw_nat_tuple_cmp` says equal, handler by handler. -/
inductive NatAlike : Chain → Chain → Prop
  | nil : NatAlike [] []
  | ip {x y : TupleIp} {as bs : Chain} (hip : x.ip = y.ip) (hrest : NatAlike as bs) :
    NatAlike (.ip x :: as) (.ip y :: bs)
  | tcp {x y : TupleTcp} {as bs : Chain} (hport : x.port = y.port) (hrest : tupleCmp as bs = 0) :
    NatAlike (.tcp x :: as) (.tcp y :: bs)
  | udp {x y : TupleUdp} {as bs : Chain} (hport : x.port = y.port) (hrest : tupleCmp as bs = 0) :
    NatAlike (.udp x :: as) (.udp y :: bs)
  | icmp {x y : TupleIcmp} {as bs : Chain} (hid : x.id = y.id) (hseq : x.seq = y.seq)
    (hrest : natTupleCmp as bs = 0) : NatAlike (.icmp x :: as) (.icmp y :: bs)

theorem natAlike_of_cmp {a b : Chain} (h : natTupleCmp a b = 0) : NatAlike a b := by
  induction a generalizing b with
  | nil =>
    cases b with
    | nil => exact .nil
    | cons y bs => simp [natTupleCmp] at h
  | cons x as ih =>
    cases b with
    | nil => simp [natTupleCmp] at h
    | cons y bs =>
      cases x <;> cases y <;>
        simp only [natTupleCmp, ite_one_eq_zero_iff, not_or, not_not, ne_eq] at h
      case ip.ip => exact .ip h.1 (ih h.2)
      case tcp.tcp => exact .tcp h.1 h.2
      case udp.udp => exact .udp h.1 h.2
      case icmp.icmp => exact .icmp h.1.1 h.1.2 h.2
      -- two protocol numbers that differ
      all_goals
        simp [TupleNode.protocol, IPPROTO_IP, IPPROTO_ICMP, IPPROTO_TCP, IPPROTO_UDP] at h

theorem natTupleCmp_of_natAlike {a b : Chain} (h : NatAlike a b) : natTupleCmp a b = 0 := by
  induction h with
  | nil => rfl
  | ip hip _ ih => simp [natTupleCmp, hip, ih]
  | tcp hport hrest => simp [natTupleCmp, hport, hrest]
  | udp hport hrest => simp [natTupleCmp, hport, hrest]
  | icmp hid hseq hrest => simp [natTupleCmp, hid, hseq, hrest]

theorem natTupleCmp_quotedChain {a b : Chain} (h : natTupleCmp a b = 0) :
    natTupleCmp (quotedChain a) (quotedChain b) = 0 := by
  induction natAlike_of_cmp h with
  | nil => rfl
  | ip _ hrest ih => exact ih (natTupleCmp_of_natAlike hrest)
  | tcp => rfl
  | udp => rfl
  | icmp _ _ hrest => exact hrest

/-- **The NAT hash agrees with the NAT comparison up to the hash of what is quoted.** -/
theorem natTupleHash_eq_iff {a b : Chain} (h : natTupleCmp a b = 0) :
    natTupleHash a = natTupleHash b ↔ tupleHash (quotedChain a) = tupleHash (quotedChain b) := by
  induction natAlike_of_cmp h with
  | nil => exact iff_of_true rfl rfl
  | @ip x y as bs hip hrest ih =>
    have hsame : x.natHashed = y.natHashed := by rw [TupleIp.natHashed, TupleIp.natHashed, hip]
    rw [natTupleHash, natTupleHash, hsame, (fnv32aBuf_injective _).eq_iff]
    exact ih (natTupleCmp_of_natAlike hrest)
  | tcp hport hrest =>
    refine iff_of_true ?_ rfl
    rw [natTupleHash, natTupleHash, TupleNode.hashed, TupleNode.hashed, hport,
      tupleHash_eq_of_cmp hrest]
  | udp hport hrest =>
    refine iff_of_true ?_ rfl
    rw [natTupleHash, natTupleHash, TupleNode.hashed, TupleNode.hashed, hport,
      tupleHash_eq_of_cmp hrest]
  | @icmp x y as bs hid hseq hrest =>
    have hsame : x.natHashed = y.natHashed := by
      rw [TupleIcmp.natHashed, TupleIcmp.natHashed, hid, hseq]
    rw [natTupleHash, natTupleHash, hsame, (fnv32aBuf_injective _).eq_iff]
    rfl

/-- **The NAT hash agrees with the NAT comparison on chains that quote nothing.** -/
theorem natTupleHash_eq_of_cmp {a b : Chain} (ha : quotedChain a = []) (h : natTupleCmp a b = 0) :
    natTupleHash a = natTupleHash b := by
  have hquoted := natTupleCmp_quotedChain h
  rw [ha] at hquoted
  have hb : quotedChain b = [] := by
    cases hc : quotedChain b with
    | nil => rfl
    | cons y bs =>
      rw [hc] at hquoted
      simp [natTupleCmp] at hquoted
  rw [natTupleHash_eq_iff h, ha, hb]

/-- A lookup in a table of chains by hash and comparison is one by comparison alone, if the chain
looked up quotes nothing. -/
theorem retrieveHashed_natTupleHash {ρ : Type*} {key : ρ → Chain} (t : KeyedTable natComparator key)
    {k : Chain} (hk : quotedChain k = []) :
    t.retrieveHashed natTupleHash k = t.retrieve k :=
  KeyedTable.retrieveHashed_eq fun _ _ hcmp =>
    (natTupleHash_eq_of_cmp hk (natTupleCmp_symm hcmp)).symm

/-! ## Fetched chains -/

/-- The chain of one side of a packet that `sw_tuple_fetch` accepts. -/
def Built (a : Chain) : Prop :=
  ∃ uninit packet fuel b,
    tupleFetch uninit packet fuel IPPROTO_IP 0 packet.length = some (some (a, b)) ∨
      tupleFetch uninit packet fuel IPPROTO_IP 0 packet.length = some (some (b, a))

/-- Chains that compare equal though what they quote is hashed differently. -/
def Twins (a b : Chain) : Prop :=
  natTupleCmp a b = 0 ∧ tupleHash (quotedChain a) ≠ tupleHash (quotedChain b)

theorem Twins.natTupleHash_ne {a b : Chain} (h : Twins a b) : natTupleHash a ≠ natTupleHash b :=
  fun heq => h.2 ((natTupleHash_eq_iff h.1).mp heq)

theorem Twins.ip {a b : Chain} (h : Twins a b) (prv : TupleIp) :
    Twins (.ip prv :: a) (.ip prv :: b) :=
  ⟨natTupleCmp_of_natAlike (.ip rfl (natAlike_of_cmp h.1)), h.2⟩

section

variable {uninit : ℕ → TupleIcmp × TupleIcmp} {p : List UInt8}

theorem octets16_get16 (p : List UInt8) (i : ℕ) :
    octets16 (get16 p i) = [get8 p i, get8 p (i + 1)] := by
  have h₁ := (get8 p i).toNat_lt
  have h₂ := (get8 p (i + 1)).toNat_lt
  have hhigh : (get16 p i).toNat / 256 = (get8 p i).toNat := by
    rw [get16_toNat]
    omega
  have hlow : (get16 p i).toNat % 256 = (get8 p (i + 1)).toNat := by
    rw [get16_toNat]
    omega
  simp [octets16, put16, hhigh, hlow]

/-- The quoted IP header with the second octet of its id changed. -/
theorem twins_quoted {q : List UInt8} {i : ℕ} (hfirst : get8 p i = get8 q i)
    (hsecond : get8 p (i + 1) ≠ get8 q (i + 1)) (x : TupleIcmp) (ip : UInt32) (fragOff : UInt16)
    (as : Chain) : Twins (.icmp x :: .ip ⟨ip, get16 p i, fragOff⟩ :: as)
      (.icmp x :: .ip ⟨ip, get16 q i, fragOff⟩ :: as) := by
  refine ⟨natTupleCmp_of_natAlike (.icmp rfl rfl (natTupleCmp_of_natAlike (.ip rfl ?_))), ?_⟩
  · exact natAlike_of_cmp (natTupleCmp_self as)
  · rw [quotedChain, quotedChain, tupleHash_cons, tupleHash_cons, TupleNode.hashed,
      TupleNode.hashed, octets16_get16, octets16_get16, hfirst]
    simp only [List.append_assoc, List.cons_append, List.nil_append]
    exact fnv32aBuf_octet_ne hsecond (hostOctets IPPROTO_IP ++ [get8 q i]) _ _

theorem sameOctets_set {j off n : ℕ} (hj : off + n ≤ j) (hlen : j < p.length) (v : UInt8) :
    SameOctets p (p.set j v) off n := fun k hk => by
  rw [get8_set hlen, if_neg (by omega)]

/-- The second octet of the id of an IP header shows in its own node, and nowhere else. -/
theorem tupleFetch_set_id {a b : Chain} {fuel i : ℕ} {length : ℤ} (hihl : 5 ≤ iphIhl p i)
    (hbuf : i + 20 ≤ p.length)
    (hfetch : tupleFetch uninit p fuel IPPROTO_IP i length = some (some (a, b))) (v : UInt8) :
    ∃ as bs fuel', a = .ip ⟨iphSaddr p i, iphId p i, iphFragOff p i⟩ :: as ∧
      b = .ip ⟨iphDaddr p i, iphId p i, iphFragOff p i⟩ :: bs ∧
      tupleFetch uninit (p.set (i + 5) v) fuel' IPPROTO_IP i length =
        some (some (.ip ⟨iphSaddr p i, iphId (p.set (i + 5) v) i, iphFragOff p i⟩ :: as,
          .ip ⟨iphDaddr p i, iphId (p.set (i + 5) v) i, iphFragOff p i⟩ :: bs)) := by
  obtain ⟨hversion, hsize, htot, as, bs, rfl, rfl, hrest⟩ := tupleFetch_ip hfetch
  have hlen : 20 ≤ length := le_of_not_sizeLt hsize (le_trans (by omega) htot)
  generalize hq : p.set (i + 5) v = q
  have hget : ∀ k, k ≠ i + 5 → get8 q k = get8 p k := fun k hk => by
    rw [← hq, get8_set (by omega), if_neg hk]
  have hget16 : ∀ k, k ≠ i + 4 → k ≠ i + 5 → get16 q k = get16 p k := fun k h₁ h₂ => by
    rw [get16, get16, hget k h₂, hget (k + 1) (by omega)]
  have hget32 : ∀ k, i + 6 ≤ k → get32 q k = get32 p k := fun k hk => by
    rw [get32, get32, hget16 k (by omega) (by omega), hget16 (k + 2) (by omega) (by omega)]
  have hversion' : iphVersion q i = iphVersion p i := by
    rw [iphVersion, iphVersion, hget _ (by omega)]
  have htot' : iphTotLen q i = iphTotLen p i := by
    rw [iphTotLen, iphTotLen, hget16 _ (by omega) (by omega)]
  have hfrag' : iphFragOff q i = iphFragOff p i := hget16 _ (by omega) (by omega)
  have hprotocol' : iphProtocol q i = iphProtocol p i := by
    rw [iphProtocol, iphProtocol, hget _ (by omega)]
  have hihl' : iphIhl q i = iphIhl p i := by
    rw [iphIhl, iphIhl, hget _ (by omega)]
  have hsaddr' : iphSaddr q i = iphSaddr p i := hget32 _ (by omega)
  have hdaddr' : iphDaddr q i = iphDaddr p i := hget32 _ (by omega)
  have htail : ∀ fuel protocol length,
      tupleFetch uninit q fuel protocol (iphPayload p i) length =
        tupleFetch uninit p fuel protocol (iphPayload p i) length :=
    tupleFetch_congr_from fun k hk => hget k (by unfold iphPayload at hk; omega)
  have hpayload' : iphPayload q i = iphPayload p i := by
    rw [iphPayload, iphPayload, hihl']
  have hpayloadLen' : iphPayloadLen q i = iphPayloadLen p i := by
    rw [iphPayloadLen, iphPayloadLen, htot', hihl']
  obtain ⟨fuel', hfetch'⟩ : ∃ fuel', tupleFetch uninit q fuel' IPPROTO_IP i length =
      some (some (.ip ⟨iphSaddr q i, iphId q i, iphFragOff q i⟩ :: as,
        .ip ⟨iphDaddr q i, iphId q i, iphFragOff q i⟩ :: bs)) := by
    refine exists_tupleFetch_ip (by rw [hversion', hversion]) hlen (by rwa [htot']) ?_
    rw [hfrag', hprotocol', hpayload', hpayloadLen']
    rcases hrest with hnone | ⟨hfrag, fuel', hnext⟩
    · exact Or.inl hnone
    · exact Or.inr ⟨hfrag, fuel', by rw [htail, hnext]⟩
  rw [hfrag', hsaddr', hdaddr'] at hfetch'
  exact ⟨as, bs, fuel', rfl, rfl, hfetch'⟩

/-- The fetch from a header gives the twins of its chains as soon as the octet `j` is another. -/
def TwinnedAt (uninit : ℕ → TupleIcmp × TupleIcmp) (p : List UInt8) (j : ℕ) (h : Header)
    (a b : Chain) : Prop :=
  ∀ v, v ≠ get8 p j → ∃ fuel a' b',
    tupleFetch uninit (p.set j v) fuel h.protocol h.off h.length = some (some (a', b')) ∧
      Twins a a' ∧ Twins b b'

/-- An IP header before the octet is read as it was, and the twins are behind it. -/
theorem TwinnedAt.ip {a b : Chain} {j off : ℕ} {length : ℤ} (hversion : iphVersion p off = 4)
    (hlen : 20 ≤ length) (htot : iphTotLen p off ≤ length)
    (hfrag : (iphFragOff p off).toNat % 0x2000 = 0) (hoff : off + 20 ≤ j) (hj : j < p.length)
    (h : TwinnedAt uninit p j ⟨iphProtocol p off, iphPayload p off, iphPayloadLen p off⟩ a b) :
    TwinnedAt uninit p j ⟨IPPROTO_IP, off, length⟩
      (.ip ⟨iphSaddr p off, iphId p off, iphFragOff p off⟩ :: a)
      (.ip ⟨iphDaddr p off, iphId p off, iphFragOff p off⟩ :: b) := by
  intro v hv
  obtain ⟨fuel, a', b', hfetch, ha, hb⟩ := h v hv
  obtain ⟨hver', hihl', htot', hid', hfrag', hproto', hsaddr', hdaddr'⟩ :=
    iph_congr (sameOctets_set hoff hj v)
  have hpayload : iphPayload (p.set j v) off = iphPayload p off := by
    rw [iphPayload, iphPayload, hihl']
  have hpayloadLen : iphPayloadLen (p.set j v) off = iphPayloadLen p off := by
    rw [iphPayloadLen, iphPayloadLen, htot', hihl']
  rw [hproto', ← hpayload, ← hpayloadLen] at hfetch
  obtain ⟨fuel', hfetch'⟩ := exists_tupleFetch_ip (hver' ▸ hversion) hlen (htot' ▸ htot)
    (Or.inr ⟨hfrag' ▸ hfrag, fuel, hfetch⟩)
  rw [← hid', ← hfrag', ← hsaddr', ← hdaddr'] at hfetch'
  exact ⟨fuel', _, _, hfetch', ha.ip _, hb.ip _⟩

/-- The twins of an ICMP header come from the second octet of the id of the header it quotes. -/
theorem twinnedAt_icmp {a b : Chain} {fuel off : ℕ} {length : ℤ} {x : TupleNode}
    (hihl : 5 ≤ iphIhl p (off + 8)) (hbuf : off + 8 + 20 ≤ p.length)
    (hfetch : tupleFetch uninit p fuel IPPROTO_ICMP off length = some (some (x :: a, b)))
    (ha : a ≠ []) :
    TwinnedAt uninit p (off + 8 + 5) ⟨IPPROTO_ICMP, off, length⟩ (x :: a) b := by
  intro v hv
  obtain ⟨hsize, -, xb, -, bs, -, rfl, -⟩ := tupleFetch_icmp hfetch
  have htype := icmpQuotes_of_next hfetch ha
  obtain ⟨fuel', hnext⟩ := tupleFetch_icmp_next hfetch ha
  obtain ⟨as', bs', fuel₁, rfl, rfl, hfetch₁⟩ := tupleFetch_set_id hihl hbuf hnext v
  -- the ICMP header itself is as it was, so it goes on to the changed one
  have htype' : get8 (p.set (off + 8 + 5) v) off = get8 p off := by
    rw [get8_set (by omega), if_neg (by omega)]
  have hfetch₂ := @tupleFetch_quoted uninit (p.set (off + 8 + 5) v) off length hsize
    (by rwa [htype']) fuel₁
  have hfetch₀ := @tupleFetch_quoted uninit p off length hsize htype fuel'
  rw [hnext] at hfetch₀
  rw [hfetch₁, htype'] at hfetch₂
  cases tupleFetch_unique hfetch hfetch₀
  have hhigh : get8 p (off + 8 + 4) = get8 (p.set (off + 8 + 5) v) (off + 8 + 4) := by
    rw [get8_set (by omega), if_neg (by omega)]
  have hlow : get8 p (off + 8 + 4 + 1) ≠ get8 (p.set (off + 8 + 5) v) (off + 8 + 4 + 1) := by
    rw [get8_set (by omega), if_pos rfl]
    exact hv.symm
  exact ⟨fuel₁ + 1, _, _, hfetch₂, twins_quoted hhigh hlow _ _ _ _,
    twins_quoted hhigh hlow _ _ _ _⟩

/-- **A packet that quotes another has a twin**, which differs in one octet of the quoted header
only.  All the headers it goes through are taken to be whole, so that no two of them overlap. -/
theorem exists_twins {a b : Chain} {fuel protocol off : ℕ} {length : ℤ}
    (hihl : ∀ off length, Reached p ⟨IPPROTO_IP, off, length⟩ → 5 ≤ iphIhl p off)
    (hreach : Reached p ⟨protocol, off, length⟩)
    (hfetch : tupleFetch uninit p fuel protocol off length = some (some (a, b)))
    (hquoted : quotedChain a ≠ []) :
    ∃ j, off < j ∧ j < p.length ∧ TwinnedAt uninit p j ⟨protocol, off, length⟩ a b := by
  induction a generalizing b fuel protocol off length with
  | nil => exact absurd rfl hquoted
  | cons x as ih =>
    have hprotocol := tupleFetch_protocol hfetch
    cases x with
    | ip x =>
      subst hprotocol
      obtain ⟨hversion, hsize, htot, as', bs, ha, rfl, hrest⟩ := tupleFetch_ip hfetch
      cases ha
      rcases hrest with ⟨-, rfl, -⟩ | ⟨hfrag, fuel', hnext⟩
      · exact absurd rfl hquoted
      have hlen : 20 ≤ length := le_of_not_sizeLt hsize (le_trans (by omega) htot)
      have hcarries := Carries.payload hversion hlen htot hfrag
      obtain ⟨j, hoff, hj, htwin⟩ := ih (hreach.tail hcarries) hnext hquoted
      have hheader := hihl off length hreach
      have hjoff : off + 20 ≤ j := by
        unfold iphPayload at hoff
        omega
      exact ⟨j, by omega, hj, htwin.ip hversion hlen htot hfrag hjoff hj⟩
    | icmp x =>
      subst hprotocol
      obtain ⟨hsize, -, xb, -, bs, -, rfl, -⟩ := tupleFetch_icmp hfetch
      have hreach' := hreach.tail (Carries.quoted hsize (icmpQuotes_of_next hfetch hquoted))
      have hbound := Reached.bound hreach'
      have hbuf : off + 8 + 20 ≤ p.length := by
        obtain ⟨fuel', hnext⟩ := tupleFetch_icmp_next hfetch hquoted
        obtain ⟨-, hsize, htot, -⟩ := tupleFetch_ip hnext
        have hlen : 20 ≤ length - 8 := le_of_not_sizeLt hsize (le_trans (by omega) htot)
        simp only at hbound
        omega
      exact ⟨off + 8 + 5, by omega, by omega,
        twinnedAt_icmp (hihl _ _ hreach') hbuf hfetch hquoted⟩
    | tcp x => exact absurd rfl hquoted
    | udp x => exact absurd rfl hquoted

/-- The two sides of a packet quote the same headers. -/
theorem quotedChain_eq_nil_iff {a b : Chain} {fuel protocol off : ℕ} {length : ℤ}
    (hfetch : tupleFetch uninit p fuel protocol off length = some (some (a, b))) :
    quotedChain a = [] ↔ quotedChain b = [] := by
  induction a generalizing b fuel protocol off length with
  | nil =>
    obtain ⟨x, as, -, -, ha, -⟩ := exists_cons_of_tupleFetch hfetch
    cases ha
  | cons x as ih =>
    have hprotocol := tupleFetch_protocol hfetch
    subst hprotocol
    cases x with
    | ip x =>
      obtain ⟨-, -, -, as', bs, ha, rfl, hrest⟩ := tupleFetch_ip hfetch
      cases ha
      rcases hrest with ⟨-, rfl, rfl⟩ | ⟨-, fuel', hnext⟩
      · exact iff_of_true rfl rfl
      · have hquoted := ih hnext
        exact hquoted
    | icmp x =>
      have hlen := (tupleFetch_icmp hfetch).1
      cases fuel with
      | zero => cases hfetch
      | succ fuel =>
        by_cases hquotes : IcmpQuotes (get8 p off)
        · have hpush := hfetch.symm.trans (tupleFetch_quoted hlen hquotes fuel)
          obtain ⟨as', bs', hnext, ha, rfl⟩ := Fetched.push_eq_some.mp hpush.symm
          cases ha
          obtain ⟨x', as', y, bs, rfl, rfl, -⟩ := exists_cons_of_tupleFetch hnext
          exact iff_of_false (List.cons_ne_nil _ _) (List.cons_ne_nil _ _)
        by_cases hechoes : IcmpEchoes (get8 p off)
        · cases hfetch.symm.trans (tupleFetch_echoes hlen hechoes uninit fuel)
          exact iff_of_true rfl rfl
        · cases hfetch.symm.trans (tupleFetch_stops hlen hquotes hechoes fuel)
          exact iff_of_true rfl rfl
    | tcp x =>
      obtain ⟨-, -, rfl⟩ := tupleFetch_tcp hfetch
      exact iff_of_true rfl rfl
    | udp x =>
      obtain ⟨-, -, rfl⟩ := tupleFetch_udp hfetch
      exact iff_of_true rfl rfl

end

/-! ## The agreement -/

/-- What a table needs of a chain: what compares equal to it is hashed the same. -/
def HashAgrees (a : Chain) : Prop :=
  ∀ c, Built c → natTupleCmp a c = 0 → natTupleHash a = natTupleHash c

/-- A chain of an accepted packet whose IP headers have their twenty octets. -/
def BuiltWhole (a : Chain) : Prop :=
  ∃ uninit packet fuel b,
    (tupleFetch uninit packet fuel IPPROTO_IP 0 packet.length = some (some (a, b)) ∨
      tupleFetch uninit packet fuel IPPROTO_IP 0 packet.length = some (some (b, a))) ∧
    ∀ off length, Reached packet ⟨IPPROTO_IP, off, length⟩ → 5 ≤ iphIhl packet off

/-- Such a packet that quotes something has a twin. -/
theorem exists_built_twins {a : Chain} (ha : BuiltWhole a) (hquoted : quotedChain a ≠ []) :
    ∃ c, Built c ∧ Twins a c := by
  obtain ⟨uninit, packet, fuel, b, hfetch, hihl⟩ := ha
  have hset : ∀ j v, (packet.set j v).length = packet.length := fun _ _ => List.length_set
  rcases hfetch with hfetch | hfetch
  · obtain ⟨j, -, -, htwin⟩ := exists_twins hihl .refl hfetch hquoted
    obtain ⟨fuel', a', b', hfetch', ha', -⟩ := htwin (get8 packet j + 1) (by simp)
    rw [← hset j (get8 packet j + 1)] at hfetch'
    exact ⟨a', ⟨_, _, _, _, Or.inl hfetch'⟩, ha'⟩
  · have hquoted' := mt (quotedChain_eq_nil_iff hfetch).mp hquoted
    obtain ⟨j, -, -, htwin⟩ := exists_twins hihl .refl hfetch hquoted'
    obtain ⟨fuel', b', a', hfetch', -, ha'⟩ := htwin (get8 packet j + 1) (by simp)
    rw [← hset j (get8 packet j + 1)] at hfetch'
    exact ⟨a', ⟨_, _, _, _, Or.inr hfetch'⟩, ha'⟩

/-- **Hash and comparison.**  `sw_nat_tuple_cmp` is an equivalence, and the plain hash agrees with
the plain comparison.  The NAT hash agrees with the NAT comparison for a chain that quotes nothing,
and for a chain of a packet whose IP headers are whole only then; two chains that compare equal are
hashed the same exactly if the plain hashes of what they quote are the same. -/
theorem natTupleHash_agrees_iff (a : Chain) :
    (Equivalence fun x y : Chain => natTupleCmp x y = 0) ∧
    (∀ b, tupleCmp a b = 0 → tupleHash a = tupleHash b ∧ tupleHashSimpl a = tupleHashSimpl b) ∧
    (quotedChain a = [] → HashAgrees a) ∧
    (BuiltWhole a → (HashAgrees a ↔ quotedChain a = [])) ∧
    ∀ b, natTupleCmp a b = 0 → (natTupleHash a = natTupleHash b ↔
      tupleHash (quotedChain a) = tupleHash (quotedChain b)) := by
  have hsufficient : quotedChain a = [] → HashAgrees a :=
    fun hquoted _ _ hcmp => natTupleHash_eq_of_cmp hquoted hcmp
  refine ⟨⟨natTupleCmp_self, natTupleCmp_symm, natTupleCmp_trans⟩,
    fun _ h => ⟨tupleHash_eq_of_cmp h, tupleHashSimpl_eq_of_cmp h⟩, hsufficient,
    fun hbuilt => ⟨fun hagrees => ?_, hsufficient⟩, fun _ => natTupleHash_eq_iff⟩
  by_contra hquoted
  obtain ⟨c, hc, htwins⟩ := exists_built_twins hbuilt hquoted
  exact htwins.natTupleHash_ne (hagrees c hc htwins.1)

/-- A port unreachable message, given the second octet of the id of the packet it quotes. -/
def portUnreachable (id : UInt8) : List UInt8 :=
  [0x45, 0, 0, 0x38, 0, 9, 0, 0, 0x3c, 1, 0x92, 0x82, 0xc0, 0, 2, 1, 0xc6, 0x33, 0x64, 5,
    3, 3, 0xe9, 0x50, 0, 0, 0, 0, 0x45, 0, 0, 0x1c, 0, id, 0, 0, 0x40, 0x11, 0x8e, 0x90,
    0xc6, 0x33, 0x64, 5, 0xc0, 0, 2, 1, 0x12, 0x34, 0, 0x35, 0, 8, 1, 0x3b]

/-- The chains of the message, if the fresh memory holds the id `left`. -/
def portUnreachableChains (id left : UInt16) : Chain × Chain :=
  ([.ip ⟨0xc0000201, 9, 0⟩, .icmp ⟨3, left, 0⟩, .ip ⟨0xc6336405, id, 0⟩, .udp ⟨0x1234⟩],
    [.ip ⟨0xc6336405, 9, 0⟩, .icmp ⟨3, left, 0⟩, .ip ⟨0xc0000201, id, 0⟩, .udp ⟨53⟩])

/-- The hash does not always agree: two answers to two packets of one flow. -/
theorem natTupleHash_portUnreachable :
    ¬ ∀ a b : Chain, Built a → Built b → natTupleCmp a b = 0 →
      natTupleHash a = natTupleHash b := by
  intro h
  have h7 : tupleFetch (fun _ => (⟨0, 0, 0⟩, ⟨0, 0, 0⟩)) (portUnreachable 7) 4 IPPROTO_IP 0
      (portUnreachable 7).length = some (some (portUnreachableChains 7 0)) := by
    decide +kernel
  have h8 : tupleFetch (fun _ => (⟨0, 0, 0⟩, ⟨0, 0, 0⟩)) (portUnreachable 8) 4 IPPROTO_IP 0
      (portUnreachable 8).length = some (some (portUnreachableChains 8 0)) := by
    decide +kernel
  have heq := h _ _ ⟨_, _, _, _, Or.inl h7⟩ ⟨_, _, _, _, Or.inl h8⟩ (by decide)
  exact absurd heq (by decide +kernel)

end Sweetspot
