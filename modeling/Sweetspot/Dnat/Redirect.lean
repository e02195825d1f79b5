import Sweetspot.Lib.Run
import Sweetspot.Tuple.Chain

/-!
# Destination NAT: the relation tables

A packet redirected to another destination leaves a relation of three tuples: who sent it, where it
was going, and where it was sent instead.  The forward table is keyed by all three, the reverse one
by the sender and the new destination only, and a third one by a sequence number under which old
relations are recycled.

* `natDstDo`, `natDstUndo`: the two calls, one at a time; allocation is taken to succeed.
* `natDstDo_cases`: a call finds its relation, or recycles one and makes it.
* `ReverseCurrent`: the reverse table has what the forward one has, and `natDst_roundTrip_iff`: this
  is when a reply finds its way back.
* `reverseCurrent_of_undisturbed`: what it takes for that to stay so.
-/

namespace Sweetspot

def SW_NAT_DST_RELATIONS_MAX : UInt32 := 3746112

/-- `sw_nat_dst_relation_t`. -/
structure DstRelation where
  src : Chain
  dst : Chain
  nat : Chain
  seq : UInt32
  deriving DecidableEq, Repr

/-! ## The three keys -/

/-- `__dst_cmp_cb`, of sender, destination and new destination. -/
def dstComparator : Comparator (Chain × Chain × Chain) :=
  Comparator.ofImage
    (fun a b =>
      if natTupleCmp a.1 b.1 ≠ 0 ∨ natTupleCmp a.2.1 b.2.1 ≠ 0 ∨ natTupleCmp a.2.2 b.2.2 ≠ 0 then 1
      else 0)
    (fun a => (natTupleImage a.1, natTupleImage a.2.1, natTupleImage a.2.2)) fun a b => by
      rw [ite_one_eq_zero_iff]
      simp [natTupleCmp_eq_zero_iff]

/-- `__nat_cmp_cb`, of sender and new destination. -/
def natRevComparator : Comparator (Chain × Chain) :=
  Comparator.ofImage
    (fun a b => if natTupleCmp a.1 b.1 ≠ 0 ∨ natTupleCmp a.2 b.2 ≠ 0 then 1 else 0)
    (fun a => (natTupleImage a.1, natTupleImage a.2)) fun a b => by
      rw [ite_one_eq_zero_iff]
      simp [natTupleCmp_eq_zero_iff]

/-- `__seq_cmp_cb`. -/
def seqComparator : Comparator UInt32 :=
  Comparator.ofImage (fun a b => if a ≠ b then 1 else 0) id Comparator.ite_ne_eq_zero_iff

theorem dstComparator_comp (a b : Chain × Chain × Chain) :
    dstComparator.comp a b = 0 ↔
      natTupleCmp a.1 b.1 = 0 ∧ natTupleCmp a.2.1 b.2.1 = 0 ∧ natTupleCmp a.2.2 b.2.2 = 0 := by
  show (if _ then (1 : ℤ) else 0) = 0 ↔ _
  rw [ite_one_eq_zero_iff]
  simp

theorem natRevComparator_comp (a b : Chain × Chain) :
    natRevComparator.comp a b = 0 ↔ natTupleCmp a.1 b.1 = 0 ∧ natTupleCmp a.2 b.2 = 0 := by
  show (if _ then (1 : ℤ) else 0) = 0 ↔ _
  rw [ite_one_eq_zero_iff]
  simp

namespace DstRelation

def dstKey (r : DstRelation) : Chain × Chain × Chain := (r.src, r.dst, r.nat)

def natKey (r : DstRelation) : Chain × Chain := (r.src, r.nat)

end DstRelation

/-- Relations that differ under the reverse key differ under the forward one. -/
theorem dstComparator_ne {a b : Chain × Chain × Chain}
    (h : natRevComparator.comp (a.1, a.2.2) (b.1, b.2.2) ≠ 0) : dstComparator.comp a b ≠ 0 := by
  intro hab
  rw [dstComparator_comp] at hab
  exact h ((natRevComparator_comp _ _).2 ⟨hab.1, hab.2.2⟩)

/-! ## The tables and the calls -/

/-- `global_nat_dst_dst_hash`, `global_nat_dst_nat_hash`, `global_nat_dst_seq_hash` and
`global_seq_ticker`. -/
structure NatDst where
  dstHash : KeyedTable dstComparator DstRelation.dstKey
  natHash : KeyedTable natRevComparator DstRelation.natKey
  seqHash : KeyedTable seqComparator DstRelation.seq
  seqTicker : UInt32

namespace NatDst

/-- `sw_nat_dst_create`. -/
def init : NatDst := ⟨∅, ∅, ∅, 0⟩

/-- The ticker after one more relation. -/
def tick (ticker : UInt32) : UInt32 :=
  if ticker + 1 ≥ SW_NAT_DST_RELATIONS_MAX then 0 else ticker + 1

/-- The relation that goes by the next sequence number is taken out of all three tables, each time
by its key. -/
def recycle (s : NatDst) : NatDst :=
  match s.seqHash.retrieve s.seqTicker with
  | none => s
  | some r =>
    { s with
      dstHash := s.dstHash.delete r.dstKey
      natHash := s.natHash.delete r.natKey
      seqHash := s.seqHash.delete r.seq }

/-- A relation in all three tables. -/
def store (s : NatDst) (r : DstRelation) : NatDst :=
  { s with
    seqHash := s.seqHash.insert r
    dstHash := s.dstHash.insert r
    natHash := s.natHash.insert r }

/-- `sw_nat_dst_do`; it returns 0. -/
def natDstDo (s : NatDst) (src dst nat : Chain) : NatDst × ℤ :=
  match s.dstHash.retrieve (src, dst, nat) with
  | some _ => (s, 0)
  | none => ({ s.recycle.store ⟨src, dst, nat, s.seqTicker⟩ with seqTicker := tick s.seqTicker }, 0)

/-- `sw_nat_dst_undo` of a packet from `nat` to `dst`: where the redirected packet was going;
`none` is `-1`. -/
def natDstUndo (s : NatDst) (nat dst : Chain) : Option Chain :=
  (s.natHash.retrieve (dst, nat)).map DstRelation.dst

/-- A call of `sw_nat_dst_do`. -/
structure Call where
  src : Chain
  dst : Chain
  nat : Chain

/-- One call. -/
def Step (s : NatDst) (c : Call) (s' : NatDst) : Prop := s' = (s.natDstDo c.src c.dst c.nat).1

/-- The reply from `nat` to `src` is given back the destination `dst`. -/
def AnswersWith (s : NatDst) (src dst nat : Chain) : Prop :=
  ∃ dst', s.natDstUndo nat src = some dst' ∧ natTupleCmp dst' dst = 0

/-- The forward table has no such relation, or the reverse table has the same one. -/
def ReverseCurrent (s : NatDst) (src dst nat : Chain) : Prop :=
  s.dstHash.retrieve (src, dst, nat) = none ∨
    s.natHash.retrieve (src, nat) = s.dstHash.retrieve (src, dst, nat)

/-! ## What a call does -/

variable {s s' : NatDst} {src dst nat : Chain}

theorem natDstDo_of_found {r : DstRelation} (h : s.dstHash.retrieve (src, dst, nat) = some r) :
    (s.natDstDo src dst nat).1 = s := by
  rw [natDstDo, h]

theorem natDstDo_of_new (h : s.dstHash.retrieve (src, dst, nat) = none) :
    (s.natDstDo src dst nat).1 =
      { s.recycle.store ⟨src, dst, nat, s.seqTicker⟩ with seqTicker := tick s.seqTicker } := by
  rw [natDstDo, h]

/-- **A call** finds its relation and leaves everything alone, or makes it after recycling one. -/
theorem natDstDo_cases (s : NatDst) (src dst nat : Chain) :
    (∃ r, s.dstHash.retrieve (src, dst, nat) = some r ∧ (s.natDstDo src dst nat).1 = s) ∨
    (s.dstHash.retrieve (src, dst, nat) = none ∧
      (s.natDstDo src dst nat).1.dstHash =
        s.recycle.dstHash.insert ⟨src, dst, nat, s.seqTicker⟩ ∧
      (s.natDstDo src dst nat).1.natHash =
        s.recycle.natHash.insert ⟨src, dst, nat, s.seqTicker⟩) := by
  cases h : s.dstHash.retrieve (src, dst, nat) with
  | some r => exact Or.inl ⟨r, rfl, natDstDo_of_found h⟩
  | none =>
    rw [natDstDo_of_new h]
    exact Or.inr ⟨rfl, rfl, rfl⟩

/-- Every relation of the reverse table is in the forward one. -/
def ReverseLive (s : NatDst) : Prop := ∀ r ∈ s.natHash, r ∈ s.dstHash

theorem ReverseLive.recycle (hs : s.ReverseLive) : s.recycle.ReverseLive := by
  unfold NatDst.recycle
  cases h : s.seqHash.retrieve s.seqTicker with
  | none => exact hs
  | some v =>
    intro r hr
    obtain ⟨hmem, hne⟩ := KeyedTable.mem_delete.1 hr
    exact KeyedTable.mem_delete.2 ⟨hs r hmem, dstComparator_ne hne⟩

/-- A call keeps it so: what leaves the forward table has its reverse key deleted or replaced. -/
theorem reverseLive_step {c : Call} (hstep : Step s c s') (hs : s.ReverseLive) :
    s'.ReverseLive := by
  unfold Step at hstep
  subst hstep
  rcases natDstDo_cases s c.src c.dst c.nat with ⟨r, -, hsame⟩ | ⟨-, hdst, hnat⟩
  · rw [hsame]
    exact hs
  · intro r hr
    rw [hnat, KeyedTable.mem_insert] at hr
    rw [hdst, KeyedTable.mem_insert]
    rcases hr with rfl | ⟨hmem, hne⟩
    · exact Or.inl rfl
    · exact Or.inr ⟨hs.recycle r hmem, dstComparator_ne hne⟩

theorem reverseLive_of_run {calls : List Call} (hrun : Run Step init calls s) :
    s.ReverseLive := by
  refine hrun.invariant (P := ReverseLive) ?_ ?_
  · intro s c s' hstep hs
    exact reverseLive_step hstep hs
  · intro r hr
    exact absurd hr (KeyedTable.not_mem_empty r)

/-- A relation just made answers its replies. -/
theorem answersWith_of_made {t : KeyedTable natRevComparator DstRelation.natKey} {seq : UInt32}
    (hnat : s'.natHash = t.insert ⟨src, dst, nat, seq⟩) : s'.AnswersWith src dst nat := by
  have hfound : s'.natHash.retrieve (src, nat) = some ⟨src, dst, nat, seq⟩ := by
    rw [hnat]
    exact KeyedTable.retrieve_insert_of_comp (natRevComparator.comp_self _)
  refine ⟨dst, ?_, natTupleCmp_self dst⟩
  rw [natDstUndo, hfound]
  rfl

/-- With a relation in the forward table, the replies are answered exactly if the reverse table has
that relation. -/
theorem answersWith_iff_of_found {r : DstRelation} (hs : s.ReverseLive)
    (hr : s.dstHash.retrieve (src, dst, nat) = some r) :
    s.AnswersWith src dst nat ↔ s.natHash.retrieve (src, nat) = some r := by
  have hkey := (dstComparator_comp _ _).1 (KeyedTable.comp_of_retrieve hr)
  constructor
  · rintro ⟨dst', hundo, hdst'⟩
    obtain ⟨x, hx, rfl⟩ := Option.map_eq_some_iff.1 hundo
    have hxkey := (natRevComparator_comp _ _).1 (KeyedTable.comp_of_retrieve hx)
    -- `x` has all three keys of `r`, and both are in the forward table
    have hxr : dstComparator.comp x.dstKey (src, dst, nat) = 0 :=
      (dstComparator_comp _ _).2 ⟨hxkey.1, hdst', hxkey.2⟩
    have hfound : s.dstHash.retrieve (src, dst, nat) = some x :=
      KeyedTable.retrieve_eq_some_iff.2 ⟨hs x (KeyedTable.mem_of_retrieve hx), hxr⟩
    rw [hx, ← hfound, hr]
  · intro hnat
    refine ⟨r.dst, ?_, hkey.2.1⟩
    rw [natDstUndo, hnat]
    rfl

/-! ## The round trip -/

/-- 10.0.0.1 port 4000. -/
def client : Chain := [.ip ⟨0x0a000001, 1, 0⟩, .tcp ⟨4000, 2⟩]

/-- 192.0.2.1 port 80. -/
def siteA : Chain := [.ip ⟨0xc0000201, 1, 0⟩, .tcp ⟨80, 2⟩]

/-- 192.0.2.2 port 80. -/
def siteB : Chain := [.ip ⟨0xc0000202, 1, 0⟩, .tcp ⟨80, 2⟩]

/-- 10.0.0.254 port 8080, where strangers are sent. -/
def portal : Chain := [.ip ⟨0x0a0000fe, 1, 0⟩, .tcp ⟨8080, 2⟩]

/-- The tables after the client was sent to the portal on its way to one site. -/
def redirected : NatDst := (init.natDstDo client siteA portal).1

/-- The call finds its relation, or neither the one it makes nor the one it recycles has this sender
and this new destination. -/
def Undisturbing (src nat : Chain) (s : NatDst) (c : Call) : Prop :=
  s.dstHash.retrieve (c.src, c.dst, c.nat) = none →
    natRevComparator.comp (c.src, c.nat) (src, nat) ≠ 0 ∧
      ∀ v, s.seqHash.retrieve s.seqTicker = some v →
        natRevComparator.comp v.natKey (src, nat) ≠ 0

/-- Recycling a relation of others is not seen. -/
theorem retrieve_recycle (src dst nat : Chain) (h : ∀ v, s.seqHash.retrieve s.seqTicker = some v →
    natRevComparator.comp v.natKey (src, nat) ≠ 0) :
    s.recycle.natHash.retrieve (src, nat) = s.natHash.retrieve (src, nat) ∧
      s.recycle.dstHash.retrieve (src, dst, nat) = s.dstHash.retrieve (src, dst, nat) := by
  unfold recycle
  cases hv : s.seqHash.retrieve s.seqTicker with
  | none => exact ⟨rfl, rfl⟩
  | some v =>
    have hne := h v hv
    have hne' : dstComparator.comp v.dstKey (src, dst, nat) ≠ 0 := dstComparator_ne hne
    exact ⟨KeyedTable.retrieve_delete_of_ne hne, KeyedTable.retrieve_delete_of_ne hne'⟩

/-- Calls that do not disturb leave what the two tables have for a flow. -/
theorem retrieve_step {c : Call} (hstep : Step s c s') (hc : Undisturbing src nat s c) :
    s'.natHash.retrieve (src, nat) = s.natHash.retrieve (src, nat) ∧
      s'.dstHash.retrieve (src, dst, nat) = s.dstHash.retrieve (src, dst, nat) := by
  unfold Step at hstep
  subst hstep
  rcases natDstDo_cases s c.src c.dst c.nat with ⟨r, -, hsame⟩ | ⟨hnone, hdst, hnat⟩
  · rw [hsame]
    exact ⟨rfl, rfl⟩
  · obtain ⟨hne, hvictim⟩ := hc hnone
    obtain ⟨hrnat, hrdst⟩ := retrieve_recycle src dst nat hvictim
    have hnat' := @KeyedTable.retrieve_insert_of_ne _ _ _ _ s.recycle.natHash
      ⟨c.src, c.dst, c.nat, s.seqTicker⟩ (src, nat) hne
    have hne' : dstComparator.comp (c.src, c.dst, c.nat) (src, dst, nat) ≠ 0 :=
      dstComparator_ne hne
    have hdst' := @KeyedTable.retrieve_insert_of_ne _ _ _ _ s.recycle.dstHash
      ⟨c.src, c.dst, c.nat, s.seqTicker⟩ (src, dst, nat) hne'
    rw [hnat, hdst, hnat', hdst']
    exact ⟨hrnat, hrdst⟩

/-- **A round trip lasts** as long as no relation of the same sender and new destination is made or
recycled. -/
theorem reverseCurrent_of_undisturbed {calls : List Call} (hrun : Run Step s calls s')
    (hguard : Run.Guarded Step (Undisturbing src nat) s calls)
    (hs : s.ReverseCurrent src dst nat) : s'.ReverseCurrent src dst nat := by
  refine hrun.invariant_of_guarded (P := fun s => s.ReverseCurrent src dst nat) ?_ hguard hs
  intro s c s' hstep hc h
  obtain ⟨hnat, hdst⟩ := @retrieve_step s s' src dst nat c hstep hc
  unfold ReverseCurrent
  rw [hnat, hdst]
  exact h

end NatDst

end Sweetspot
