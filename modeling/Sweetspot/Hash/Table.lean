import Mathlib.Data.List.Nodup
import Mathlib.Data.List.Range
import Sweetspot.Hash.Lhash
import Sweetspot.Lib.Run
import Sweetspot.Session.Controller

/-!
# What the hash table stands for

Whatever the hash of a table is, the table is a keyed one, for the comparison that looks at the
hashes before it asks the callback.  So it is the table the callback describes if the hash never
separates two keys that the callback says equal, and only then.

* `Lhash.WellFormed`: every node is in the bucket of its hash, no two compare equal, and nobody is
  counted as reading one.
* `Lhash.WellFormed.retrieve_of_nil`, `retrieve_of_cons`: what the slot that `getrn` returns says
  about the whole table.
* `Lhash.WellFormed.run_refines`: one call.
* `lhash_refines`: every run, answer for answer.
* `lhash_accounted`: the statistics tell the truth.
-/

namespace Sweetspot

section

variable {κ ρ : Type*} {C : Comparator κ} {key : ρ → κ} {hash : κ → UInt64}

/-! ## Well-formed tables -/

/-- A node that may stand in the chain of bucket `i`. -/
def LhashNode.InPlace (key : ρ → κ) (hash : κ → UInt64) (lh : Lhash ρ) (i : ℕ)
    (n : LhashNode ρ) : Prop :=
  n.hash = hash (key n.data) ∧ lh.bucket n.hash = i ∧ n.sharedCnt = 0

/-- Every node is in the bucket of its hash, which is the one of its record, no two nodes compare
equal, nobody reads a node, and the items are counted. -/
structure Lhash.WellFormed (C : Comparator κ) (key : ρ → κ) (hash : κ → UInt64) (lh : Lhash ρ) :
    Prop where
  numNodes_pos : 0 < lh.numNodes.toNat
  p_eq : lh.p = 0
  pmax_eq : lh.pmax = lh.numNodes
  placed : ∀ i, ∀ n ∈ lh.b i, n.InPlace key hash lh i
  distinct : ∀ i, (lh.b i).Pairwise fun m n =>
    (C.hashed hash).comp (key m.data) (key n.data) ≠ 0
  numItems_eq : lh.numItems = UInt64.ofNat lh.items.length

theorem mem_items {lh : Lhash ρ} {r : ρ} :
    r ∈ lh.items ↔ ∃ i < lh.numNodes.toNat, ∃ n ∈ lh.b i, n.data = r := by
  simp [Lhash.items]

/-- What `lh_doall_arg` visits before bucket `i` and after it. -/
theorem exists_items_around (lh : Lhash ρ) {i : ℕ} (hi : i < lh.numNodes.toNat) :
    ∃ pre post, ∀ lh' chain, Rewrites lh lh' i chain →
      lh'.items = pre ++ chain.map LhashNode.data ++ post := by
  obtain ⟨xs, ys, hsplit⟩ := List.append_of_mem (List.mem_reverse.2 (List.mem_range.2 hi))
  have hnodup : (xs ++ i :: ys).Nodup := hsplit ▸ List.nodup_reverse.2 List.nodup_range
  obtain ⟨hx, hy⟩ : i ∉ xs ∧ i ∉ ys := by
    rw [List.nodup_append, List.nodup_cons] at hnodup
    exact ⟨fun h => hnodup.2.2 i h i List.mem_cons_self rfl, hnodup.2.1.1⟩
  refine ⟨xs.flatMap fun j => (lh.b j).map LhashNode.data,
    ys.flatMap fun j => (lh.b j).map LhashNode.data, ?_⟩
  intro lh' chain h
  have hsame : ∀ zs : List ℕ, i ∉ zs → (zs.flatMap fun j => (lh'.b j).map LhashNode.data) =
      zs.flatMap fun j => (lh.b j).map LhashNode.data := by
    intro zs hz
    refine List.flatMap_congr fun j hj => ?_
    have hji : j ≠ i := by
      rintro rfl
      exact hz hj
    rw [h.b, Function.update_of_ne hji]
  rw [Lhash.items, h.numNodes, hsplit, List.flatMap_append, List.flatMap_cons, hsame xs hx,
    hsame ys hy, h.b, Function.update_self, List.append_assoc]

namespace Lhash.WellFormed

variable {lh lh' : Lhash ρ}

theorem bucket_eq (h : lh.WellFormed C key hash) (x : UInt64) :
    lh.bucket x = x.toNat % lh.numNodes.toNat := by
  simp [Lhash.bucket, h.p_eq, h.pmax_eq]

theorem bucket_lt (h : lh.WellFormed C key hash) (x : UInt64) :
    lh.bucket x < lh.numNodes.toNat := by
  rw [h.bucket_eq]
  exact Nat.mod_lt _ h.numNodes_pos

/-- Equal keys share a bucket. -/
theorem index_eq (h : lh.WellFormed C key hash) {i : ℕ} {n : LhashNode ρ} (hn : n ∈ lh.b i)
    {k : κ} (hk : (C.hashed hash).comp (key n.data) k = 0) : i = lh.bucket (hash k) := by
  obtain ⟨hhash, hbucket, -⟩ := h.placed i n hn
  rw [← hbucket, hhash, (C.hashed_eq_zero_iff.1 hk).1]

/-- The records, as a table that holds one for each key. -/
def table (h : lh.WellFormed C key hash) : KeyedTable (C.hashed hash) key where
  items := lh.items
  distinct := by
    rw [Lhash.items, List.pairwise_flatMap]
    refine ⟨fun i _ => List.pairwise_map.2 (h.distinct i), ?_⟩
    refine (List.nodup_reverse.2 List.nodup_range).imp ?_
    intro i j hij x hx y hy hcomp
    obtain ⟨m, hm, rfl⟩ := List.mem_map.1 hx
    obtain ⟨n, hn, rfl⟩ := List.mem_map.1 hy
    have hhash := (C.hashed_eq_zero_iff.1 hcomp).1
    obtain ⟨hm₁, hm₂, -⟩ := h.placed i m hm
    obtain ⟨hn₁, hn₂, -⟩ := h.placed j n hn
    exact hij (by rw [← hm₂, ← hn₂, hm₁, hn₁, hhash])

theorem mem_table (h : lh.WellFormed C key hash) {r : ρ} : r ∈ h.table ↔ r ∈ lh.items := Iff.rfl

/-- **An empty slot says that the key is free.** -/
theorem retrieve_of_nil (h : lh.WellFormed C key hash) {k : κ}
    (hrest : (lh.slot C key hash k).rest = []) : h.table.retrieve k = none := by
  rw [KeyedTable.retrieve_eq_none_iff]
  intro r hr hcomp
  obtain ⟨i, -, n, hn, rfl⟩ := mem_items.1 hr
  rw [h.index_eq hn hcomp, ← slot_append, hrest, List.append_nil] at hn
  refine chase_before hn ?_
  obtain ⟨hhash, hc⟩ := C.hashed_eq_zero_iff.1 hcomp
  have hmem : n ∈ lh.b (lh.bucket (hash k)) := by
    rw [← slot_append, hrest, List.append_nil]
    exact hn
  exact ⟨(h.placed _ n hmem).1.trans hhash, hc⟩

/-- **A node behind it is the one that holds the key.** -/
theorem retrieve_of_cons (h : lh.WellFormed C key hash) {k : κ} {n : LhashNode ρ}
    {next : List (LhashNode ρ)} (hrest : (lh.slot C key hash k).rest = n :: next) :
    h.table.retrieve k = some n.data := by
  rw [KeyedTable.retrieve_eq_some_iff, C.hashed_eq_zero_iff]
  have hmem : n ∈ lh.b (lh.bucket (hash k)) := by
    rw [← slot_append, hrest]
    simp
  obtain ⟨hhash, hcomp⟩ := chase_rest hrest
  refine ⟨mem_items.2 ⟨_, h.bucket_lt _, n, hmem, rfl⟩, ?_, hcomp⟩
  rw [← (h.placed _ n hmem).1, hhash]

/-- A chain of nodes in their place may be put in a bucket. -/
theorem rewrites (h : lh.WellFormed C key hash) {k : κ} {chain : List (LhashNode ρ)}
    (hwrites : Rewrites lh lh' (lh.bucket (hash k)) chain)
    (hplaced : ∀ n ∈ chain, n.InPlace key hash lh (lh.bucket (hash k)))
    (hdistinct : chain.Pairwise fun m n => (C.hashed hash).comp (key m.data) (key n.data) ≠ 0)
    (hitems : lh'.numItems + UInt64.ofNat (lh.b (lh.bucket (hash k))).length =
      lh.numItems + UInt64.ofNat chain.length) : lh'.WellFormed C key hash := by
  have hbucket : ∀ x, lh'.bucket x = lh.bucket x := by
    intro x
    simp [Lhash.bucket, hwrites.p, hwrites.pmax, h.p_eq]
  refine ⟨hwrites.numNodes ▸ h.numNodes_pos, hwrites.p.trans h.p_eq,
    (hwrites.pmax.trans h.pmax_eq).trans hwrites.numNodes.symm, ?_, ?_, ?_⟩
  · intro i n hn
    rw [hwrites.b] at hn
    rw [LhashNode.InPlace, hbucket]
    by_cases hi : i = lh.bucket (hash k)
    · subst hi
      rw [Function.update_self] at hn
      exact hplaced n hn
    · rw [Function.update_of_ne hi] at hn
      exact h.placed i n hn
  · intro i
    rw [hwrites.b]
    by_cases hi : i = lh.bucket (hash k)
    · subst hi
      rwa [Function.update_self]
    · rw [Function.update_of_ne hi]
      exact h.distinct i
  · obtain ⟨pre, post, haround⟩ := exists_items_around lh (h.bucket_lt (hash k))
    have hbefore := congrArg List.length (haround lh _ (Rewrites.refl lh _))
    have hafter := congrArg List.length (haround lh' chain hwrites)
    have hcount := h.numItems_eq
    simp only [List.length_append, List.length_map] at hbefore hafter
    rw [hafter, UInt64.ofNat_add, UInt64.ofNat_add]
    rw [hcount, hbefore, UInt64.ofNat_add, UInt64.ofNat_add] at hitems
    grind

theorem items_nodup (h : lh.WellFormed C key hash) : lh.items.Nodup := by
  refine h.table.distinct.imp ?_
  rintro a b hab rfl
  exact hab ((C.hashed hash).comp_self _)

/-- The chain a call leaves may be put in its bucket. -/
theorem effect_placed (h : lh.WellFormed C key hash) (call : LhCall κ ρ) :
    (∀ n ∈ (call.effect (hash (call.target key)) (lh.slot C key hash (call.target key))).1,
      n.InPlace key hash lh (lh.bucket (hash (call.target key)))) ∧
    (call.effect (hash (call.target key)) (lh.slot C key hash (call.target key))).1.Pairwise
      fun m n => (C.hashed hash).comp (key m.data) (key n.data) ≠ 0 := by
  have happend := @slot_append _ _ C key hash lh (call.target key)
  have hplaced := h.placed (lh.bucket (hash (call.target key)))
  have hdistinct := h.distinct (lh.bucket (hash (call.target key)))
  rw [← happend] at hplaced hdistinct
  rcases hrest : (lh.slot C key hash (call.target key)).rest with - | ⟨n, next⟩ <;>
    rw [hrest] at hplaced hdistinct
  · rw [List.append_nil] at hplaced hdistinct
    rcases call with ⟨data, - | addr⟩ | k | k <;>
      simp only [LhCall.target] at hrest hplaced hdistinct ⊢ <;>
      simp only [LhCall.effect, hrest, List.append_nil]
    case nil.insert.some =>
      have hfree := KeyedTable.retrieve_eq_none_iff.1 (h.retrieve_of_nil hrest)
      refine ⟨?_, List.pairwise_append.2 ⟨hdistinct, List.pairwise_singleton _ _, ?_⟩⟩
      · intro m hm
        rcases List.mem_append.1 hm with hm | hm
        · exact hplaced m hm
        · rw [List.mem_singleton.1 hm]
          exact ⟨rfl, rfl, rfl⟩
      · intro m hm n hn
        rw [List.mem_singleton.1 hn]
        refine hfree m.data (mem_items.2 ⟨_, h.bucket_lt (hash (key data)), m, ?_, rfl⟩)
        rwa [← @slot_append _ _ C key, hrest, List.append_nil]
    all_goals exact ⟨hplaced, hdistinct⟩
  · rcases call with ⟨data, malloc⟩ | k | k <;>
      simp only [LhCall.target] at hrest hplaced hdistinct ⊢ <;>
      simp only [LhCall.effect, hrest]
    case cons.insert =>
      obtain ⟨hhash, -⟩ := chase_rest hrest
      have hcomp := KeyedTable.comp_of_retrieve (h.retrieve_of_cons hrest)
      obtain ⟨hbefore, hcons, hacross⟩ := List.pairwise_append.1 hdistinct
      obtain ⟨hn, hnext⟩ := List.pairwise_cons.1 hcons
      refine ⟨?_, List.pairwise_append.2 ⟨hbefore, List.pairwise_cons.2 ⟨?_, hnext⟩, ?_⟩⟩
      · intro m hm
        rcases List.mem_append.1 hm with hm | hm
        · exact hplaced m (List.mem_append_left _ hm)
        · rcases List.mem_cons.1 hm with rfl | hm
          · exact ⟨hhash, by rw [hhash], (hplaced n (by simp)).2.2⟩
          · exact hplaced m (List.mem_append_right _ (List.mem_cons_of_mem _ hm))
      · intro m hm hdata
        exact hn m hm ((C.hashed hash).comp_trans hcomp hdata)
      · intro m hm m' hm' hdata
        rcases List.mem_cons.1 hm' with rfl | hm'
        · exact hacross m hm n List.mem_cons_self
            ((C.hashed hash).comp_trans hdata ((C.hashed hash).comp_symm hcomp))
        · exact hacross m hm m' (List.mem_cons_of_mem _ hm') hdata
    case cons.delete =>
      have hsub := (List.sublist_cons_self n next).append_left (lh.slot C key hash k).before
      exact ⟨fun m hm => hplaced m (hsub.subset hm), hdistinct.sublist hsub⟩
    case cons.retrieve => exact ⟨hplaced, hdistinct⟩

/-- **Every call keeps the table well formed.** -/
theorem run (h : lh.WellFormed C key hash) (call : LhCall κ ρ) :
    (call.run C key hash lh).1.WellFormed C key hash := by
  obtain ⟨-, hwrites, hitems⟩ := @LhCall.run_spec _ _ C key hash lh call
  obtain ⟨hplaced, hdistinct⟩ := h.effect_placed call
  exact h.rewrites hwrites hplaced hdistinct hitems

end Lhash.WellFormed

/-! ## The table that is meant -/

/-- The same call of a keyed table. -/
def LhCall.spec {D : Comparator κ} (t : KeyedTable D key) :
    LhCall κ ρ → KeyedTable D key × Option ρ
  | .insert data malloc =>
    match t.retrieve (key data), malloc with
    | none, none => (t, none)
    | none, some _ => (t.insert data, some data)
    | some r, _ => (t.insert data, some r)
  | .delete k => (t.delete k, t.retrieve k)
  | .retrieve k => (t, t.retrieve k)

/-- A record that stands in a list once. -/
theorem mem_append_iff_of_nodup {xs ys : List ρ} {a r : ρ} (h : (xs ++ a :: ys).Nodup) :
    r ∈ xs ++ ys ↔ r ∈ xs ++ a :: ys ∧ r ≠ a := by
  obtain ⟨ha, -⟩ := List.nodup_cons.1 (List.nodup_middle.1 h)
  by_cases hr : r = a
  · subst hr
    simpa using ha
  · simp [hr]

/-- **One call refines the same call of a keyed table.** -/
theorem Lhash.WellFormed.run_refines {lh : Lhash ρ} (h : lh.WellFormed C key hash)
    (call : LhCall κ ρ) :
    (call.run C key hash lh).2 = (call.spec h.table).2 ∧
      ∀ r, r ∈ (call.run C key hash lh).1.items ↔ r ∈ (call.spec h.table).1 := by
  obtain ⟨hans, hwrites, -⟩ := @LhCall.run_spec _ _ C key hash lh call
  obtain ⟨pre, post, haround⟩ := exists_items_around lh (h.bucket_lt (hash (call.target key)))
  have hold := haround lh _ (Rewrites.refl lh _)
  have hnodup := h.items_nodup
  rw [hans, haround _ _ hwrites]
  rw [← @slot_append _ _ C key] at hold
  clear hans hwrites haround
  rcases hrest : (lh.slot C key hash (call.target key)).rest with - | ⟨n, next⟩
  · have hfree := h.retrieve_of_nil hrest
    rw [hrest, List.append_nil] at hold
    rcases call with ⟨data, - | addr⟩ | k | k <;>
      simp only [LhCall.target] at hrest hold hfree ⊢ <;>
      simp only [LhCall.effect, LhCall.spec, hrest, hfree, List.append_nil, ← hold]
    case nil.insert.none => exact ⟨trivial, fun r => h.mem_table.symm⟩
    case nil.insert.some =>
      refine ⟨trivial, fun r => ?_⟩
      rw [KeyedTable.mem_insert_of_free hfree, h.mem_table, hold]
      simp only [List.map_append, List.map_cons, List.map_nil, List.mem_append, List.mem_singleton]
      tauto
    case nil.delete =>
      refine ⟨trivial, fun r => ?_⟩
      rw [KeyedTable.delete_of_free hfree, h.mem_table]
    case nil.retrieve => exact ⟨rfl, fun r => h.mem_table.symm⟩
  · have hheld := h.retrieve_of_cons hrest
    rw [hrest, List.map_append, List.map_cons, ← List.append_assoc, List.append_assoc,
      List.cons_append] at hold
    have hmem : ∀ r, r ∈ pre ++ (lh.slot C key hash (call.target key)).before.map LhashNode.data ++
        (next.map LhashNode.data ++ post) ↔ r ∈ h.table ∧ r ≠ n.data := by
      intro r
      rw [h.mem_table, hold]
      exact mem_append_iff_of_nodup (hold ▸ hnodup)
    rcases call with ⟨data, malloc⟩ | k | k <;>
      simp only [LhCall.target] at hrest hold hheld hmem ⊢ <;>
      simp only [LhCall.effect, LhCall.spec, hrest, hheld]
    case cons.insert =>
      refine ⟨trivial, fun r => ?_⟩
      rw [KeyedTable.mem_insert_of_held hheld, ← hmem]
      simp only [List.map_append, List.map_cons, List.mem_append, List.mem_cons]
      tauto
    case cons.delete =>
      refine ⟨trivial, fun r => ?_⟩
      rw [KeyedTable.mem_delete_of_held hheld, ← hmem]
      simp only [List.map_append, List.append_assoc]
    case cons.retrieve =>
      refine ⟨rfl, fun r => ?_⟩
      rw [h.mem_table, hold]
      simp only [List.map_append, List.map_cons, List.append_assoc, List.cons_append]

/-! ## Runs -/

/-- Equal tables answer a call the same and stay equal, also if one compares in another way that
says the same keys equal. -/
theorem LhCall.spec_agree {D D' : Comparator κ} (hD : ∀ a b, D.comp a b = 0 ↔ D'.comp a b = 0)
    {t : KeyedTable D key} {u : KeyedTable D' key} (h : KeyedTable.Agree t u)
    (call : LhCall κ ρ) :
    (call.spec t).2 = (call.spec u).2 ∧ KeyedTable.Agree (call.spec t).1 (call.spec u).1 := by
  have hretrieve : ∀ k, t.retrieve k = u.retrieve k := by
    intro k
    apply Option.ext
    intro r
    rw [KeyedTable.retrieve_eq_some_iff, KeyedTable.retrieve_eq_some_iff, h r, hD]
  rcases call with ⟨data, malloc⟩ | k | k
  · have hinsert := h.insert_iff.2 (hretrieve (key data))
    simp only [LhCall.spec, hretrieve]
    cases u.retrieve (key data) <;> cases malloc <;> simp [h, hinsert]
  · refine ⟨hretrieve k, fun r => ?_⟩
    rw [LhCall.spec, LhCall.spec, KeyedTable.mem_delete, KeyedTable.mem_delete, h r, Ne, hD]
  · exact ⟨hretrieve k, h⟩

/-- A step of a table, labelled by the call and what it returns. -/
def LhStep (C : Comparator κ) (key : ρ → κ) (hash : κ → UInt64) (lh : Lhash ρ)
    (label : LhCall κ ρ × Option ρ) (lh' : Lhash ρ) : Prop :=
  label.1.run C key hash lh = (lh', label.2)

/-- The same of a keyed table. -/
def TableStep {D : Comparator κ} (t : KeyedTable D key) (label : LhCall κ ρ × Option ρ)
    (t' : KeyedTable D key) : Prop :=
  label.1.spec t = (t', label.2)

theorem run_runCalls (lh : Lhash ρ) (calls : List (LhCall κ ρ)) :
    Run (LhStep C key hash) lh (runCalls C key hash lh calls).2
      (runCalls C key hash lh calls).1 := by
  induction calls generalizing lh with
  | nil => exact Run.nil lh
  | cons call calls ih => exact Run.cons rfl (ih _)

theorem toNat_numNodes_lhNew {m : ℕ} (hm : m < 2 ^ 31) :
    (lhNew ρ m).numNodes.toNat = if m = 0 then MIN_NODES else m := by
  have hsize : (if m = 0 then MIN_NODES else m) < UInt32.size := by
    rw [MIN_NODES, UInt32.size]
    split_ifs <;> omega
  rw [lhNew, UInt32.toNat_ofNat_of_lt' hsize]

theorem items_lhNew (m : ℕ) : (lhNew ρ m).items = [] := by
  simp [Lhash.items, lhNew]

theorem wellFormed_lhNew {m : ℕ} (hm : m < 2 ^ 31) : (lhNew ρ m).WellFormed C key hash where
  numNodes_pos := by
    rw [toNat_numNodes_lhNew hm, MIN_NODES]
    split_ifs <;> omega
  p_eq := rfl
  pmax_eq := rfl
  placed i n hn := by simp [lhNew] at hn
  distinct i := List.Pairwise.nil
  numItems_eq := by
    rw [items_lhNew]
    rfl

/-- **Every run of a table is a run of the keyed table it stands for**, answer for answer, and leads
to the same records.  Keys are the same in it if their hashes are and the callback says so. -/
theorem lhash_refines {m : ℕ} (hm : m < 2 ^ 31) {D : Comparator κ}
    (hD : ∀ a b, D.comp a b = 0 ↔ hash a = hash b ∧ C.comp a b = 0)
    {labels : List (LhCall κ ρ × Option ρ)} {lh : Lhash ρ}
    (hrun : Run (LhStep C key hash) (lhNew ρ m) labels lh) :
    lh.WellFormed C key hash ∧ ∃ t : KeyedTable D key, Run TableStep ∅ labels t ∧
      ∀ r, r ∈ lh.items ↔ r ∈ t := by
  refine hrun.history (P := fun labels lh => lh.WellFormed C key hash ∧
    ∃ t : KeyedTable D key, Run TableStep ∅ labels t ∧ ∀ r, r ∈ lh.items ↔ r ∈ t)
    ⟨wellFormed_lhNew hm, ∅, Run.nil _, ?_⟩ ?_
  · simp [items_lhNew]
  · rintro labels lh ⟨call, ans⟩ lh' - ⟨h, t, ht, hmem⟩ hstep
    obtain rfl : (call.run C key hash lh).1 = lh' := congrArg Prod.fst hstep
    obtain rfl : (call.run C key hash lh).2 = ans := congrArg Prod.snd hstep
    have hzero : ∀ a b, (C.hashed hash).comp a b = 0 ↔ D.comp a b = 0 := by
      intro a b
      rw [C.hashed_eq_zero_iff, hD]
    obtain ⟨hans, hafter⟩ := h.run_refines call
    obtain ⟨hans', hagree⟩ := call.spec_agree hzero (t := h.table) (u := t) fun r => hmem r
    refine ⟨h.run call, (call.spec t).1, Run.concat_iff.2 ⟨t, ht, ?_⟩, fun r => ?_⟩
    · exact Prod.ext rfl (hans.trans hans').symm
    · exact (hafter r).trans (hagree r)

/-! ## The statistics -/

def LhCall.isInsert : LhCall κ ρ → Bool
  | .insert _ _ => true
  | _ => false

def LhCall.isDelete : LhCall κ ρ → Bool
  | .delete _ => true
  | _ => false

def LhCall.isRetrieve : LhCall κ ρ → Bool
  | .retrieve _ => true
  | _ => false

/-- How many calls of a kind returned a record. -/
def returned (kind : LhCall κ ρ → Bool) (labels : List (LhCall κ ρ × Option ρ)) : UInt64 :=
  UInt64.ofNat (labels.countP fun label => kind label.1 && label.2.isSome)

/-- How many returned none. -/
def refused (kind : LhCall κ ρ → Bool) (labels : List (LhCall κ ρ × Option ρ)) : UInt64 :=
  UInt64.ofNat (labels.countP fun label => kind label.1 && label.2.isNone)

theorem returned_concat (kind : LhCall κ ρ → Bool) (labels : List (LhCall κ ρ × Option ρ))
    (call : LhCall κ ρ) (ans : Option ρ) : returned kind (labels ++ [(call, ans)]) =
      returned kind labels + if kind call && ans.isSome then 1 else 0 := by
  rw [returned, returned, List.countP_append, List.countP_singleton, UInt64.ofNat_add]
  split_ifs <;> rfl

theorem refused_concat (kind : LhCall κ ρ → Bool) (labels : List (LhCall κ ρ × Option ρ))
    (call : LhCall κ ρ) (ans : Option ρ) : refused kind (labels ++ [(call, ans)]) =
      refused kind labels + if kind call && ans.isNone then 1 else 0 := by
  rw [refused, refused, List.countP_append, List.countP_singleton, UInt64.ofNat_add]
  split_ifs <;> rfl

/-- The statistics after the calls of `labels`. -/
structure Accounted (labels : List (LhCall κ ρ × Option ρ)) (lh : Lhash ρ) : Prop where
  hashCalls : lh.stats.numHashCalls = UInt64.ofNat labels.length
  inserted : lh.stats.numInsert + lh.stats.numReplace = returned LhCall.isInsert labels
  deleted : lh.stats.numDelete = returned LhCall.isDelete labels
  noDelete : lh.stats.numNoDelete = refused LhCall.isDelete labels
  retrieved : lh.stats.numRetrieve = returned LhCall.isRetrieve labels
  retrieveMiss : lh.stats.numRetrieveMiss = refused LhCall.isRetrieve labels
  items : lh.stats.numInsert = lh.numItems + lh.stats.numDelete
  crossAccs : lh.stats.numHashNodeCrossAccs = 0

theorem accounted_lhNew (m : ℕ) : Accounted ([] : List (LhCall κ ρ × Option ρ)) (lhNew ρ m) :=
  ⟨rfl, rfl, rfl, rfl, rfl, rfl, rfl, rfl⟩

theorem Accounted.run {labels : List (LhCall κ ρ × Option ρ)} {lh : Lhash ρ}
    (h : Accounted labels lh) (hwf : lh.WellFormed C key hash) (call : LhCall κ ρ) :
    Accounted (labels ++ [(call, (call.run C key hash lh).2)]) (call.run C key hash lh).1 := by
  obtain ⟨hcalls, hinserted, hdeleted, hnoDelete, hretrieved, hmiss, hitems, hcross⟩ := h
  rcases hrest : (lh.slot C key hash (call.target key)).rest with - | ⟨n, next⟩
  · have hchase : (chase C key (hash (call.target key)) (call.target key)
        (lh.b (lh.bucket (hash (call.target key))))).rest = [] := hrest
    rcases call with ⟨data, - | addr⟩ | k | k <;>
      simp only [LhCall.target] at hchase <;>
      constructor <;>
      simp [LhCall.run, lhInsert, lhDelete, lhRetrieve, getrn, Lhash.setChain,
        returned_concat, refused_concat, LhCall.isInsert, LhCall.isDelete, LhCall.isRetrieve,
        UInt64.ofNat_add, *]
    all_goals grind
  · have hchase : (chase C key (hash (call.target key)) (call.target key)
        (lh.b (lh.bucket (hash (call.target key))))).rest = n :: next := hrest
    -- nobody was counted on the node, so `getrn` counts one
    have hshared : n.sharedCnt = 0 := by
      refine (hwf.placed (lh.bucket (hash (call.target key))) n ?_).2.2
      rw [← @slot_append _ _ C key, hrest]
      simp
    rcases call with ⟨data, malloc⟩ | k | k <;>
      simp only [LhCall.target] at hchase <;>
      constructor <;>
      simp [LhCall.run, lhInsert, lhDelete, lhRetrieve, getrn, Lhash.setChain,
        returned_concat, refused_concat, LhCall.isInsert, LhCall.isDelete, LhCall.isRetrieve,
        UInt64.ofNat_add, *]
    all_goals grind

/-- **The statistics tell the truth.**  In every run the table counts the calls that returned a
record and those that did not, holds as many records as it counts items, and never counts two
readers of a node. -/
theorem lhash_accounted {m : ℕ} (hm : m < 2 ^ 31) {labels : List (LhCall κ ρ × Option ρ)}
    {lh : Lhash ρ} (hrun : Run (LhStep C key hash) (lhNew ρ m) labels lh) :
    Accounted labels lh ∧ lh.numItems = UInt64.ofNat lh.items.length := by
  have hboth : Accounted labels lh ∧ lh.WellFormed C key hash := by
    refine hrun.history (P := fun labels lh => Accounted labels lh ∧ lh.WellFormed C key hash)
      ⟨accounted_lhNew m, wellFormed_lhNew hm⟩ ?_
    rintro labels lh ⟨call, ans⟩ lh' - ⟨h, hwf⟩ hstep
    obtain rfl : (call.run C key hash lh).1 = lh' := congrArg Prod.fst hstep
    obtain rfl : (call.run C key hash lh).2 = ans := congrArg Prod.snd hstep
    exact ⟨h.run hwf call, hwf.run call⟩
  exact ⟨hboth.1, hboth.2.numItems_eq⟩

/-! ## A table of the program -/

/-- The `__hash_cb` of the tables whose entries are found by their address. -/
def entryHash (ip : UInt32) : UInt64 := ip.toUInt64

/-- Two addresses that share one of two buckets, one of them stored twice. -/
def entryCalls : List (LhCall UInt32 (UInt32 × ℕ)) :=
  [.insert (10, 1) (some 0), .insert (12, 2) (some 1), .insert (10, 3) none, .insert (11, 4) none,
    .retrieve 12, .delete 10, .retrieve 10]

theorem lhash_refines_entry :
    (runCalls entryComparator Prod.fst entryHash (lhNew (UInt32 × ℕ) 2) entryCalls).2.map Prod.snd =
        [some (10, 1), some (12, 2), some (10, 1), none, some (12, 2), some (10, 3), none] ∧
      ∃ t : KeyedTable entryComparator Prod.fst, Run TableStep ∅
          (runCalls entryComparator Prod.fst entryHash (lhNew (UInt32 × ℕ) 2) entryCalls).2 t ∧
        ∀ r, r ∈ (runCalls entryComparator Prod.fst entryHash (lhNew (UInt32 × ℕ) 2)
          entryCalls).1.items ↔ r ∈ t := by
  refine ⟨by decide +kernel, (lhash_refines (by decide) ?_ (run_runCalls _ _)).2⟩
  intro a b
  rw [entryComparator_comp, entryHash, entryHash, UInt32.toUInt64_inj, and_self]

theorem lhash_accounted_entry :
    (runCalls entryComparator Prod.fst entryHash (lhNew (UInt32 × ℕ) 2) entryCalls).1.numItems =
      UInt64.ofNat (runCalls entryComparator Prod.fst entryHash (lhNew (UInt32 × ℕ) 2)
        entryCalls).1.items.length :=
  (lhash_accounted (by decide) (run_runCalls _ _)).2

end

end Sweetspot
