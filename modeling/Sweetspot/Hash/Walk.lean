import Sweetspot.Hash.Table

/-!
# Walking the whole table

`lh_doall_arg` walks the buckets from the last to the first and reads the pointer to the next node
before it calls back, so that the callback may delete the record it is given.  Whether that is
enough is a question about the addresses: the walk goes on at the saved one, whatever the callback
did to the chain meanwhile.

* `walkChain`, `lhDoallArg`: the loops, which stop at a fault if they read a node that is gone.
* `expireAll`: what such a walk is for.
* `lhDoallArg_visit`: with a callback that rewrites or deletes the record it is given and leaves the
  others alone, the walk does just that.
* `lhDoallArg_after_run`: and so it does to every table a run leads to.
-/

namespace Sweetspot

/-- A walk that does not end: it reads a node that was freed, or the fuel is too little. -/
inductive WalkFault
  | freed | fuel
  deriving DecidableEq

section

variable {σ κ ρ : Type*}

/-! ## The loops -/

/-- The loop over the chain of bucket `i`, from the node at address `a`.  The chain is read from the
table as the callback left it. -/
def walkChain (table : σ → Lhash ρ) (func : σ → LhashNode ρ → σ) (i : ℕ) :
    ℕ → Option ℕ → σ → Except WalkFault σ
  | _, none, s => .ok s
  | 0, some _, _ => .error .fuel
  | fuel + 1, some a, s =>
    match ((table s).b i).dropWhile fun n => n.addr ≠ a with
    | [] => .error .freed
    | n :: next => walkChain table func i fuel (next.head?.map LhashNode.addr) (func s n)

/-- The loop over the buckets `is`. -/
def walkBuckets (table : σ → Lhash ρ) (func : σ → LhashNode ρ → σ) (fuel : ℕ) :
    List ℕ → σ → Except WalkFault σ
  | [], s => .ok s
  | i :: is, s =>
    match walkChain table func i fuel (((table s).b i).head?.map LhashNode.addr) s with
    | .ok s' => walkBuckets table func fuel is s'
    | .error e => .error e

/-- `lh_doall_arg`. -/
def lhDoallArg (table : σ → Lhash ρ) (func : σ → LhashNode ρ → σ) (fuel : ℕ) (s : σ) :
    Except WalkFault σ :=
  walkBuckets table func fuel (List.range (table s).numNodes.toNat).reverse s

/-! ## What a walk is for -/

/-- The records one after the other: `act` changes the state and says what becomes of the record,
where `none` is its deletion. -/
def expireAll (act : σ → ρ → σ × Option ρ) : σ → List ρ → σ × List ρ
  | s, [] => (s, [])
  | s, r :: rs =>
    let first := act s r
    let rest := expireAll act first.1 rs
    (rest.1, first.2.toList ++ rest.2)

theorem expireAll_append (act : σ → ρ → σ × Option ρ) (s : σ) (xs ys : List ρ) :
    expireAll act s (xs ++ ys) = ((expireAll act (expireAll act s xs).1 ys).1,
      (expireAll act s xs).2 ++ (expireAll act (expireAll act s xs).1 ys).2) := by
  induction xs generalizing s with
  | nil => rfl
  | cons r rs ih => simp [expireAll, ih]

variable (C : Comparator κ) (key : ρ → κ) (hash : κ → UInt64)

/-- A callback that carries `act` out on the table: it writes through the pointer it is given, or
deletes the record by its key. -/
def visit (act : σ → ρ → σ × Option ρ) (s : Lhash ρ × σ) (n : LhashNode ρ) : Lhash ρ × σ :=
  match act s.2 n.data with
  | (s', none) => ((lhDelete C key hash s.1 (key n.data)).1, s')
  | (s', some r) =>
    let i := s.1.bucket n.hash
    (s.1.setChain i ((s.1.b i).map fun m => if m.addr = n.addr then { m with data := r } else m),
      s')

variable {C key hash}

/-! ## One step -/

theorem chase_of_split {h : UInt64} {k : κ} {before next : List (LhashNode ρ)} {n : LhashNode ρ}
    (hbefore : ∀ m ∈ before, ¬ (m.hash = h ∧ C.comp (key m.data) k = 0))
    (hn : n.hash = h ∧ C.comp (key n.data) k = 0) :
    (chase C key h k (before ++ n :: next)).before = before ∧
      (chase C key h k (before ++ n :: next)).rest = n :: next := by
  induction before with
  | nil => simp [chase, hn.1, hn.2]
  | cons m before ih =>
    obtain ⟨hb, hr⟩ := ih fun m' hm' => hbefore m' (List.mem_cons_of_mem _ hm')
    have hm := hbefore m List.mem_cons_self
    rw [List.cons_append, chase]
    split_ifs with hhash hcomp
    · exact ⟨congrArg (m :: ·) hb, hr⟩
    · exact absurd ⟨not_not.1 hhash, hcomp⟩ hm
    · exact ⟨congrArg (m :: ·) hb, hr⟩

/-- The chain of bucket `i` is `before` and then `rest`, every node at an address of its own. -/
structure At (C : Comparator κ) (key : ρ → κ) (hash : κ → UInt64) (lh : Lhash ρ) (i : ℕ)
    (before rest : List (LhashNode ρ)) : Prop where
  wellFormed : lh.WellFormed C key hash
  chain : lh.b i = before ++ rest
  nodup : ((before ++ rest).map LhashNode.addr).Nodup

/-- The node of a record is what its key finds. -/
theorem Lhash.WellFormed.slot_eq {lh : Lhash ρ} (h : lh.WellFormed C key hash) {i : ℕ}
    {before next : List (LhashNode ρ)} {n : LhashNode ρ} (hchain : lh.b i = before ++ n :: next) :
    i = lh.bucket (hash (key n.data)) ∧
      (lh.slot C key hash (key n.data)).before = before ∧
      (lh.slot C key hash (key n.data)).rest = n :: next := by
  have hn : n ∈ lh.b i := hchain ▸ by simp
  obtain ⟨hhash, hbucket, -⟩ := h.placed i n hn
  have hi : i = lh.bucket (hash (key n.data)) := by rw [← hhash, hbucket]
  refine ⟨hi, ?_⟩
  rw [Lhash.slot, ← hi, hchain]
  refine chase_of_split ?_ ⟨hhash, C.comp_self _⟩
  intro m hm hfound
  have hdistinct := h.distinct i
  rw [hchain] at hdistinct
  refine (List.pairwise_append.1 hdistinct).2.2 m hm n List.mem_cons_self ?_
  have hm' : m ∈ lh.b i := hchain ▸ List.mem_append_left _ hm
  rw [C.hashed_eq_zero_iff, ← (h.placed i m hm').1]
  exact hfound

/-- The node at an address. -/
theorem At.dropWhile {lh : Lhash ρ} {i : ℕ} {before next : List (LhashNode ρ)} {n : LhashNode ρ}
    (h : At C key hash lh i before (n :: next)) :
    (lh.b i).dropWhile (fun m => m.addr ≠ n.addr) = n :: next := by
  have hbefore : ∀ m ∈ before, decide (m.addr ≠ n.addr) = true := by
    intro m hm
    have hnodup := h.nodup
    rw [List.map_append, List.nodup_append] at hnodup
    exact decide_eq_true
      (hnodup.2.2 _ (List.mem_map_of_mem hm) _ (List.mem_map_of_mem List.mem_cons_self))
  rw [h.chain, List.dropWhile_append_of_pos hbefore]
  simp

/-- What a callback may do to a record that it keeps. -/
def KeepsKey (key : ρ → κ) (act : σ → ρ → σ × Option ρ) : Prop :=
  ∀ s r s' r', act s r = (s', some r') → key r' = key r

/-- Writing through the pointer changes one node of the chain. -/
theorem map_write {before next : List (LhashNode ρ)} {n : LhashNode ρ} (r : ρ)
    (h : ((before ++ n :: next).map LhashNode.addr).Nodup) :
    ((before ++ n :: next).map fun m => if m.addr = n.addr then { m with data := r } else m) =
      before ++ { n with data := r } :: next := by
  have hother : ∀ ms : List (LhashNode ρ), n.addr ∉ ms.map LhashNode.addr →
      (ms.map fun m => if m.addr = n.addr then { m with data := r } else m) = ms := by
    intro ms hms
    refine (List.map_congr_left fun m hm => ?_).trans (List.map_id ms)
    refine if_neg fun haddr => hms ?_
    rw [← haddr]
    exact List.mem_map_of_mem hm
  rw [List.map_append, List.map_cons, List.nodup_middle, List.nodup_cons, List.mem_append,
    not_or] at h
  rw [List.map_append, List.map_cons, hother before h.1.1, hother next h.1.2, if_pos rfl]

/-- A record may be written over by one of the same key. -/
theorem Lhash.WellFormed.write {lh : Lhash ρ} (h : lh.WellFormed C key hash) {i : ℕ}
    {before next : List (LhashNode ρ)} {n : LhashNode ρ} (hchain : lh.b i = before ++ n :: next)
    {r : ρ} (hr : key r = key n.data) :
    (lh.setChain i (before ++ { n with data := r } :: next)).WellFormed C key hash := by
  obtain ⟨hi, -⟩ := h.slot_eq hchain
  have hplaced := h.placed i
  have hdistinct := h.distinct i
  rw [hchain] at hplaced hdistinct
  have hwrites : Rewrites lh (lh.setChain i (before ++ { n with data := r } :: next))
      (lh.bucket (hash (key n.data))) (before ++ { n with data := r } :: next) := by
    rw [← hi]
    exact ⟨rfl, rfl, rfl, rfl⟩
  refine h.rewrites hwrites ?_ ?_ ?_
  · intro m hm
    rw [← hi]
    rcases List.mem_append.1 hm with hm | hm
    · exact hplaced m (List.mem_append_left _ hm)
    · rcases List.mem_cons.1 hm with rfl | hm
      · obtain ⟨h₁, h₂, h₃⟩ := hplaced n (by simp)
        exact ⟨by rw [hr, h₁], h₂, h₃⟩
      · exact hplaced m (List.mem_append_right _ (List.mem_cons_of_mem _ hm))
  · -- the keys are the same as before
    rw [← List.pairwise_map (f := fun m : LhashNode ρ => key m.data)
      (R := fun x y => (C.hashed hash).comp x y ≠ 0)] at hdistinct ⊢
    simpa [hr] using hdistinct
  · rw [← hi, hchain]
    simp [Lhash.setChain]

/-- **A callback on the node the walk stands at** leaves what is behind it alone. -/
theorem At.visit {act : σ → ρ → σ × Option ρ} (hkey : KeepsKey key act) {lh : Lhash ρ} {i : ℕ}
    {before next : List (LhashNode ρ)} {n : LhashNode ρ}
    (h : At C key hash lh i before (n :: next)) (s : σ) :
    (visit C key hash act (lh, s) n).2 = (act s n.data).1 ∧
      ∃ kept, kept.map LhashNode.data = (act s n.data).2.toList ∧
        Rewrites lh (visit C key hash act (lh, s) n).1 i ((before ++ kept) ++ next) ∧
        At C key hash (visit C key hash act (lh, s) n).1 i (before ++ kept) next := by
  obtain ⟨hi, hbefore, hrest⟩ := h.wellFormed.slot_eq h.chain
  rcases hact : act s n.data with ⟨s', - | r⟩
  · -- deleted by its key
    simp only [Sweetspot.visit, hact]
    obtain ⟨-, hwrites, -⟩ := @LhCall.run_spec _ _ C key hash lh
      (.delete (key n.data))
    have hwf := h.wellFormed.run (.delete (key n.data))
    simp only [LhCall.run, LhCall.target, LhCall.effect, hrest, hbefore, ← hi] at hwrites hwf
    refine ⟨trivial, [], rfl, ?_, ?_⟩ <;> rw [List.append_nil]
    · exact hwrites
    · refine ⟨hwf, by rw [hwrites.b, Function.update_self], ?_⟩
      exact h.nodup.sublist (((List.sublist_cons_self n next).append_left before).map _)
  · have hr : key r = key n.data := hkey s n.data s' r hact
    have hbucket : lh.bucket n.hash = i :=
      (h.wellFormed.placed i n (h.chain ▸ by simp)).2.1
    simp only [Sweetspot.visit, hact, hbucket]
    rw [h.chain, map_write r h.nodup]
    have hwrites : Rewrites lh (lh.setChain i (before ++ { n with data := r } :: next)) i
        ((before ++ [{ n with data := r }]) ++ next) := by
      rw [List.append_assoc]
      exact ⟨rfl, rfl, rfl, rfl⟩
    refine ⟨trivial, [{ n with data := r }], rfl, hwrites, ?_, ?_, ?_⟩
    · exact h.wellFormed.write h.chain hr
    · rw [hwrites.b, Function.update_self]
    · simpa using h.nodup

/-! ## The whole walk -/

/-- The rest of a chain is walked to its end. -/
theorem walkChain_visit {act : σ → ρ → σ × Option ρ} (hkey : KeepsKey key act) {fuel i : ℕ}
    {before rest : List (LhashNode ρ)} {lh : Lhash ρ} (h : At C key hash lh i before rest)
    (hfuel : rest.length ≤ fuel) (s : σ) :
    ∃ lh' chain, walkChain Prod.fst (visit C key hash act) i fuel (rest.head?.map LhashNode.addr)
        (lh, s) = .ok (lh', (expireAll act s (rest.map LhashNode.data)).1) ∧
      chain.map LhashNode.data = before.map LhashNode.data ++
        (expireAll act s (rest.map LhashNode.data)).2 ∧
      Rewrites lh lh' i chain ∧ At C key hash lh' i chain [] := by
  induction rest generalizing before lh s fuel with
  | nil =>
    refine ⟨lh, before, by simp [walkChain, expireAll], by simp [expireAll], ?_, h⟩
    have hchain := h.chain
    rw [List.append_nil] at hchain
    exact hchain ▸ Rewrites.refl lh i
  | cons n next ih =>
    obtain ⟨fuel, rfl⟩ : ∃ f, fuel = f + 1 :=
      ⟨fuel - 1, by rw [List.length_cons] at hfuel; omega⟩
    obtain ⟨hs, kept, hkept, hwrites, hat⟩ := h.visit hkey s
    obtain ⟨lh', chain, hwalk, hdata, hrest, hend⟩ :=
      ih hat (Nat.le_of_succ_le_succ hfuel) (visit C key hash act (lh, s) n).2
    refine ⟨lh', chain, ?_, ?_, ?_, hend⟩
    · rw [List.head?_cons, Option.map_some, walkChain, h.dropWhile, List.map_cons, expireAll, ← hs]
      exact hwalk
    · rw [hdata, List.map_append, hkept, hs, List.map_cons, expireAll, List.append_assoc]
    · exact ⟨by rw [hrest.b, hwrites.b, Function.update_idem],
        hrest.numNodes.trans hwrites.numNodes, hrest.p.trans hwrites.p,
        hrest.pmax.trans hwrites.pmax⟩

/-- A well-formed table whose nodes are all somewhere. -/
structure Lhash.Addressed (C : Comparator κ) (key : ρ → κ) (hash : κ → UInt64) (lh : Lhash ρ) :
    Prop where
  wellFormed : lh.WellFormed C key hash
  nodup : ∀ i, ((lh.b i).map LhashNode.addr).Nodup

theorem Lhash.Addressed.of_rewrites {lh lh' : Lhash ρ} {i : ℕ} {chain : List (LhashNode ρ)}
    (h : lh.Addressed C key hash) (hwrites : Rewrites lh lh' i chain)
    (hwf : lh'.WellFormed C key hash) (hchain : (chain.map LhashNode.addr).Nodup) :
    lh'.Addressed C key hash := by
  refine ⟨hwf, fun j => ?_⟩
  rw [hwrites.b]
  by_cases hj : j = i
  · subst hj
    rwa [Function.update_self]
  · rw [Function.update_of_ne hj]
    exact h.nodup j

theorem walkBuckets_visit {act : σ → ρ → σ × Option ρ} (hkey : KeepsKey key act) {fuel : ℕ}
    {is : List ℕ} (his : is.Nodup) {lh : Lhash ρ} (h : lh.Addressed C key hash)
    (hfuel : ∀ i ∈ is, (lh.b i).length ≤ fuel) (s : σ) :
    ∃ lh', walkBuckets Prod.fst (visit C key hash act) fuel is (lh, s) =
        .ok (lh', (expireAll act s (is.flatMap fun i => (lh.b i).map LhashNode.data)).1) ∧
      (is.flatMap fun i => (lh'.b i).map LhashNode.data) =
        (expireAll act s (is.flatMap fun i => (lh.b i).map LhashNode.data)).2 ∧
      (∀ j ∉ is, lh'.b j = lh.b j) ∧ lh'.numNodes = lh.numNodes ∧ lh'.Addressed C key hash := by
  induction is generalizing lh s with
  | nil => exact ⟨lh, rfl, rfl, fun _ _ => rfl, rfl, h⟩
  | cons i is ih =>
    obtain ⟨hi, his⟩ := List.nodup_cons.1 his
    have hat : At C key hash lh i [] (lh.b i) := ⟨h.wellFormed, rfl, h.nodup i⟩
    obtain ⟨lh₁, chain, hwalk, hdata, hwrites, hend⟩ := walkChain_visit hkey hat
      (hfuel i List.mem_cons_self) s
    have hsame : ∀ j ∈ is, lh₁.b j = lh.b j := by
      intro j hj
      rw [hwrites.b, Function.update_of_ne (ne_of_mem_of_not_mem hj hi)]
    have hchain : lh₁.b i = chain := by rw [hwrites.b, Function.update_self]
    have haddressed : lh₁.Addressed C key hash := by
      refine h.of_rewrites hwrites hend.wellFormed ?_
      simpa using hend.nodup
    have hrest : (is.flatMap fun j => (lh₁.b j).map LhashNode.data) =
        is.flatMap fun j => (lh.b j).map LhashNode.data :=
      List.flatMap_congr fun j hj => by rw [hsame j hj]
    obtain ⟨lh', hwalk', hdata', hothers, hnodes, haddressed'⟩ := ih his haddressed
      (fun j hj => hsame j hj ▸ hfuel j (List.mem_cons_of_mem _ hj))
      (expireAll act s ((lh.b i).map LhashNode.data)).1
    rw [hrest] at hwalk' hdata'
    simp only [List.flatMap_cons, expireAll_append]
    refine ⟨lh', ?_, ?_, ?_, hnodes.trans hwrites.numNodes, haddressed'⟩
    · rw [walkBuckets, hwalk]
      exact hwalk'
    · rw [hdata', hothers i hi, hchain, hdata, List.map_nil, List.nil_append]
    · intro j hj
      rw [List.mem_cons, not_or] at hj
      rw [hothers j hj.2, hwrites.b, Function.update_of_ne hj.1]

/-- **The walk does to every record what the callback does to it**, in one order, and reads no node
that is gone. -/
theorem lhDoallArg_visit {act : σ → ρ → σ × Option ρ} (hkey : KeepsKey key act) {fuel : ℕ}
    {lh : Lhash ρ} (h : lh.Addressed C key hash)
    (hfuel : ∀ i < lh.numNodes.toNat, (lh.b i).length ≤ fuel) (s : σ) :
    ∃ lh', lhDoallArg Prod.fst (visit C key hash act) fuel (lh, s) =
        .ok (lh', (expireAll act s lh.items).1) ∧
      lh'.items = (expireAll act s lh.items).2 ∧ lh'.Addressed C key hash := by
  have hmem : ∀ i ∈ (List.range lh.numNodes.toNat).reverse, (lh.b i).length ≤ fuel := by
    intro i hi
    exact hfuel i (List.mem_range.1 (List.mem_reverse.1 hi))
  obtain ⟨lh', hwalk, hdata, -, hnodes, haddressed⟩ :=
    walkBuckets_visit hkey (List.nodup_reverse.2 List.nodup_range) h hmem s
  refine ⟨lh', hwalk, ?_, haddressed⟩
  rw [Lhash.items, hnodes]
  exact hdata

/-! ## After a run -/

/-- `malloc` returns no address at which there is a node. -/
def FreshCall (lh : Lhash ρ) (label : LhCall κ ρ × Option ρ) : Prop :=
  ∀ data addr, label.1 = .insert data (some addr) → ∀ i, addr ∉ (lh.b i).map LhashNode.addr

theorem addressed_lhNew {m : ℕ} (hm : m < 2 ^ 31) : (lhNew ρ m).Addressed C key hash :=
  ⟨wellFormed_lhNew hm, fun _ => List.nodup_nil⟩

theorem Lhash.Addressed.run {lh : Lhash ρ} (h : lh.Addressed C key hash) {call : LhCall κ ρ}
    {ans : Option ρ} (hfresh : FreshCall lh (call, ans)) :
    (call.run C key hash lh).1.Addressed C key hash := by
  obtain ⟨-, hwrites, -⟩ := @LhCall.run_spec _ _ C key hash lh call
  refine h.of_rewrites hwrites (h.wellFormed.run call) ?_
  have hnodup := h.nodup (lh.bucket (hash (call.target key)))
  have happend := @slot_append _ _ C key hash lh (call.target key)
  rw [← happend] at hnodup
  rcases hrest : (lh.slot C key hash (call.target key)).rest with - | ⟨n, next⟩ <;>
    rw [hrest] at hnodup happend
  · rw [List.append_nil] at hnodup happend
    rcases call with ⟨data, - | addr⟩ | k | k <;>
      simp only [LhCall.target] at hrest hnodup happend ⊢ <;>
      simp only [LhCall.effect, hrest, List.append_nil]
    case nil.insert.some =>
      have haddr := hfresh data addr rfl (lh.bucket (hash (key data)))
      rw [← happend] at haddr
      rw [List.map_append, List.nodup_append]
      refine ⟨hnodup, List.nodup_singleton _, ?_⟩
      intro a ha b hb
      rw [List.map_singleton, List.mem_singleton] at hb
      subst hb
      exact ne_of_mem_of_not_mem ha haddr
    all_goals exact hnodup
  · rcases call with ⟨data, malloc⟩ | k | k <;>
      simp only [LhCall.target] at hrest hnodup ⊢ <;>
      simp only [LhCall.effect, hrest]
    case cons.insert => simpa using hnodup
    case cons.delete =>
      exact hnodup.sublist (((List.sublist_cons_self n next).append_left _).map _)
    case cons.retrieve => exact hnodup

/-- **Every table a run leads to can be walked.**  The walk takes no more steps in a bucket than
there are nodes in it, hands every record to the callback once, and leaves those the callback kept,
in a table that is as good as before. -/
theorem lhDoallArg_after_run {m : ℕ} (hm : m < 2 ^ 31) {labels : List (LhCall κ ρ × Option ρ)}
    {lh : Lhash ρ} (hrun : Run (LhStep C key hash) (lhNew ρ m) labels lh)
    (hmalloc : Run.Guarded (LhStep C key hash) FreshCall (lhNew ρ m) labels)
    {act : σ → ρ → σ × Option ρ} (hkey : KeepsKey key act) {fuel : ℕ}
    (hfuel : ∀ i < lh.numNodes.toNat, (lh.b i).length ≤ fuel) (s : σ) :
    ∃ lh', lhDoallArg Prod.fst (visit C key hash act) fuel (lh, s) =
        .ok (lh', (expireAll act s lh.items).1) ∧
      lh'.items = (expireAll act s lh.items).2 ∧ lh'.Addressed C key hash := by
  refine lhDoallArg_visit hkey ?_ hfuel s
  refine Run.invariant_of_guarded (P := fun lh => lh.Addressed C key hash) ?_ hrun hmalloc
    (addressed_lhNew hm)
  rintro lh ⟨call, ans⟩ lh' hstep hfresh h
  obtain rfl : (call.run C key hash lh).1 = lh' := congrArg Prod.fst hstep
  exact h.run hfresh

/-- A callback that counts the records it sees and deletes those of one kind. -/
def countDeleting (s : ℕ) (r : UInt32 × ℕ) : ℕ × Option (UInt32 × ℕ) :=
  (s + 1, if r.2 = 1 then none else some (r.1, r.2 + 1))

theorem keepsKey_countDeleting : KeepsKey Prod.fst countDeleting := by
  intro s r s' r' h
  rw [countDeleting, Prod.mk.injEq] at h
  split_ifs at h
  · cases h.2
  · rw [← Option.some.inj h.2]

/-- Two records in one of two buckets. -/
def pairCalls : List (LhCall UInt32 (UInt32 × ℕ)) :=
  [.insert (10, 1) (some 0), .insert (12, 5) (some 1), .retrieve 12]

theorem fresh_pairCalls : Run.Guarded (LhStep entryComparator Prod.fst entryHash) FreshCall
    (lhNew (UInt32 × ℕ) 2)
    (runCalls entryComparator Prod.fst entryHash (lhNew (UInt32 × ℕ) 2) pairCalls).2 := by
  refine Run.guarded_cons.2 ⟨?_, fun lh hstep => Run.guarded_cons.2 ⟨?_, fun lh' _ =>
    Run.guarded_cons.2 ⟨?_, fun lh'' _ => Run.guarded_nil _⟩⟩⟩
  · intro data addr _ i
    exact List.not_mem_nil
  · -- the only node is that of the first call
    obtain rfl : _ = lh := congrArg Prod.fst hstep
    obtain ⟨-, hwrites, -⟩ := @LhCall.run_spec _ _ entryComparator Prod.fst entryHash
      (lhNew (UInt32 × ℕ) 2) (.insert (10, 1) (some 0))
    intro data addr h i
    obtain rfl : 1 = addr := by cases h; rfl
    rw [hwrites.b]
    by_cases hi : i = 0
    · subst hi
      decide +kernel
    · rw [Function.update_of_ne]
      · exact List.not_mem_nil
      · exact hi
  · intro data addr h
    cases h

/-- The walk comes to both records; the first is deleted under it, and the second is kept. -/
theorem lhDoallArg_after_run_entry :
    ∃ lh', lhDoallArg Prod.fst (visit entryComparator Prod.fst entryHash countDeleting) 2
        ((runCalls entryComparator Prod.fst entryHash (lhNew (UInt32 × ℕ) 2) pairCalls).1, 0) =
          .ok (lh', 2) ∧
      lh'.items = [(12, 6)] ∧ lh'.Addressed entryComparator Prod.fst entryHash :=
  lhDoallArg_after_run (m := 2) (by decide) (run_runCalls _ _) fresh_pairCalls
    keepsKey_countDeleting (by decide +kernel) 0

end

end Sweetspot
