import Sweetspot.Hash.Table
import Sweetspot.Lib.LockedCells

/-!
# The table under the locks of its buckets

A call takes the lock of its bucket before it walks the chain, node by node, and the caller lets the
lock go when it has done with the record.  While it holds the lock it may make further calls for
keys of the bucket, without taking it again.  The counters of the table are changed without a lock;
they are left out.

* `lhMicro`, `lhCode`: a call, node by node.
* `lhEnds`: a call that nobody disturbs does what `LhCall.effect` says.
* `lhash_serial`: whatever the interleaving, the calls come out as if each had been made at once.
-/

namespace Sweetspot

section

variable {κ ρ : Type*}

/-- One node of the walk of a call.  It has passed `l.2` nodes; the chain stays as it is while the
lock is held, so that is where `*ret` points. -/
def lhMicro (C : Comparator κ) (key : ρ → κ) (hash : κ → UInt64) (l : LhCall κ ρ × ℕ)
    (chain : List (LhashNode ρ)) : LhCall κ ρ × ℕ ⊕ List (LhashNode ρ) × Option ρ :=
  let call := l.1
  let h := hash (call.target key)
  match chain.drop l.2 with
  | [] => .inr (call.effect h ⟨chain.take l.2, [], 0, 0⟩)
  | n1 :: next =>
    if n1.hash ≠ h then .inl (call, l.2 + 1)
    else if C.comp (key n1.data) (call.target key) = 0 then
      .inr (call.effect h ⟨chain.take l.2, n1 :: next, 0, 0⟩)
    else .inl (call, l.2 + 1)

/-- The calls of a table made by `lh_new` with `m`. -/
def lhCode (C : Comparator κ) (key : ρ → κ) (hash : κ → UInt64) (m : ℕ) :
    CellCode ℕ (List (LhashNode ρ)) (LhCall κ ρ) (LhCall κ ρ × ℕ) (Option ρ) where
  cell call := (lhNew ρ m).bucket (hash (call.target key))
  enter call := (call, 0)
  micro := lhMicro C key hash

variable {C : Comparator κ} {key : ρ → κ} {hash : κ → UInt64} {m : ℕ}

theorem effect_congr (h : UInt64) {s s' : Slot ρ} (hbefore : s.before = s'.before)
    (hrest : s.rest = s'.rest) (call : LhCall κ ρ) : call.effect h s = call.effect h s' := by
  cases call <;> simp only [LhCall.effect, hbefore, hrest]

theorem lhMicro_nil (call : LhCall κ ρ) (before : List (LhashNode ρ)) :
    lhMicro C key hash (call, before.length) before =
      .inr (call.effect (hash (call.target key)) ⟨before, [], 0, 0⟩) := by
  simp [lhMicro]

theorem lhMicro_cons (call : LhCall κ ρ) (before next : List (LhashNode ρ)) (n1 : LhashNode ρ) :
    lhMicro C key hash (call, before.length) (before ++ n1 :: next) =
      if n1.hash ≠ hash (call.target key) then .inl (call, before.length + 1)
      else if C.comp (key n1.data) (call.target key) = 0 then
        .inr (call.effect (hash (call.target key)) ⟨before, n1 :: next, 0, 0⟩)
      else .inl (call, before.length + 1) := by
  simp [lhMicro]

/-- What a call comes to once it has passed the nodes of `before`. -/
theorem lhEnds_from {call : LhCall κ ρ} {before rest : List (LhashNode ρ)}
    {r : List (LhashNode ρ) × Option ρ}
    (hends : (lhCode C key hash m).Ends (before ++ rest) (call, before.length) r) :
    r = call.effect (hash (call.target key))
      ⟨before ++ (chase C key (hash (call.target key)) (call.target key) rest).before,
        (chase C key (hash (call.target key)) (call.target key) rest).rest, 0, 0⟩ := by
  induction rest generalizing before with
  | nil =>
    rw [List.append_nil] at hends
    cases hends with
    | last h =>
      rw [← Sum.inr.inj ((lhMicro_nil call before).symm.trans h)]
      rw [chase, List.append_nil]
    | more h hr => cases (lhMicro_nil call before).symm.trans h
  | cons n1 next ih =>
    -- one node further, in either of the two ways
    have hnext : ∀ l', (call, before.length + 1) = l' →
        (lhCode C key hash m).Ends (before ++ n1 :: next) l' r →
        r = call.effect (hash (call.target key))
          ⟨before ++ n1 :: (chase C key (hash (call.target key)) (call.target key) next).before,
            (chase C key (hash (call.target key)) (call.target key) next).rest, 0, 0⟩ := by
      rintro l' rfl hr
      rw [← List.length_singleton (a := n1), ← List.length_append, List.append_cons] at hr
      rw [ih hr, List.append_assoc, List.singleton_append]
    rw [chase]
    cases hends with
    | last h =>
      have hmicro := (lhMicro_cons call before next n1).symm.trans h
      split_ifs at hmicro ⊢ with hhash hcomp
      rw [← Sum.inr.inj hmicro, List.append_nil]
    | more h hr =>
      have hmicro := (lhMicro_cons call before next n1).symm.trans h
      split_ifs at hmicro ⊢ with hhash hcomp
      · exact hnext _ (Sum.inl.inj hmicro) hr
      · exact hnext _ (Sum.inl.inj hmicro) hr

/-- **A call that nobody disturbs** does to the chain what the call does to the table. -/
theorem lhEnds {call : LhCall κ ρ} {lh : Lhash ρ} {chain : List (LhashNode ρ)} {ans : Option ρ}
    (hends : (lhCode C key hash m).Ends (lh.b (lh.bucket (hash (call.target key)))) (call, 0)
      (chain, ans)) :
    (call.run C key hash lh).2 = ans ∧
      Rewrites lh (call.run C key hash lh).1 (lh.bucket (hash (call.target key))) chain := by
  obtain ⟨hans, hwrites, -⟩ := @LhCall.run_spec _ _ C key hash lh call
  have heffect : call.effect (hash (call.target key)) (lh.slot C key hash (call.target key)) =
      (chain, ans) := by
    rw [@lhEnds_from _ _ _ _ _ _ _ [] _ _ hends]
    exact effect_congr _ rfl rfl call
  rw [heffect] at hans hwrites
  exact ⟨hans, hwrites⟩

/-! ## Any number of threads -/

/-- A table of the size `lh_new` made it. -/
def SizedAs (m : ℕ) (lh : Lhash ρ) : Prop :=
  lh.numNodes = (lhNew ρ m).numNodes ∧ lh.p = (lhNew ρ m).p ∧ lh.pmax = (lhNew ρ m).pmax

theorem SizedAs.bucket {lh : Lhash ρ} (h : SizedAs m lh) (x : UInt64) :
    lh.bucket x = (lhNew ρ m).bucket x := by
  obtain ⟨-, hp, hpmax⟩ := h
  rw [Lhash.bucket, Lhash.bucket, hp, hpmax]
  simp [lhNew]

theorem SizedAs.rewrites {lh lh' : Lhash ρ} {i : ℕ} {chain : List (LhashNode ρ)}
    (h : SizedAs m lh) (hwrites : Rewrites lh lh' i chain) : SizedAs m lh' :=
  ⟨hwrites.numNodes.trans h.1, hwrites.p.trans h.2.1, hwrites.pmax.trans h.2.2⟩

/-- Calls on the chains alone, one at a time, are calls on a table. -/
theorem run_of_serial {entries : List (LhCall κ ρ × Option ρ)} {b : ℕ → List (LhashNode ρ)}
    (hrun : Run (CellCode.Serial (lhCode C key hash m)) (fun _ => []) entries b) :
    ∃ lh, Run (LhStep C key hash) (lhNew ρ m) entries lh ∧ lh.b = b := by
  have hsized : ∃ lh, Run (LhStep C key hash) (lhNew ρ m) entries lh ∧ lh.b = b ∧
      SizedAs m lh := by
    refine hrun.history (P := fun entries b => ∃ lh,
      Run (LhStep C key hash) (lhNew ρ m) entries lh ∧ lh.b = b ∧ SizedAs m lh)
      ⟨lhNew ρ m, Run.nil _, rfl, rfl, rfl, rfl⟩ ?_
    rintro entries b ⟨call, ans⟩ b' - ⟨lh, hlh, rfl, hsize⟩ ⟨chain, hends, rfl⟩
    have hcell : (lhCode C key hash m).cell call = lh.bucket (hash (call.target key)) :=
      (hsize.bucket _).symm
    simp only [hcell] at hends ⊢
    obtain ⟨hans, hwrites⟩ := lhEnds hends
    exact ⟨(call.run C key hash lh).1, Run.concat_iff.2 ⟨lh, hlh, Prod.ext rfl hans⟩, hwrites.b,
      hsize.rewrites hwrites⟩
  obtain ⟨lh, hlh, hb, -⟩ := hsized
  exact ⟨lh, hlh, hb⟩

/-- **The locks of the buckets are enough.**  However the threads interleave, node by node, no two
are in one bucket, whoever waits for one waits for a thread that can go on, and every call returns
what a keyed table returns if the calls are made one at a time, in the order in which they end.  The
chains hold the records of that table. -/
theorem lhash_serial {τ : Type*} [DecidableEq τ] (hm : m < 2 ^ 31) {D : Comparator κ}
    (hD : ∀ a b, D.comp a b = 0 ↔ hash a = hash b ∧ C.comp a b = 0)
    {labels : List (τ × CellCode.Act (LhCall κ ρ))}
    {s : CellCode.Cells ℕ (List (LhashNode ρ)) (LhCall κ ρ) (LhCall κ ρ × ℕ) (Option ρ) τ}
    (hrun : Run (fun s label s' => CellCode.step (lhCode C key hash m) s label = some s')
      (.init fun _ => []) labels s) :
    (∀ t t' i, (s.pc t).held (lhCode C key hash m) = some i →
      (s.pc t').held (lhCode C key hash m) = some i → t = t') ∧
    (∀ t i, s.owner i = some t →
      ∃ act s', CellCode.step (lhCode C key hash m) s (t, act) = some s') ∧
    ∃ t : KeyedTable D key, Run TableStep ∅ s.log t ∧
      ∀ r, (∃ i, ∃ n ∈ s.cells i, n.data = r) ↔ r ∈ t := by
  obtain ⟨hlocked, hserial⟩ := CellCode.run_serial hrun
  refine ⟨fun t t' i => hlocked.unique, fun t i => hlocked.progress, ?_⟩
  obtain ⟨lh, hlh, hb⟩ := run_of_serial hserial
  obtain ⟨hwf, t, ht, hmem⟩ := lhash_refines hm hD hlh
  refine ⟨t, ht, fun r => ?_⟩
  rw [← hmem, mem_items, ← hb]
  constructor
  · rintro ⟨i, n, hn, hr⟩
    refine ⟨i, ?_, n, hn, hr⟩
    rw [← (hwf.placed i n hn).2.1]
    exact hwf.bucket_lt _
  · rintro ⟨i, -, hi⟩
    exact ⟨i, hi⟩

end

/-- Two threads insert a record for one address; the second to call is the first to get the lock. -/
def entryRace : List (ℕ × CellCode.Act (LhCall UInt32 (UInt32 × ℕ))) :=
  [(0, .call (.insert (10, 1) (some 0))), (1, .call (.insert (10, 2) (some 1))), (1, .acquire),
    (1, .micro), (1, .release), (0, .acquire), (0, .micro), (0, .again (.delete 10)), (0, .micro)]

theorem lhash_serial_entry :
    ∃ s, entryRace.foldlM (CellCode.step (lhCode entryComparator Prod.fst entryHash 2))
        (.init fun _ => []) = some s ∧
      ∃ t : KeyedTable entryComparator Prod.fst, Run TableStep ∅ s.log t ∧
        ∀ r, (∃ i, ∃ n ∈ s.cells i, n.data = r) ↔ r ∈ t := by
  obtain ⟨s, hs⟩ : ∃ s, entryRace.foldlM
      (CellCode.step (lhCode entryComparator Prod.fst entryHash 2)) (.init fun _ => []) = some s :=
    Option.isSome_iff_exists.1 (by decide +kernel)
  refine ⟨s, hs, (lhash_serial (m := 2) (by decide) ?_ (Run.of_foldlM hs)).2.2⟩
  intro a b
  rw [entryComparator_comp, entryHash, entryHash, UInt32.toUInt64_inj, and_self]

end Sweetspot
