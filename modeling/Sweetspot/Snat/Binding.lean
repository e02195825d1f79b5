import Sweetspot.Lib.Run
import Sweetspot.Snat.Source

/-!
# Source NAT: what a binding is worth

The calls of `sw_nat_src_do`, `sw_nat_src_undo` and `sw_nat_src_rel_expire`, executed one at a
time under a clock that does not go back, form the runs of `Step`.

* `agree_of_run`: after every call the two tables hold the same relations.
* `Holds`: the public tuple `q` is bound to the private tuple `p` and was refreshed at `t` or
  later.  A call within `ACTIVE_REL_PROTECT_SEC` seconds of `t` keeps it (`holds_of_step`), and
  gives `q` to nobody but `p` (`bound_of_holds`).
* `mem_natSrcRelExpire`: an expiry pass drops exactly the relations not refreshed for
  `RELATION_EXPIRE_INTERVAL` seconds; `lastRefresh_of_run` says that the time stored in a relation
  is the time of the last call that returned it.
-/

namespace Sweetspot

namespace NatSrc

/-- A call with the clock it reads and what it returns. -/
inductive Call
  | natDo (now : ℤ) (prv : Chain) (pub : Option Chain)
  | undo (now : ℤ) (pub : Chain) (prv : Option Chain)
  | expire (now : ℤ)

def Call.time : Call → ℤ
  | natDo now _ _ => now
  | undo now _ _ => now
  | expire now => now

/-- One call executed on its own. -/
inductive Step : NatSrc → Call → NatSrc → Prop
  | natDo {s s' : NatSrc} {now : ℤ} {prv : Chain} {pub : Option Chain}
      (h : s.natSrcDo now prv = (s', pub)) : Step s (.natDo now prv pub) s'
  | undo {s : NatSrc} {now : ℤ} {pub : Chain} {prv : Option Chain}
      (h : s.natSrcUndo pub = prv) : Step s (.undo now pub prv) s
  | expire {s s' : NatSrc} {now : ℤ} {order : List Relation}
      (horder : order.Perm s.pubHash.items) (h : s.natSrcRelExpire now order = s') :
      Step s (.expire now) s'

theorem done_of_natSrcDo {s s' : NatSrc} {now : ℤ} {prv : Chain} {pub : Option Chain}
    (h : s.natSrcDo now prv = (s', pub)) : Done s now prv s' pub := by
  have := natSrcDo_cases s now prv
  rwa [h] at this

/-! ## Expiry -/

/-- Not refreshed for more than `RELATION_EXPIRE_INTERVAL` seconds. -/
def Expired (now : ℤ) (r : Relation) : Prop := now - r.lastDlTime > RELATION_EXPIRE_INTERVAL

theorem natSrcRelExpire_nextRid (s : NatSrc) (now : ℤ) (order : List Relation) :
    (s.natSrcRelExpire now order).nextRid = s.nextRid := by
  induction order generalizing s with
  | nil => rfl
  | cons ri order ih =>
    refine (ih _).trans ?_
    dsimp only [expireCurrentSeq]
    split <;> rfl

theorem mem_natSrcRelExpire_prvHash {s : NatSrc} {now : ℤ} {order : List Relation}
    {x : Relation} : x ∈ (s.natSrcRelExpire now order).prvHash ↔
      x ∈ s.prvHash ∧ ∀ ri ∈ order, Expired now ri → natTupleCmp x.prv ri.prv ≠ 0 := by
  induction order generalizing s with
  | nil => simp [natSrcRelExpire]
  | cons ri order ih =>
    refine ih.trans ?_
    by_cases hexp : now - ri.lastDlTime > RELATION_EXPIRE_INTERVAL
    · simp [expireCurrentSeq, hexp, Expired, and_assoc]
    · simp [expireCurrentSeq, hexp, Expired]

theorem mem_natSrcRelExpire_pubHash {s : NatSrc} {now : ℤ} {order : List Relation}
    {x : Relation} : x ∈ (s.natSrcRelExpire now order).pubHash ↔
      x ∈ s.pubHash ∧ ∀ ri ∈ order, Expired now ri → natTupleCmp x.pub ri.pub ≠ 0 := by
  induction order generalizing s with
  | nil => simp [natSrcRelExpire]
  | cons ri order ih =>
    refine ih.trans ?_
    by_cases hexp : now - ri.lastDlTime > RELATION_EXPIRE_INTERVAL
    · simp [expireCurrentSeq, hexp, Expired, and_assoc]
    · simp [expireCurrentSeq, hexp, Expired]

/-- **A pass drops exactly the expired relations**, in whatever order it meets them. -/
theorem mem_natSrcRelExpire {s : NatSrc} (hs : s.prvHash.Agree s.pubHash) {now : ℤ}
    {order : List Relation} (horder : order.Perm s.pubHash.items) (x : Relation) :
    (x ∈ (s.natSrcRelExpire now order).prvHash ↔ x ∈ s.prvHash ∧ ¬ Expired now x) ∧
    (x ∈ (s.natSrcRelExpire now order).pubHash ↔ x ∈ s.pubHash ∧ ¬ Expired now x) := by
  rw [mem_natSrcRelExpire_prvHash, mem_natSrcRelExpire_pubHash]
  have hmem : ∀ {ri}, ri ∈ order ↔ ri ∈ s.pubHash := horder.mem_iff
  constructor
  · apply and_congr_right
    intro hx
    constructor
    · intro h hexp
      exact h x (hmem.2 ((hs x).1 hx)) hexp (natTupleCmp_self _)
    · intro hexp ri hri hri' hcmp
      have : x = ri := KeyedTable.eq_of_comp_eq_zero hx ((hs ri).2 (hmem.1 hri)) hcmp
      exact hexp (this ▸ hri')
  · apply and_congr_right
    intro hx
    constructor
    · intro h hexp
      exact h x (hmem.2 hx) hexp (natTupleCmp_self _)
    · intro hexp ri hri hri' hcmp
      have : x = ri := KeyedTable.eq_of_comp_eq_zero hx (hmem.1 hri) hcmp
      exact hexp (this ▸ hri')

/-! ## The two tables stay in step -/

theorem agree_of_done {s s' : NatSrc} {now : ℤ} {prv : Chain} {pub : Option Chain}
    (h : Done s now prv s' pub) (hs : s.prvHash.Agree s.pubHash) : s'.prvHash.Agree s'.pubHash := by
  cases h with
  | refreshed hheld hs' =>
    subst hs'
    exact hs.map (Relation.touch_prv _ _) (Relation.touch_pub _ _)
  | failed hprv hpub => rwa [hprv, hpub]
  | inserted hnew hrid hrprv hrnow hfree hprv hpub =>
    subst hrprv
    rw [hprv, hpub]
    exact hs.insert hnew hfree
  | @preempted r old hnew hrid hrprv hrnow hheld hage hprv hpub =>
    have hold : old ∈ s.prvHash := (hs old).2 (KeyedTable.mem_of_retrieve hheld)
    subst hrprv
    rw [hprv, hpub]
    exact (hs.delete hold).insert (KeyedTable.retrieve_delete_of_free hnew)
      (KeyedTable.retrieve_delete_of_held hheld)

theorem agree_of_step {s s' : NatSrc} {c : Call} (h : Step s c s')
    (hs : s.prvHash.Agree s.pubHash) : s'.prvHash.Agree s'.pubHash := by
  cases h with
  | natDo h => exact agree_of_done (done_of_natSrcDo h) hs
  | undo => exact hs
  | expire horder h =>
    subst h
    intro x
    obtain ⟨hprv, hpub⟩ := mem_natSrcRelExpire hs horder x
    rw [hprv, hpub, hs x]

/-- **After every call the two tables hold the same relations.** -/
theorem agree_of_run {e : Endpoints} {calls : List Call} {s : NatSrc}
    (hrun : Run Step (init e) calls s) : s.prvHash.Agree s.pubHash :=
  hrun.invariant (P := fun s => s.prvHash.Agree s.pubHash) (fun _ _ _ => agree_of_step)
    KeyedTable.agree_empty

/-! ## No stealing -/

/-- The public tuple `q` is bound to the private tuple `p`, refreshed at `t` or later. -/
def Holds (s : NatSrc) (p q : Chain) (t : ℤ) : Prop :=
  ∃ r ∈ s.pubHash, natTupleCmp r.prv p = 0 ∧ natTupleCmp r.pub q = 0 ∧ t ≤ r.lastDlTime

theorem undo_of_holds {s : NatSrc} {p q : Chain} {t : ℤ} (h : Holds s p q t) :
    ∃ p', s.natSrcUndo q = some p' ∧ natTupleCmp p' p = 0 := by
  obtain ⟨r, hr, hp, hq, -⟩ := h
  have hfound : s.pubHash.retrieve q = some r := KeyedTable.retrieve_eq_some_iff.2 ⟨hr, hq⟩
  exact ⟨r.prv, by rw [natSrcUndo, hfound, Option.map_some], hp⟩

/-- A successful call leaves its binding behind. -/
theorem holds_of_done {s s' : NatSrc} {now : ℤ} {p q : Chain} (h : Done s now p s' (some q))
    (hs : s.prvHash.Agree s.pubHash) : Holds s' p q now := by
  cases h with
  | @refreshed r hheld hs' =>
    subst hs'
    have hr : r ∈ s.pubHash := (hs r).1 (KeyedTable.mem_of_retrieve hheld)
    refine ⟨r.touch r.rid now, mem_touch_pubHash.2 ⟨r, hr, rfl⟩, ?_, ?_, ?_⟩
    · rw [Relation.touch_prv]
      exact KeyedTable.comp_of_retrieve hheld
    · rw [Relation.touch_pub]
      exact natTupleCmp_self _
    · simp [Relation.touch]
  | inserted hnew hrid hrprv hrnow hfree hprv hpub =>
    subst hrprv
    exact ⟨_, hpub ▸ KeyedTable.mem_insert_self _ _, natTupleCmp_self _, natTupleCmp_self _,
      Int.le_of_eq hrnow.symm⟩
  | preempted hnew hrid hrprv hrnow hheld hage hprv hpub =>
    subst hrprv
    exact ⟨_, hpub ▸ KeyedTable.mem_insert_self _ _, natTupleCmp_self _, natTupleCmp_self _,
      Int.le_of_eq hrnow.symm⟩

/-- **A call within the protected window keeps the binding.** -/
theorem holds_of_step {s s' : NatSrc} {c : Call} (h : Step s c s')
    (hs : s.prvHash.Agree s.pubHash) {p q : Chain} {t : ℤ} (ht : t ≤ c.time)
    (hwindow : c.time - t < ACTIVE_REL_PROTECT_SEC) (hheld : Holds s p q t) : Holds s' p q t := by
  obtain ⟨x, hx, hxp, hxq, hxt⟩ := hheld
  cases h with
  | undo => exact ⟨x, hx, hxp, hxq, hxt⟩
  | @expire _ now _ horder h =>
    subst h
    refine ⟨x, ((mem_natSrcRelExpire hs horder x).2).2 ⟨hx, ?_⟩, hxp, hxq, hxt⟩
    simp only [Call.time, ACTIVE_REL_PROTECT_SEC] at hwindow
    simp only [Expired, RELATION_EXPIRE_INTERVAL]
    omega
  | @natDo _ now prv pub h =>
    cases done_of_natSrcDo h with
    | @refreshed r hheld hs' =>
      subst hs'
      refine ⟨x.touch r.rid now, mem_touch_pubHash.2 ⟨x, hx, rfl⟩, ?_, ?_, ?_⟩
      · rwa [Relation.touch_prv]
      · rwa [Relation.touch_pub]
      · rcases x.touch_lastDlTime r.rid now with hlast | hlast
        · rw [hlast]
          exact ht
        · rw [hlast]
          exact hxt
    | failed hprv hpub => exact ⟨x, hpub ▸ hx, hxp, hxq, hxt⟩
    | inserted hnew hrid hrprv hrnow hfree hprv hpub =>
      refine ⟨x, hpub ▸ (KeyedTable.mem_insert_of_free hfree).2 (Or.inr hx), hxp, hxq, hxt⟩
    | @preempted r old hnew hrid hrprv hrnow hheld hage hprv hpub =>
      -- the holder that was dropped is too old to be ours
      have hne : x ≠ old := by
        rintro rfl
        simp only [Call.time] at hwindow
        omega
      have hx' : x ∈ s.pubHash.delete old.pub :=
        (KeyedTable.mem_delete_of_mem (KeyedTable.mem_of_retrieve hheld)).2 ⟨hx, hne⟩
      refine ⟨x, hpub ▸ (KeyedTable.mem_insert_of_free ?_).2 (Or.inr hx'), hxp, hxq, hxt⟩
      exact KeyedTable.retrieve_delete_of_held hheld

/-- **A call within the protected window gives the public tuple to its owner only.** -/
theorem bound_of_holds {s s' : NatSrc} {now : ℤ} {p' q' : Chain}
    (h : Done s now p' s' (some q')) (hs : s.prvHash.Agree s.pubHash) {p q : Chain} {t : ℤ}
    (hwindow : now - t < ACTIVE_REL_PROTECT_SEC) (hheld : Holds s p q t)
    (hq : natTupleCmp q' q = 0) : natTupleCmp p' p = 0 := by
  obtain ⟨x, hx, hxp, hxq, hxt⟩ := hheld
  have hxq' : ∀ {c}, natTupleCmp c q' = 0 → natTupleCmp c x.pub = 0 := fun hc =>
    natTupleCmp_trans (natTupleCmp_trans hc hq) (natTupleCmp_symm hxq)
  cases h with
  | @refreshed r hheld hs' =>
    have hr : r ∈ s.pubHash := (hs r).1 (KeyedTable.mem_of_retrieve hheld)
    have hrx : r = x := KeyedTable.eq_of_comp_eq_zero hr hx (hxq' (natTupleCmp_self _))
    subst hrx
    exact natTupleCmp_trans (natTupleCmp_symm (KeyedTable.comp_of_retrieve hheld)) hxp
  | inserted hnew hrid hrprv hrnow hfree hprv hpub =>
    have := KeyedTable.retrieve_eq_none_iff.1 hfree x hx
    exact absurd (natTupleCmp_symm (hxq' (natTupleCmp_self _))) this
  | @preempted r old hnew hrid hrprv hrnow hheld hage hprv hpub =>
    have hold : old = x := KeyedTable.eq_of_comp_eq_zero (KeyedTable.mem_of_retrieve hheld) hx
      (hxq' (KeyedTable.comp_of_retrieve hheld))
    subst hold
    omega

/-- **Bindings outlive the window**: however many calls fit into it. -/
theorem holds_of_run {s s' : NatSrc} {calls : List Call} (hrun : Run Step s calls s')
    (hs : s.prvHash.Agree s.pubHash) {p q : Chain} {t : ℤ} (hheld : Holds s p q t)
    (ht : ∀ c ∈ calls, t ≤ c.time) (hwindow : ∀ c ∈ calls, c.time - t < ACTIVE_REL_PROTECT_SEC) :
    Holds s' p q t := by
  induction hrun with
  | nil => exact hheld
  | cons hstep hrun ih =>
    obtain ⟨htc, ht⟩ := List.forall_mem_cons.1 ht
    obtain ⟨hwc, hwindow⟩ := List.forall_mem_cons.1 hwindow
    exact ih (agree_of_step hstep hs) (holds_of_step hstep hs htc hwc hheld) ht hwindow

/-! ## The time in a relation -/

/-- Stored relations have pointers of their own, all handed out already. -/
def WellNumbered (s : NatSrc) : Prop :=
  (∀ r ∈ s.prvHash, r.rid < s.nextRid) ∧ ∀ r ∈ s.prvHash, ∀ x ∈ s.prvHash, r.rid = x.rid → r = x

theorem wellNumbered_insert {s s' : NatSrc} {t : PrvHash} (ht : ∀ x ∈ t, x ∈ s.prvHash)
    (hs : s.WellNumbered) {r : Relation} (hr : r.rid < s'.nextRid) (hnext : s.nextRid ≤ s'.nextRid)
    (hfresh : ∀ x ∈ t, x.rid ≠ r.rid) (hs' : s'.prvHash = t.insert r) : s'.WellNumbered := by
  have hmem : ∀ {x}, x ∈ s'.prvHash → x = r ∨ x ∈ t := fun hx =>
    (KeyedTable.mem_insert.1 (hs' ▸ hx)).imp_right And.left
  constructor
  · intro x hx
    rcases hmem hx with rfl | hx
    · exact hr
    · exact Nat.lt_of_lt_of_le (hs.1 x (ht x hx)) hnext
  · intro x hx y hy hxy
    rcases hmem hx with rfl | hx <;> rcases hmem hy with rfl | hy
    · rfl
    · exact absurd hxy.symm (hfresh y hy)
    · exact absurd hxy (hfresh x hx)
    · exact hs.2 x (ht x hx) y (ht y hy) hxy

theorem wellNumbered_of_step {s s' : NatSrc} {c : Call} (h : Step s c s')
    (hagree : s.prvHash.Agree s.pubHash) (hs : s.WellNumbered) : s'.WellNumbered := by
  cases h with
  | undo => exact hs
  | @expire _ now order horder h =>
    subst h
    have hmem : ∀ {x}, x ∈ (s.natSrcRelExpire now order).prvHash → x ∈ s.prvHash := fun hx =>
      (mem_natSrcRelExpire_prvHash.1 hx).1
    constructor
    · intro r hr
      rw [natSrcRelExpire_nextRid]
      exact hs.1 r (hmem hr)
    · intro r hr x hx
      exact hs.2 r (hmem hr) x (hmem hx)
  | @natDo _ now prv pub h =>
    cases done_of_natSrcDo h with
    | @refreshed r hheld hs' =>
      subst hs'
      constructor
      · intro x hx
        obtain ⟨x₀, hx₀, rfl⟩ := mem_touch_prvHash.1 hx
        rw [Relation.touch_rid]
        exact hs.1 x₀ hx₀
      · intro x hx y hy hxy
        obtain ⟨x₀, hx₀, rfl⟩ := mem_touch_prvHash.1 hx
        obtain ⟨y₀, hy₀, rfl⟩ := mem_touch_prvHash.1 hy
        rw [Relation.touch_rid, Relation.touch_rid] at hxy
        rw [hs.2 x₀ hx₀ y₀ hy₀ hxy]
    | failed hprv hpub hnext => exact ⟨hnext ▸ hprv ▸ hs.1, hprv ▸ hs.2⟩
    | inserted hnew hrid hrprv hrnow hfree hprv hpub hnext =>
      refine wellNumbered_insert (fun x hx => hx) hs ?_ ?_ ?_ hprv
      · omega
      · omega
      · intro x hx
        have := hs.1 x hx
        omega
    | @preempted r old hnew hrid hrprv hrnow hheld hage hprv hpub hnext =>
      have hold : old ∈ s.prvHash := (hagree old).2 (KeyedTable.mem_of_retrieve hheld)
      refine wellNumbered_insert (fun x hx => (KeyedTable.mem_delete.1 hx).1) hs ?_ ?_ ?_
        hprv
      · have := hs.1 old hold
        omega
      · omega
      · intro x hx hxr
        obtain ⟨hx, hne⟩ := (KeyedTable.mem_delete_of_mem hold).1 hx
        exact hne (hs.2 x hx old hold (hxr.trans hrid))

/-- The last call that returned a relation for the private tuple of `r` was made at the time
stored in `r`, and returned its public tuple. -/
def LastRefresh (calls : List Call) (r : Relation) : Prop :=
  ∃ pre post p q, calls = pre ++ .natDo r.lastDlTime p (some q) :: post ∧
    natTupleCmp p r.prv = 0 ∧ natTupleCmp q r.pub = 0 ∧
    ∀ t' p' q', .natDo t' p' (some q') ∈ post → natTupleCmp p' r.prv ≠ 0

theorem lastRefresh_self {calls : List Call} {r : Relation} {p : Chain}
    (hp : natTupleCmp p r.prv = 0) :
    LastRefresh (calls ++ [.natDo r.lastDlTime p (some r.pub)]) r :=
  ⟨calls, [], p, r.pub, rfl, hp, natTupleCmp_self _, fun _ _ _ h => absurd h List.not_mem_nil⟩

theorem LastRefresh.concat {calls : List Call} {r : Relation} {c : Call}
    (h : LastRefresh calls r)
    (hc : ∀ t p q, c = .natDo t p (some q) → natTupleCmp p r.prv ≠ 0) :
    LastRefresh (calls ++ [c]) r := by
  obtain ⟨pre, post, p, q, rfl, hp, hq, hpost⟩ := h
  refine ⟨pre, post ++ [c], p, q, by simp, hp, hq, ?_⟩
  intro t' p' q' hmem
  rcases List.mem_append.1 hmem with hmem | hmem
  · exact hpost t' p' q' hmem
  · exact hc t' p' q' (List.mem_singleton.1 hmem).symm

theorem lastRefresh_of_step {s s' : NatSrc} {calls : List Call} {c : Call} (h : Step s c s')
    (hnum : s.WellNumbered)
    (hs : ∀ r ∈ s.prvHash, LastRefresh calls r) :
    ∀ r ∈ s'.prvHash, LastRefresh (calls ++ [c]) r := by
  intro x hx
  cases h with
  | undo => exact (hs x hx).concat (by simp)
  | expire horder h =>
    subst h
    exact (hs x (mem_natSrcRelExpire_prvHash.1 hx).1).concat (by simp)
  | @natDo _ now prv pub h =>
    -- a relation the call did not return belongs to another private tuple
    have hother : ∀ {x}, x ∈ s.prvHash → natTupleCmp x.prv prv ≠ 0 →
        LastRefresh (calls ++ [.natDo now prv pub]) x := by
      intro x hx hne
      apply (hs x hx).concat
      intro t p q heq
      simp only [Call.natDo.injEq] at heq
      obtain ⟨-, rfl, -⟩ := heq
      intro h
      exact hne (natTupleCmp_symm h)
    cases done_of_natSrcDo h with
    | @refreshed r hheld hs' =>
      subst hs'
      obtain ⟨x, hxmem, rfl⟩ := mem_touch_prvHash.1 hx
      have hr : r ∈ s.prvHash := KeyedTable.mem_of_retrieve hheld
      have hrp : natTupleCmp r.prv prv = 0 := KeyedTable.comp_of_retrieve hheld
      by_cases hrid : x.rid = r.rid
      · obtain rfl := hnum.2 x hxmem r hr hrid
        have hself := @lastRefresh_self calls (x.touch x.rid now) prv
          (by rw [Relation.touch_prv]; exact natTupleCmp_symm hrp)
        simpa [Relation.touch] using hself
      · rw [Relation.touch_of_ne hrid]
        refine hother hxmem fun hxp => hrid ?_
        rw [KeyedTable.eq_of_comp_eq_zero hxmem hr
          (natTupleCmp_trans hxp (natTupleCmp_symm hrp))]
    | failed hprv hpub =>
      exact (hs x (hprv ▸ hx)).concat (by simp)
    | @inserted r hnew hrid hrprv hrnow hfree hprv hpub =>
      rcases KeyedTable.mem_insert.1 (hprv ▸ hx) with rfl | ⟨hx, -⟩
      · subst hrprv hrnow
        exact lastRefresh_self (natTupleCmp_self _)
      · exact hother hx (KeyedTable.retrieve_eq_none_iff.1 hnew x hx)
    | @preempted r old hnew hrid hrprv hrnow hheld hage hprv hpub =>
      rcases KeyedTable.mem_insert.1 (hprv ▸ hx) with rfl | ⟨hx, -⟩
      · subst hrprv hrnow
        exact lastRefresh_self (natTupleCmp_self _)
      · have hx := (KeyedTable.mem_delete.1 hx).1
        exact hother hx (KeyedTable.retrieve_eq_none_iff.1 hnew x hx)

theorem lastRefresh_of_run {e : Endpoints} {calls : List Call} {s : NatSrc}
    (hrun : Run Step (init e) calls s) : ∀ r ∈ s.prvHash, LastRefresh calls r := by
  have hhist : s.WellNumbered ∧ ∀ r ∈ s.prvHash, LastRefresh calls r := by
    refine hrun.history (P := fun calls s => s.WellNumbered ∧ ∀ r ∈ s.prvHash, LastRefresh calls r)
      ?_ ?_
    · refine ⟨⟨?_, ?_⟩, ?_⟩ <;>
        · intro r hr
          exact absurd hr (KeyedTable.not_mem_empty r)
    · intro calls s c s' hrun hs hstep
      exact ⟨wellNumbered_of_step hstep (agree_of_run hrun) hs.1,
        lastRefresh_of_step hstep hs.1 hs.2⟩
  exact hhist.2

/-! ## The contract -/

/-- **Source-NAT binding.**  After every run of calls under a clock that does not go back:

* the two tables hold the same relations, so that equality of private tuples and equality of
  public tuples are one and the same thing on them;
* a public tuple returned less than `ACTIVE_REL_PROTECT_SEC` seconds ago leads back to the private
  tuple it was returned for, and has been returned for no other one since;
* an expiry pass drops from both tables exactly the relations whose last refresh is more than
  `RELATION_EXPIRE_INTERVAL` seconds past. -/
theorem natSrc_binding (e : Endpoints) (calls : List Call) (s : NatSrc)
    (hrun : Run Step (init e) calls s) (hclock : (calls.map Call.time).Pairwise (· ≤ ·)) :
    ((∀ r, r ∈ s.prvHash ↔ r ∈ s.pubHash) ∧
      ∀ r ∈ s.prvHash, ∀ x ∈ s.prvHash,
        (natTupleCmp r.prv x.prv = 0 ↔ r = x) ∧ (natTupleCmp r.pub x.pub = 0 ↔ r = x)) ∧
    (∀ pre mid t p q, calls = pre ++ .natDo t p (some q) :: mid →
      (∀ c ∈ mid, c.time - t < ACTIVE_REL_PROTECT_SEC) →
      (∃ p', s.natSrcUndo q = some p' ∧ natTupleCmp p' p = 0) ∧
      ∀ t' p' q', .natDo t' p' (some q') ∈ mid → natTupleCmp q' q = 0 → natTupleCmp p' p = 0) ∧
    (∀ r ∈ s.prvHash, LastRefresh calls r) ∧
    ∀ now order, order.Perm s.pubHash.items → ∀ r,
      (r ∈ (s.natSrcRelExpire now order).prvHash ↔
        r ∈ s.prvHash ∧ ¬ now - r.lastDlTime > RELATION_EXPIRE_INTERVAL) ∧
      (r ∈ (s.natSrcRelExpire now order).pubHash ↔
        r ∈ s.pubHash ∧ ¬ now - r.lastDlTime > RELATION_EXPIRE_INTERVAL) := by
  have hagree := agree_of_run hrun
  refine ⟨⟨hagree, fun r hr x hx => ⟨⟨?_, ?_⟩, ?_, ?_⟩⟩, ?_, lastRefresh_of_run hrun,
    fun now order horder r => mem_natSrcRelExpire hagree horder r⟩
  · exact KeyedTable.eq_of_comp_eq_zero hr hx
  · rintro rfl
    exact natTupleCmp_self _
  · exact KeyedTable.eq_of_comp_eq_zero ((hagree r).1 hr) ((hagree x).1 hx)
  · rintro rfl
    exact natTupleCmp_self _
  · rintro pre mid t p q rfl hwindow
    obtain ⟨s₁, hpre, hrest⟩ := Run.append_iff.1 hrun
    obtain ⟨s₂, hstep, hmid⟩ := Run.cons_iff.1 hrest
    have hs₁ := agree_of_run hpre
    have hs₂ := agree_of_step hstep hs₁
    have hle : ∀ c ∈ mid, t ≤ c.time := by
      simp only [List.map_append, List.map_cons] at hclock
      have hcons := (List.pairwise_append.1 hclock).2.1
      intro c hc
      exact (List.pairwise_cons.1 hcons).1 _ (List.mem_map.2 ⟨c, hc, rfl⟩)
    have hheld : Holds s₂ p q t := by
      cases hstep with
      | natDo h => exact holds_of_done (done_of_natSrcDo h) hs₁
    refine ⟨undo_of_holds (holds_of_run hmid hs₂ hheld hle hwindow), ?_⟩
    intro t' p' q' hmem hq
    -- split the calls in between at the one that returned `q'`
    obtain ⟨before, after, rfl⟩ := List.append_of_mem hmem
    obtain ⟨s₃, hbefore, hrest⟩ := Run.append_iff.1 hmid
    obtain ⟨s₄, hstep', -⟩ := Run.cons_iff.1 hrest
    have hs₃ := hbefore.invariant (P := fun s => s.prvHash.Agree s.pubHash)
      (fun _ _ _ => agree_of_step) hs₂
    have hheld₃ := holds_of_run hbefore hs₂ hheld (fun c hc => hle c (by simp [hc]))
      (fun c hc => hwindow c (by simp [hc]))
    cases hstep' with
    | natDo h => exact bound_of_holds (done_of_natSrcDo h) hs₃ (hwindow _ hmem) hheld₃ hq

/-! ### One flow -/

/-- One subscriber, `10.0.0.5`, behind `192.0.2.1` with TCP ports 1024 to 1123. -/
def oneHost : Endpoints :=
  { Endpoints.empty with
    ip := (∅ : KeyedTable _ _).insert ⟨0x0a000005, 0xc0000201⟩
    tcp := (∅ : KeyedTable _ _).insert ⟨0x0a000005, 0xc0000201, 1024, 1123, 1024, 0, 0, 0, 0⟩ }

/-- A TCP flow of that subscriber, and the public tuple it is given. -/
def oneFlow : Chain := [.ip ⟨0x0a000005, 7, 0⟩, .tcp ⟨40000, 2⟩]

def oneFlowPub : Chain := [.ip ⟨0xc0000201, 7, 0⟩, .tcp ⟨1024, 2⟩]

/-- The reply to a flow's first packet finds its way back. -/
theorem natSrc_binding_oneFlow :
    ∃ p', ((init oneHost).natSrcDo 100 oneFlow).1.natSrcUndo oneFlowPub = some p' ∧
      natTupleCmp p' oneFlow = 0 :=
  ((natSrc_binding oneHost [.natDo 100 oneFlow (some oneFlowPub)] _
    (Run.single (.natDo (Prod.ext rfl (by decide)))) (by decide)).2.1
      [] [] 100 oneFlow oneFlowPub rfl (by simp)).1

end NatSrc

end Sweetspot
