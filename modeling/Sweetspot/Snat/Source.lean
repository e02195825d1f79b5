import Sweetspot.Snat.Endpoint

/-!
# Source NAT: the relation tables

A *relation* binds a private tuple to a public one.  Two tables hold the same relations, one
keyed by the private tuple, the other by the public one.  The code works on them in sections, each
under the lock of the bucket it looks at:

* `prvLookup`: find the relation of a private tuple and refresh it;
* `assign`: ask the endpoints for a public tuple;
* `pubLookup`: look whether that public tuple is taken, and preempt an inactive holder;
* `insertRelation`: store the relation in both tables;
* `natSrcUndo`: find the private tuple behind a public one;
* `expireCurrentSeq`: drop one relation that has not been refreshed for long.

`natSrcDo` and `natSrcRelExpire` are the calls made of them.  `natSrcDo_cases` says once what a
call of `natSrcDo` can do to the tables: refresh, fail, insert, or preempt and insert.
Allocation is taken to succeed.
-/

namespace Sweetspot

def RELATION_EXPIRE_INTERVAL : ℤ := 1800
def ACTIVE_REL_PROTECT_SEC : ℤ := 10
def ASSIGN_RETRY_MAX : ℕ := 128

/-- `sw_nat_src_relation_t`.  Both tables store a pointer to the relation; `rid` is that pointer,
so that what is written through one table is seen through the other. -/
structure Relation where
  rid : ℕ
  prv : Chain
  pub : Chain
  lastDlTime : ℤ
  deriving DecidableEq, Repr

namespace Relation

/-- Store `now` in the relation behind pointer `rid`. -/
def touch (rid : ℕ) (now : ℤ) (r : Relation) : Relation :=
  if r.rid = rid then { r with lastDlTime := now } else r

@[simp] theorem touch_prv (rid : ℕ) (now : ℤ) (r : Relation) : (r.touch rid now).prv = r.prv := by
  unfold touch
  split <;> rfl

@[simp] theorem touch_pub (rid : ℕ) (now : ℤ) (r : Relation) : (r.touch rid now).pub = r.pub := by
  unfold touch
  split <;> rfl

@[simp] theorem touch_rid (rid : ℕ) (now : ℤ) (r : Relation) : (r.touch rid now).rid = r.rid := by
  unfold touch
  split <;> rfl

theorem touch_of_ne {rid : ℕ} {r : Relation} (h : r.rid ≠ rid) (now : ℤ) :
    r.touch rid now = r :=
  if_neg h

theorem touch_lastDlTime (rid : ℕ) (now : ℤ) (r : Relation) :
    (r.touch rid now).lastDlTime = now ∨ (r.touch rid now).lastDlTime = r.lastDlTime := by
  unfold touch
  split
  · exact Or.inl rfl
  · exact Or.inr rfl

end Relation

/-- The private-keyed table, `global_nat_src_prv_hash`. -/
abbrev PrvHash := KeyedTable natComparator Relation.prv

/-- The public-keyed table, `global_nat_src_pub_hash`. -/
abbrev PubHash := KeyedTable natComparator Relation.pub

/-- The source-NAT state: the endpoints, the two tables and the next address `malloc` returns. -/
structure NatSrc where
  endpoints : Endpoints
  prvHash : PrvHash
  pubHash : PubHash
  nextRid : ℕ

namespace NatSrc

/-- Nothing bound yet. -/
def init (e : Endpoints) : NatSrc := ⟨e, ∅, ∅, 0⟩

/-! ## The sections -/

/-- Refresh the relation behind `rid`, in whichever tables it is stored. -/
def touch (s : NatSrc) (rid : ℕ) (now : ℤ) : NatSrc :=
  { s with
    prvHash := s.prvHash.map (Relation.touch rid now) (Relation.touch_prv rid now)
    pubHash := s.pubHash.map (Relation.touch rid now) (Relation.touch_pub rid now) }

/-- Look a private tuple up; refresh the relation found and copy its public tuple out. -/
def prvLookup (s : NatSrc) (now : ℤ) (prv : Chain) : NatSrc × Option Chain :=
  match s.prvHash.retrieve prv with
  | some r => (s.touch r.rid now, some r.pub)
  | none => (s, none)

/-- Copy the private tuple and let the endpoints write the public values into the copy. -/
def assign (s : NatSrc) (prv : Chain) : NatSrc × Option Chain :=
  let (e, pub) := endpointAssign prv prv 0 s.endpoints
  ({ s with endpoints := e }, pub)

/-- What the look at the public table finds. -/
inductive PubSlot
  | free
  | active
  | preempted (rid : ℕ)
  deriving DecidableEq, Repr

/-- Look a public tuple up.  A holder refreshed in the last `ACTIVE_REL_PROTECT_SEC` seconds is
left alone; another one is dropped from both tables and its memory reused. -/
def pubLookup (s : NatSrc) (now : ℤ) (pub : Chain) : NatSrc × PubSlot :=
  match s.pubHash.retrieve pub with
  | none => (s, .free)
  | some r =>
    if now - r.lastDlTime < ACTIVE_REL_PROTECT_SEC then (s, .active)
    else
      ({ s with prvHash := s.prvHash.delete r.prv, pubHash := s.pubHash.delete r.pub },
        .preempted r.rid)

/-- Fill a relation, allocated unless one was preempted, and insert it: public table first. -/
def insertRelation (s : NatSrc) (now : ℤ) (reused : Option ℕ) (prv pub : Chain) : NatSrc :=
  let r : Relation := ⟨reused.getD s.nextRid, prv, pub, now⟩
  { s with
    pubHash := s.pubHash.insert r
    prvHash := s.prvHash.insert r
    nextRid := if reused.isNone then s.nextRid + 1 else s.nextRid }

/-- `__expire_current_seq` on one stored relation. -/
def expireCurrentSeq (s : NatSrc) (now : ℤ) (ri : Relation) : NatSrc :=
  if now - ri.lastDlTime > RELATION_EXPIRE_INTERVAL then
    { s with prvHash := s.prvHash.delete ri.prv, pubHash := s.pubHash.delete ri.pub }
  else s

/-! ## The calls -/

/-- The retry loop of `sw_nat_src_do`, `attempts` rounds left: the public tuple to use, with the
preempted relation if there was one. -/
def assignAttempts : ℕ → NatSrc → ℤ → Chain → NatSrc × Option (Chain × Option ℕ)
  | 0, s, _, _ => (s, none)
  | attempts + 1, s, now, prv =>
    match s.assign prv with
    | (s, none) => (s, none)
    | (s, some pub) =>
      match s.pubLookup now pub with
      | (s, .free) => (s, some (pub, none))
      | (s, .active) => assignAttempts attempts s now prv
      | (s, .preempted rid) => (s, some (pub, some rid))

/-- `sw_nat_src_do`, with the public tuple it returns, or `none` for the return value -1. -/
def natSrcDo (s : NatSrc) (now : ℤ) (prv : Chain) : NatSrc × Option Chain :=
  match s.prvLookup now prv with
  | (s, some pub) => (s, some pub)
  | (s, none) =>
    match assignAttempts ASSIGN_RETRY_MAX s now prv with
    | (s, none) => (s, none)
    | (s, some (pub, reused)) => (s.insertRelation now reused prv pub, some pub)

/-- `sw_nat_src_undo`, with the private tuple it returns. -/
def natSrcUndo (s : NatSrc) (pub : Chain) : Option Chain :=
  (s.pubHash.retrieve pub).map Relation.prv

/-- `sw_nat_src_rel_expire`: the callback runs on every relation of the public table.  The order
is that of the buckets, so it is left open: `order` is some arrangement of the table. -/
def natSrcRelExpire (s : NatSrc) (now : ℤ) (order : List Relation) : NatSrc :=
  order.foldl (fun s ri => s.expireCurrentSeq now ri) s

/-! ## What a call can do -/

theorem mem_touch_prvHash {s : NatSrc} {rid : ℕ} {now : ℤ} {x : Relation} :
    x ∈ (s.touch rid now).prvHash ↔ ∃ r ∈ s.prvHash, r.touch rid now = x :=
  KeyedTable.mem_map (Relation.touch_prv rid now)

theorem mem_touch_pubHash {s : NatSrc} {rid : ℕ} {now : ℤ} {x : Relation} :
    x ∈ (s.touch rid now).pubHash ↔ ∃ r ∈ s.pubHash, r.touch rid now = x :=
  KeyedTable.mem_map (Relation.touch_pub rid now)

/-- What the retry loop leaves behind: nothing changed, or one inactive holder gone. -/
inductive Attempted (s : NatSrc) (now : ℤ) : NatSrc → Option (Chain × Option ℕ) → Prop
  | failed {s' : NatSrc} (hprv : s'.prvHash = s.prvHash) (hpub : s'.pubHash = s.pubHash)
      (hnext : s'.nextRid = s.nextRid) : Attempted s now s' none
  | fresh {s' : NatSrc} {pub : Chain} (hfree : s.pubHash.retrieve pub = none)
      (hprv : s'.prvHash = s.prvHash) (hpub : s'.pubHash = s.pubHash)
      (hnext : s'.nextRid = s.nextRid) : Attempted s now s' (some (pub, none))
  | preempted {s' : NatSrc} {pub : Chain} {r : Relation}
      (hheld : s.pubHash.retrieve pub = some r)
      (hage : ACTIVE_REL_PROTECT_SEC ≤ now - r.lastDlTime)
      (hprv : s'.prvHash = s.prvHash.delete r.prv) (hpub : s'.pubHash = s.pubHash.delete r.pub)
      (hnext : s'.nextRid = s.nextRid) : Attempted s now s' (some (pub, some r.rid))

/-- An attempt looks only at the tables. -/
theorem Attempted.congr {s t s' : NatSrc} {now : ℤ} {res : Option (Chain × Option ℕ)}
    (hprv : t.prvHash = s.prvHash) (hpub : t.pubHash = s.pubHash) (hnext : t.nextRid = s.nextRid)
    (h : Attempted t now s' res) : Attempted s now s' res := by
  rcases h with ⟨h₁, h₂, h₃⟩ | ⟨hfree, h₁, h₂, h₃⟩ | ⟨hheld, hage, h₁, h₂, h₃⟩
  · exact .failed (h₁.trans hprv) (h₂.trans hpub) (h₃.trans hnext)
  · exact .fresh (hpub ▸ hfree) (h₁.trans hprv) (h₂.trans hpub) (h₃.trans hnext)
  · exact .preempted (hpub ▸ hheld) hage (by rw [h₁, hprv]) (by rw [h₂, hpub]) (h₃.trans hnext)

/-- One round of the loop that is given a public tuple to try. -/
theorem assignAttempts_succ {s s₁ : NatSrc} {prv pub : Chain} (h : s.assign prv = (s₁, some pub))
    (attempts : ℕ) (now : ℤ) : assignAttempts (attempts + 1) s now prv =
      match s₁.pubHash.retrieve pub with
      | none => (s₁, some (pub, none))
      | some r =>
        if now - r.lastDlTime < ACTIVE_REL_PROTECT_SEC then assignAttempts attempts s₁ now prv
        else
          ({ s₁ with prvHash := s₁.prvHash.delete r.prv, pubHash := s₁.pubHash.delete r.pub },
            some (pub, some r.rid)) := by
  rw [assignAttempts, h]
  cases hheld : s₁.pubHash.retrieve pub with
  | none => simp only [pubLookup, hheld]
  | some r =>
    by_cases hage : now - r.lastDlTime < ACTIVE_REL_PROTECT_SEC
    · simp only [pubLookup, hheld, hage, if_true]
    · simp only [pubLookup, hheld, hage, if_false]

theorem assignAttempts_succ_of_none {s s₁ : NatSrc} {prv : Chain} (h : s.assign prv = (s₁, none))
    (attempts : ℕ) (now : ℤ) : assignAttempts (attempts + 1) s now prv = (s₁, none) := by
  rw [assignAttempts, h]

theorem assignAttempts_spec (attempts : ℕ) (s : NatSrc) (now : ℤ) (prv : Chain) :
    Attempted s now (assignAttempts attempts s now prv).1
      (assignAttempts attempts s now prv).2 := by
  induction attempts generalizing s with
  | zero => exact .failed rfl rfl rfl
  | succ attempts ih =>
    have hprv : (s.assign prv).1.prvHash = s.prvHash := rfl
    have hpub : (s.assign prv).1.pubHash = s.pubHash := rfl
    have hnext : (s.assign prv).1.nextRid = s.nextRid := rfl
    rcases hassign : s.assign prv with ⟨s₁, _ | pub⟩
    · rw [assignAttempts_succ_of_none hassign]
      rw [hassign] at hprv hpub hnext
      exact .failed hprv hpub hnext
    · rw [assignAttempts_succ hassign]
      rw [hassign] at hprv hpub hnext
      refine Attempted.congr (t := s₁) hprv hpub hnext ?_
      split
      · exact .fresh ‹_› rfl rfl rfl
      · split
        · exact ih s₁
        · exact .preempted ‹_› (Int.not_lt.1 ‹_›) rfl rfl rfl

/-- **What a call of `sw_nat_src_do` can do** to the tables: refresh the relation of the private
tuple, leave them alone, insert a relation whose private and public tuple are both unbound, or
drop an inactive holder of the public tuple and insert the relation in its place. -/
inductive Done (s : NatSrc) (now : ℤ) (prv : Chain) : NatSrc → Option Chain → Prop
  | refreshed {s' : NatSrc} {r : Relation} (hheld : s.prvHash.retrieve prv = some r)
      (hs' : s' = s.touch r.rid now) : Done s now prv s' (some r.pub)
  | failed {s' : NatSrc} (hprv : s'.prvHash = s.prvHash) (hpub : s'.pubHash = s.pubHash)
      (hnext : s'.nextRid = s.nextRid) : Done s now prv s' none
  | inserted {s' : NatSrc} {r : Relation} (hnew : s.prvHash.retrieve prv = none)
      (hrid : r.rid = s.nextRid) (hrprv : r.prv = prv) (hrnow : r.lastDlTime = now)
      (hfree : s.pubHash.retrieve r.pub = none)
      (hprv : s'.prvHash = s.prvHash.insert r) (hpub : s'.pubHash = s.pubHash.insert r)
      (hnext : s'.nextRid = s.nextRid + 1) : Done s now prv s' (some r.pub)
  | preempted {s' : NatSrc} {r old : Relation} (hnew : s.prvHash.retrieve prv = none)
      (hrid : r.rid = old.rid) (hrprv : r.prv = prv) (hrnow : r.lastDlTime = now)
      (hheld : s.pubHash.retrieve r.pub = some old)
      (hage : ACTIVE_REL_PROTECT_SEC ≤ now - old.lastDlTime)
      (hprv : s'.prvHash = (s.prvHash.delete old.prv).insert r)
      (hpub : s'.pubHash = (s.pubHash.delete old.pub).insert r)
      (hnext : s'.nextRid = s.nextRid) : Done s now prv s' (some r.pub)

/-- The call for a private tuple that has no relation. -/
theorem natSrcDo_of_new {s : NatSrc} {prv : Chain} (hnew : s.prvHash.retrieve prv = none)
    (now : ℤ) : s.natSrcDo now prv =
      match assignAttempts ASSIGN_RETRY_MAX s now prv with
      | (s, none) => (s, none)
      | (s, some (pub, reused)) => (s.insertRelation now reused prv pub, some pub) := by
  simp only [natSrcDo, prvLookup, hnew]

theorem natSrcDo_cases (s : NatSrc) (now : ℤ) (prv : Chain) :
    Done s now prv (s.natSrcDo now prv).1 (s.natSrcDo now prv).2 := by
  cases hnew : s.prvHash.retrieve prv with
  | some r =>
    simp only [natSrcDo, prvLookup, hnew]
    exact .refreshed hnew rfl
  | none =>
    have hspec := assignAttempts_spec ASSIGN_RETRY_MAX s now prv
    rw [natSrcDo_of_new hnew]
    generalize assignAttempts ASSIGN_RETRY_MAX s now prv = res at hspec ⊢
    obtain ⟨s', out⟩ := res
    cases hspec with
    | failed h₁ h₂ h₃ => exact .failed h₁ h₂ h₃
    | @fresh pub hfree h₁ h₂ h₃ =>
      exact .inserted (r := ⟨s.nextRid, prv, pub, now⟩) hnew rfl rfl rfl hfree
        (h₁ ▸ h₃ ▸ rfl) (h₂ ▸ h₃ ▸ rfl) (h₃ ▸ rfl)
    | @preempted pub old hheld hage h₁ h₂ h₃ =>
      exact @Done.preempted s now prv _ ⟨old.rid, prv, pub, now⟩ old hnew rfl rfl rfl hheld hage
        (h₁ ▸ rfl) (h₂ ▸ rfl) h₃

end NatSrc

end Sweetspot
