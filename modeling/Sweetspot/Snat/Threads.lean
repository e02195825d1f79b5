import Mathlib.Logic.Function.Basic
import Sweetspot.Snat.Binding

/-!
# Source NAT under concurrency

Any number of threads execute `sw_nat_src_do` and `sw_nat_src_undo` while the garbage thread runs
the expiry callback.  Each section a thread holds its locks for is one step; between two sections
of a call the other threads run.

* `step`: one section of one thread.
* `race`: two threads that carry packets of one new flow both miss it in the private table, are
  given different public tuples and both insert.  The private table then keeps the second
  relation, the public table keeps both.
* `InsertOk`: the two inserts replace the same relation in both tables, or none.
  `threads_consistent_iff`: the tables agree in every state of a run exactly when every pair of
  inserts of the run meets this condition.
-/

namespace Sweetspot

namespace NatSrc

/-- The tables hold the same relations, one for each private and one for each public tuple. -/
def Consistent (s : NatSrc) : Prop :=
  (∀ r, r ∈ s.prvHash ↔ r ∈ s.pubHash) ∧
  (∀ r x, r ∈ s.prvHash ∨ r ∈ s.pubHash → x ∈ s.prvHash ∨ x ∈ s.pubHash →
    natTupleCmp r.prv x.prv = 0 → r = x) ∧
  ∀ r x, r ∈ s.prvHash ∨ r ∈ s.pubHash → x ∈ s.prvHash ∨ x ∈ s.pubHash →
    natTupleCmp r.pub x.pub = 0 → r = x

theorem consistent_iff (s : NatSrc) : s.Consistent ↔ s.prvHash.Agree s.pubHash := by
  refine ⟨And.left, ?_⟩
  intro h
  refine ⟨h, ?_, ?_⟩
  · intro r x hr hx
    have hprv : ∀ {y}, y ∈ s.prvHash ∨ y ∈ s.pubHash → y ∈ s.prvHash := fun hy =>
      hy.elim id (h _).2
    exact KeyedTable.eq_of_comp_eq_zero (hprv hr) (hprv hx)
  · intro r x hr hx
    have hpub : ∀ {y}, y ∈ s.prvHash ∨ y ∈ s.pubHash → y ∈ s.pubHash := fun hy =>
      hy.elim (h _).1 id
    exact KeyedTable.eq_of_comp_eq_zero (hpub hr) (hpub hx)

end NatSrc

namespace Threads

open NatSrc

/-- Where a thread stands in `sw_nat_src_do`. -/
inductive Pc
  /-- Outside any call. -/
  | idle
  /-- The private tuple is not bound; `attempts` rounds of the loop are left, this one included. -/
  | assigning (prv : Chain) (attempts : ℕ)
  /-- A public tuple was assigned; its table is to be looked at. -/
  | looking (prv pub : Chain) (attempts : ℕ)
  /-- The loop was left with a public tuple; the relation is to be inserted. -/
  | inserting (prv pub : Chain) (reused : Option ℕ)
  deriving DecidableEq, Repr

/-- The next round of the loop, unless the attempts are used up and the call fails. -/
def Pc.round (prv : Chain) : ℕ → Pc
  | 0 => .idle
  | attempts + 1 => .assigning prv (attempts + 1)

/-- The shared tables and the threads. -/
structure World where
  nat : NatSrc
  threads : ℕ → Pc

/-- Nothing bound, no thread in a call. -/
def start (e : Endpoints) : World := ⟨init e, fun _ => .idle⟩

namespace World

/-- Thread `i` goes on at `pc`, leaving the tables as `s`. -/
def goOn (w : World) (i : ℕ) (s : NatSrc) (pc : Pc) : World :=
  ⟨s, Function.update w.threads i pc⟩

/-- No thread is inside a call. -/
def Quiescent (w : World) : Prop := ∀ i, w.threads i = .idle

end World

/-- One lock-held section: of thread `i`, or of the garbage thread on the stored relation `ri`.
`now` is what the section reads from the clock. -/
inductive Action
  | lookPrv (i : ℕ) (now : ℤ) (prv : Chain)
  | assign (i : ℕ)
  | lookPub (i : ℕ) (now : ℤ)
  | insert (i : ℕ) (now : ℤ)
  | undo (i : ℕ) (pub : Chain)
  | expire (now : ℤ) (ri : Relation)

/-- One section executed, or `none` where the thread does not stand before it. -/
def step (w : World) : Action → Option World
  | .lookPrv i now prv =>
    match w.threads i with
    | .idle =>
      match w.nat.prvLookup now prv with
      | (s, some _) => some (w.goOn i s .idle)
      | (s, none) => some (w.goOn i s (.round prv ASSIGN_RETRY_MAX))
    | _ => none
  | .assign i =>
    match w.threads i with
    | .assigning prv (attempts + 1) =>
      match w.nat.assign prv with
      | (s, some pub) => some (w.goOn i s (.looking prv pub attempts))
      | (s, none) => some (w.goOn i s .idle)
    | _ => none
  | .lookPub i now =>
    match w.threads i with
    | .looking prv pub attempts =>
      match w.nat.pubLookup now pub with
      | (s, .free) => some (w.goOn i s (.inserting prv pub none))
      | (s, .active) => some (w.goOn i s (.round prv attempts))
      | (s, .preempted rid) => some (w.goOn i s (.inserting prv pub (some rid)))
    | _ => none
  | .insert i now =>
    match w.threads i with
    | .inserting prv pub reused =>
      some (w.goOn i (w.nat.insertRelation now reused prv pub) .idle)
    | _ => none
  | .undo i _ =>
    match w.threads i with
    | .idle => some w
    | _ => none
  | .expire now ri =>
    if ri ∈ w.nat.pubHash.items then some ⟨w.nat.expireCurrentSeq now ri, w.threads⟩ else none

/-- `step` as a relation. -/
abbrev Step (w : World) (a : Action) (w' : World) : Prop := step w a = some w'

/-- The two inserts of a step replace the same relation, or neither replaces one: both tuples are
still unbound, or bound to each other. -/
def InsertOk (w : World) : Action → Prop
  | .insert i _ => ∀ prv pub reused, w.threads i = .inserting prv pub reused →
      w.nat.prvHash.retrieve prv = w.nat.pubHash.retrieve pub
  | _ => True

/-! ## One section -/

section Sections

variable {s : NatSrc} (hs : s.prvHash.Agree s.pubHash) (now : ℤ)
include hs

theorem agree_prvLookup (prv : Chain) :
    (s.prvLookup now prv).1.prvHash.Agree (s.prvLookup now prv).1.pubHash := by
  unfold prvLookup
  cases s.prvHash.retrieve prv with
  | none => exact hs
  | some r => exact hs.map (Relation.touch_prv r.rid now) (Relation.touch_pub r.rid now)

omit now in
theorem agree_assign (prv : Chain) :
    (s.assign prv).1.prvHash.Agree (s.assign prv).1.pubHash :=
  hs

theorem agree_pubLookup (pub : Chain) :
    (s.pubLookup now pub).1.prvHash.Agree (s.pubLookup now pub).1.pubHash := by
  unfold pubLookup
  cases hheld : s.pubHash.retrieve pub with
  | none => exact hs
  | some r =>
    dsimp only
    split
    · exact hs
    · exact hs.delete ((hs r).2 (KeyedTable.mem_of_retrieve hheld))

theorem agree_expireCurrentSeq {ri : Relation} (hri : ri ∈ s.pubHash) :
    (s.expireCurrentSeq now ri).prvHash.Agree (s.expireCurrentSeq now ri).pubHash := by
  unfold expireCurrentSeq
  split
  · exact hs.delete ((hs ri).2 hri)
  · exact hs

/-- The two inserts are the one section that can break the tables apart. -/
theorem agree_insertRelation_iff (reused : Option ℕ) (prv pub : Chain) :
    (s.insertRelation now reused prv pub).prvHash.Agree
      (s.insertRelation now reused prv pub).pubHash ↔
    s.prvHash.retrieve prv = s.pubHash.retrieve pub :=
  hs.insert_iff

end Sections

/-- **What a section does to agreeing tables**: an insert keeps them in step exactly when it meets
its condition, every other section keeps them in step. -/
theorem agree_step_iff {w w' : World} {a : Action} (h : Step w a w')
    (hs : w.nat.prvHash.Agree w.nat.pubHash) :
    w'.nat.prvHash.Agree w'.nat.pubHash ↔ InsertOk w a := by
  cases a with
  | insert i now =>
    simp only [Step, step] at h
    cases hpc : w.threads i with
    | inserting prv pub reused =>
      rw [hpc] at h
      obtain rfl := Option.some.inj h
      refine (agree_insertRelation_iff hs now reused prv pub).trans ⟨?_, ?_⟩
      · intro heq prv' pub' reused' hpc'
        obtain ⟨rfl, rfl, rfl⟩ := Pc.inserting.inj (hpc.symm.trans hpc')
        exact heq
      · intro hok
        exact hok prv pub reused hpc
    | _ =>
      rw [hpc] at h
      exact absurd h (by simp)
  | lookPrv i now prv =>
    refine iff_of_true ?_ trivial
    have hsec := agree_prvLookup hs now prv
    simp only [Step, step] at h
    split at h
    · split at h <;> (obtain rfl := Option.some.inj h; rename_i hsec'; rwa [hsec'] at hsec)
    · exact absurd h (by simp)
  | assign i =>
    refine iff_of_true ?_ trivial
    simp only [Step, step] at h
    split at h
    · rename_i prv attempts _
      have hsec := agree_assign hs prv
      split at h <;> (obtain rfl := Option.some.inj h; rename_i hsec'; rwa [hsec'] at hsec)
    · exact absurd h (by simp)
  | lookPub i now =>
    refine iff_of_true ?_ trivial
    simp only [Step, step] at h
    split at h
    · rename_i prv pub attempts _
      have hsec := agree_pubLookup hs now pub
      split at h <;> (obtain rfl := Option.some.inj h; rename_i hsec'; rwa [hsec'] at hsec)
    · exact absurd h (by simp)
  | undo i pub =>
    refine iff_of_true ?_ trivial
    simp only [Step, step] at h
    split at h
    · obtain rfl := Option.some.inj h
      exact hs
    · exact absurd h (by simp)
  | expire now ri =>
    refine iff_of_true ?_ trivial
    simp only [Step, step] at h
    split at h
    · rename_i hri
      obtain rfl := Option.some.inj h
      exact agree_expireCurrentSeq hs now hri
    · exact absurd h (by simp)

theorem step_unique (w : World) (a : Action) (w₁ w₂ : World) (h₁ : Step w a w₁)
    (h₂ : Step w a w₂) : w₁ = w₂ :=
  Option.some.inj (h₁.symm.trans h₂)

/-- **The tables are consistent in every state of a run exactly when every pair of inserts meets
its condition.** -/
theorem threads_consistent_iff (e : Endpoints) (acts : List Action) (w : World)
    (hrun : Run Step (start e) acts w) :
    (∀ pre post w', acts = pre ++ post → Run Step (start e) pre w' → w'.nat.Consistent) ↔
      Run.Guarded Step InsertOk (start e) acts := by
  simp only [consistent_iff]
  constructor
  · rintro hall pre a post w' rfl hpre
    obtain ⟨w₁, hpre₁, hrest⟩ := Run.append_iff.1 hrun
    obtain ⟨w₂, hstep, -⟩ := Run.cons_iff.1 hrest
    obtain rfl : w₁ = w' := hpre₁.unique step_unique hpre
    refine (agree_step_iff hstep (hall pre (a :: post) w₁ rfl hpre)).1 ?_
    exact hall (pre ++ [a]) post w₂ (by simp) (Run.concat_iff.2 ⟨w₁, hpre, hstep⟩)
  · rintro hguard pre post w' rfl hpre
    refine hpre.invariant_of_guarded (P := fun w : World => w.nat.prvHash.Agree w.nat.pubHash)
      ?_ hguard.of_append KeyedTable.agree_empty
    intro w a w' hstep hok hs
    exact (agree_step_iff hstep hs).2 hok

/-! ### Two packets of one new flow -/

/-- Both threads miss the flow, both are given a port, both insert. -/
def race : List Action :=
  [.lookPrv 0 100 oneFlow, .lookPrv 1 100 oneFlow, .assign 0, .assign 1, .lookPub 0 100,
    .lookPub 1 100, .insert 0 100, .insert 1 100]

/-- The relation of the thread that inserted first. -/
def raceLoser : Relation := ⟨0, oneFlow, oneFlowPub, 100⟩

theorem race_spec : ∃ w, Run Step (start oneHost) race w ∧ w.Quiescent ∧ ¬ w.nat.Consistent := by
  obtain ⟨w, hw⟩ : ∃ w, race.foldlM step (start oneHost) = some w := ⟨_, rfl⟩
  refine ⟨w, Run.of_foldlM hw, ?_, ?_⟩
  · obtain rfl := Option.some.inj hw
    intro i
    rcases i with _ | _ | i <;> rfl
  · intro hcons
    have hlost : raceLoser ∈ w.nat.pubHash.items ∧ raceLoser ∉ w.nat.prvHash.items := by
      obtain rfl := Option.some.inj hw
      decide
    exact hlost.2 ((hcons.1 raceLoser).2 hlost.1)

/-- **The tables do not stay in step.**  After the race no thread is inside a call, and the relation
of the thread that inserted first is in the public table only. -/
theorem race_inconsistent :
    ¬ ∀ (e : Endpoints) (acts : List Action) (w : World),
      Run Step (start e) acts w → w.Quiescent → w.nat.Consistent := by
  intro hall
  obtain ⟨w, hrun, hquiet, hcons⟩ := race_spec
  exact hcons (hall oneHost race w hrun hquiet)

/-- Some pair of inserts of the race does not meet its condition. -/
theorem race_not_guarded : ¬ Run.Guarded Step InsertOk (start oneHost) race := by
  obtain ⟨w, hrun, -, hcons⟩ := race_spec
  rw [← threads_consistent_iff oneHost race w hrun]
  exact fun hall => hcons (hall race [] w (List.append_nil _).symm hrun)

end Threads

end Sweetspot
