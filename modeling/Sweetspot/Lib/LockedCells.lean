import Mathlib.Logic.Function.Basic
import Sweetspot.Lib.Run

/-!
# Cells under locks

Any number of threads work on an array of cells, each of which has a lock of its own.  An operation
reads its cell step by step, with the lock held, and ends by writing it once; a thread that holds
the lock may run another operation on the same cell before it lets go.

* `CellCode`: which cell an operation is for, and its steps.
* `Cells.step`: one step of one thread.
* `Locked`: a lock has one holder, and what an operation has read so far still stands.
* `run_serial`: whatever the interleaving, the cells are those that the operations leave if each is
  run at once, in the order in which they ended, and every answer is the one it gives then.
* `Locked.progress`: nobody waits for a thread that cannot go on.
-/

/-- The code of the operations `α` on cells `σ`: where an operation begins, and what it does next,
which is to read on or to write the cell and answer. -/
structure CellCode (ι σ α ℓ ν : Type*) where
  cell : α → ι
  enter : α → ℓ
  micro : ℓ → σ → ℓ ⊕ σ × ν

namespace CellCode

/-- An operation that has come to `l` ends like that, if the cell stays `x`. -/
inductive Ends {ι σ α ℓ ν : Type*} (code : CellCode ι σ α ℓ ν) (x : σ) : ℓ → σ × ν → Prop
  | last {l : ℓ} {r : σ × ν} (h : code.micro l x = .inr r) : Ends code x l r
  | more {l l' : ℓ} {r : σ × ν} (h : code.micro l x = .inl l') (hr : Ends code x l' r) :
    Ends code x l r

/-- Where a thread is: outside, before a lock, in an operation, or behind one with the lock still
held. -/
inductive Pc (ι α ℓ : Type*)
  | idle
  | waiting (a : α)
  | inside (a : α) (l : ℓ)
  | holding (i : ι)

/-- What a thread does next. -/
inductive Act (α : Type*)
  | call (a : α)
  | acquire
  | micro
  | again (a : α)
  | release

/-- The cells, their locks, the threads, and the operations that have ended. -/
structure Cells (ι σ α ℓ ν τ : Type*) where
  cells : ι → σ
  owner : ι → Option τ
  pc : τ → Pc ι α ℓ
  log : List (α × ν)

variable {ι σ α ℓ ν τ : Type*}

/-- All threads outside. -/
def Cells.init (cells : ι → σ) : Cells ι σ α ℓ ν τ where
  cells := cells
  owner _ := none
  pc _ := .idle
  log := []

variable [DecidableEq ι] [DecidableEq τ] (code : CellCode ι σ α ℓ ν)

/-- One step of the thread `t`, if it can take it. -/
def step (s : Cells ι σ α ℓ ν τ) : τ × Act α → Option (Cells ι σ α ℓ ν τ)
  | (t, .call a) =>
    match s.pc t with
    | .idle => some { s with pc := Function.update s.pc t (.waiting a) }
    | _ => none
  | (t, .acquire) =>
    match s.pc t with
    | .waiting a =>
      match s.owner (code.cell a) with
      | none =>
        some { s with
          owner := Function.update s.owner (code.cell a) (some t)
          pc := Function.update s.pc t (.inside a (code.enter a)) }
      | some _ => none
    | _ => none
  | (t, .micro) =>
    match s.pc t with
    | .inside a l =>
      match code.micro l (s.cells (code.cell a)) with
      | .inl l' => some { s with pc := Function.update s.pc t (.inside a l') }
      | .inr (x, v) =>
        some { s with
          cells := Function.update s.cells (code.cell a) x
          pc := Function.update s.pc t (.holding (code.cell a))
          log := s.log ++ [(a, v)] }
    | _ => none
  | (t, .again a) =>
    match s.pc t with
    | .holding i =>
      if code.cell a = i then
        some { s with pc := Function.update s.pc t (.inside a (code.enter a)) }
      else none
    | _ => none
  | (t, .release) =>
    match s.pc t with
    | .holding i =>
      some { s with
        owner := Function.update s.owner i none
        pc := Function.update s.pc t .idle }
    | _ => none

/-- The cell whose lock a thread holds. -/
def Pc.held : Pc ι α ℓ → Option ι
  | .inside a _ => some (code.cell a)
  | .holding i => some i
  | _ => none

/-- What holds between the steps. -/
structure Locked (s : Cells ι σ α ℓ ν τ) : Prop where
  owner_iff : ∀ t i, s.owner i = some t ↔ (s.pc t).held code = some i
  read : ∀ t a l r, s.pc t = .inside a l → code.Ends (s.cells (code.cell a)) l r →
    code.Ends (s.cells (code.cell a)) (code.enter a) r

/-- One operation, run at once. -/
def Serial (cells : ι → σ) (entry : α × ν) (cells' : ι → σ) : Prop :=
  ∃ x, code.Ends (cells (code.cell entry.1)) (code.enter entry.1) (x, entry.2) ∧
    cells' = Function.update cells (code.cell entry.1) x

variable {code}

omit [DecidableEq ι] [DecidableEq τ] in
theorem locked_init (cells : ι → σ) :
    Locked code (Cells.init cells : Cells ι σ α ℓ ν τ) where
  owner_iff t i := by simp [Cells.init, Pc.held]
  read t a l r h := by simp [Cells.init] at h

namespace Locked

variable {s : Cells ι σ α ℓ ν τ}

omit [DecidableEq ι] [DecidableEq τ] in
/-- **A lock has one holder.** -/
theorem unique (h : Locked code s) {t t' : τ} {i : ι} (ht : (s.pc t).held code = some i)
    (ht' : (s.pc t').held code = some i) : t = t' := by
  have howner := (h.owner_iff t i).2 ht
  rw [(h.owner_iff t' i).2 ht'] at howner
  exact (Option.some.inj howner).symm

omit [DecidableEq ι] in
/-- A thread moves on without touching locks and cells. -/
theorem move (h : Locked code s) {t : τ} {pc : Pc ι α ℓ}
    (hheld : pc.held code = (s.pc t).held code)
    (hread : ∀ a l r, pc = .inside a l → code.Ends (s.cells (code.cell a)) l r →
      code.Ends (s.cells (code.cell a)) (code.enter a) r) :
    Locked code { s with pc := Function.update s.pc t pc } := by
  refine ⟨fun t' i => ?_, fun t' a l r => ?_⟩ <;> dsimp only
  · by_cases ht : t' = t
    · subst ht
      rw [Function.update_self, hheld]
      exact h.owner_iff t' i
    · rw [Function.update_of_ne ht]
      exact h.owner_iff t' i
  · by_cases ht : t' = t
    · subst ht
      rw [Function.update_self]
      exact hread a l r
    · rw [Function.update_of_ne ht]
      exact h.read t' a l r

/-- A thread takes a free lock. -/
theorem acquire (h : Locked code s) {t : τ} {a : α} (hpc : s.pc t = .waiting a)
    (hfree : s.owner (code.cell a) = none) :
    Locked code { s with
      owner := Function.update s.owner (code.cell a) (some t)
      pc := Function.update s.pc t (.inside a (code.enter a)) } := by
  refine ⟨fun t' i => ?_, fun t' b l r => ?_⟩ <;> dsimp only
  · by_cases ht : t' = t
    · subst ht
      rw [Function.update_self]
      by_cases hi : i = code.cell a
      · subst hi
        simp [Pc.held]
      · rw [Function.update_of_ne hi, h.owner_iff, hpc]
        simp [Pc.held, Ne.symm hi]
    · rw [Function.update_of_ne ht, ← h.owner_iff]
      by_cases hi : i = code.cell a
      · subst hi
        rw [Function.update_self, hfree]
        simp [Ne.symm ht]
      · rw [Function.update_of_ne hi]
  · by_cases ht : t' = t
    · subst ht
      rw [Function.update_self]
      intro hinside hends
      cases hinside
      exact hends
    · rw [Function.update_of_ne ht]
      exact h.read t' b l r

/-- A thread lets its lock go. -/
theorem release (h : Locked code s) {t : τ} {i : ι} (hpc : s.pc t = .holding i) :
    Locked code { s with
      owner := Function.update s.owner i none
      pc := Function.update s.pc t .idle } := by
  have howner : s.owner i = some t := (h.owner_iff t i).2 (by rw [hpc]; rfl)
  refine ⟨fun t' j => ?_, fun t' b l r => ?_⟩ <;> dsimp only
  · by_cases ht : t' = t
    · subst ht
      rw [Function.update_self]
      by_cases hj : j = i
      · subst hj
        simp [Pc.held]
      · rw [Function.update_of_ne hj, h.owner_iff, hpc]
        simp [Pc.held, Ne.symm hj]
    · rw [Function.update_of_ne ht, ← h.owner_iff]
      by_cases hj : j = i
      · subst hj
        rw [Function.update_self, howner]
        simp [Ne.symm ht]
      · rw [Function.update_of_ne hj]
  · by_cases ht : t' = t
    · subst ht
      rw [Function.update_self]
      intro hinside
      cases hinside
    · rw [Function.update_of_ne ht]
      exact h.read t' b l r

/-- A thread ends its operation.  No other one stands in the cell it writes. -/
theorem write (h : Locked code s) {t : τ} {a : α} {l : ℓ} (hpc : s.pc t = .inside a l) (x : σ)
    (v : ν) : Locked code { s with
      cells := Function.update s.cells (code.cell a) x
      pc := Function.update s.pc t (.holding (code.cell a))
      log := s.log ++ [(a, v)] } := by
  refine ⟨fun t' i => ?_, fun t' b l' r => ?_⟩ <;> dsimp only
  · by_cases ht : t' = t
    · subst ht
      rw [Function.update_self, h.owner_iff, hpc]
      rfl
    · rw [Function.update_of_ne ht]
      exact h.owner_iff t' i
  · by_cases ht : t' = t
    · subst ht
      rw [Function.update_self]
      intro hinside
      cases hinside
    · rw [Function.update_of_ne ht]
      intro hinside
      have hne : code.cell b ≠ code.cell a := by
        intro hcell
        refine ht (h.unique (i := code.cell a) ?_ ?_)
        · rw [hinside, ← hcell]
          rfl
        · rw [hpc]
          rfl
      rw [Function.update_of_ne hne]
      exact h.read t' b l' r hinside

end Locked

/-! ## Steps and runs -/

/-- What a step does to the cells and to the log. -/
theorem step_serial {s s' : Cells ι σ α ℓ ν τ} {label : τ × Act α} (h : Locked code s)
    (hstep : step code s label = some s') :
    Locked code s' ∧ ((s'.cells = s.cells ∧ s'.log = s.log) ∨
      ∃ entry, s'.log = s.log ++ [entry] ∧ Serial code s.cells entry s'.cells) := by
  obtain ⟨t, act⟩ := label
  cases act with
  | call a =>
    simp only [step] at hstep
    split at hstep
    · rename_i hpc
      obtain rfl := Option.some.inj hstep
      refine ⟨h.move (by rw [hpc]; rfl) ?_, Or.inl ⟨rfl, rfl⟩⟩
      intro b l r hinside
      cases hinside
    · cases hstep
  | acquire =>
    simp only [step] at hstep
    split at hstep
    · rename_i a hpc
      split at hstep
      · rename_i hfree
        obtain rfl := Option.some.inj hstep
        exact ⟨h.acquire hpc hfree, Or.inl ⟨rfl, rfl⟩⟩
      · cases hstep
    · cases hstep
  | micro =>
    simp only [step] at hstep
    split at hstep
    · rename_i a l hpc
      split at hstep
      · rename_i l' hmore
        obtain rfl := Option.some.inj hstep
        refine ⟨h.move (by rw [hpc]; rfl) ?_, Or.inl ⟨rfl, rfl⟩⟩
        intro b l₁ r hinside hends
        cases hinside
        exact h.read t a l r hpc (.more hmore hends)
      · rename_i x v hlast
        obtain rfl := Option.some.inj hstep
        refine ⟨h.write hpc x v, Or.inr ⟨(a, v), rfl, x, ?_, rfl⟩⟩
        exact h.read t a l (x, v) hpc (.last hlast)
    · cases hstep
  | again a =>
    simp only [step] at hstep
    split at hstep
    · rename_i i hpc
      split_ifs at hstep with hcell
      obtain rfl := Option.some.inj hstep
      refine ⟨h.move (by rw [hpc]; exact congrArg some hcell) ?_, Or.inl ⟨rfl, rfl⟩⟩
      intro b l r hinside hends
      cases hinside
      exact hends
    · cases hstep
  | release =>
    simp only [step] at hstep
    split at hstep
    · rename_i i hpc
      obtain rfl := Option.some.inj hstep
      exact ⟨h.release hpc, Or.inl ⟨rfl, rfl⟩⟩
    · cases hstep

/-- **Every interleaving is serial**, in the order in which the operations end. -/
theorem run_serial {cells : ι → σ} {labels : List (τ × Act α)} {s : Cells ι σ α ℓ ν τ}
    (hrun : Run (fun s label s' => step code s label = some s') (Cells.init cells) labels s) :
    Locked code s ∧ Run (Serial code) cells s.log s.cells := by
  refine Run.invariant (P := fun s => Locked code s ∧ Run (Serial code) cells s.log s.cells)
    ?_ hrun ⟨locked_init cells, Run.nil cells⟩
  rintro s label s' hstep ⟨h, hserial⟩
  obtain ⟨h', ⟨hcells, hlog⟩ | ⟨entry, hlog, hentry⟩⟩ := step_serial h hstep
  · exact ⟨h', by rwa [hcells, hlog]⟩
  · refine ⟨h', ?_⟩
    rw [hlog]
    exact Run.concat_iff.2 ⟨s.cells, hserial, hentry⟩

/-- **Nobody waits for a thread that cannot go on.**  A lock that is not free is held by a thread
that has a step to take. -/
theorem Locked.progress {s : Cells ι σ α ℓ ν τ} (h : Locked code s) {t : τ} {i : ι}
    (howner : s.owner i = some t) : ∃ act s', step code s (t, act) = some s' := by
  have hheld := (h.owner_iff t i).1 howner
  rcases hpc : s.pc t with - | a | ⟨a, l⟩ | j
  · rw [hpc] at hheld
    cases hheld
  · rw [hpc] at hheld
    cases hheld
  · refine ⟨.micro, ?_⟩
    rcases hmicro : code.micro l (s.cells (code.cell a)) with l' | ⟨x, v⟩ <;>
      simp [step, hpc, hmicro]
  · exact ⟨.release, by simp [step, hpc]⟩

end CellCode
