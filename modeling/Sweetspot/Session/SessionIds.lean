import Mathlib.Logic.Function.Basic
import Sweetspot.Lib.Run
import Sweetspot.Session.Controller

/-!
# Session ids under concurrent calls

`next_session_id` adds one to a counter and, where the counter has left the ids, tries to set it
back to 1 and returns 1 itself.  Its two atomic operations are two steps here, of any number of
threads in any order; ids are numbered in the order in which the calls return.

* `IdCounter`, `step`: the counter, the calls between their two operations, the ids returned.
* `run_nextIdOps`: a call that nobody comes between is `nextSessionId`.
* `IdsSpread`: every id is one, and ids that were returned close to each other differ.
* `idsSpread_iff`: that is so exactly until the counter has come round.  The call that sets it
  back to 1 returns 1 as well, and the next one takes 1 from it again.
-/

namespace Sweetspot

/-- The counter of `next_session_id` and its callers. -/
structure IdCounter where
  sourceSessionId : UInt32
  /-- What a thread expects that has added to the counter and has yet to exchange it. -/
  expected : ℕ → Option UInt32
  /-- The ids of the calls that returned, in that order. -/
  returned : List UInt32

/-- One atomic operation, by the thread that performs it. -/
inductive IdOp where
  | fetchAdd (t : ℕ)
  | compareExchange (t : ℕ)
  deriving DecidableEq, Repr

/-- The call that this operation is the first of. -/
def IdOp.begins : IdOp → Bool
  | .fetchAdd _ => true
  | .compareExchange _ => false

/-- How many calls have begun. -/
def begun (ops : List IdOp) : ℕ := ops.countP IdOp.begins

namespace IdCounter

def init : IdCounter := ⟨1, fun _ => none, []⟩

/-- `next_session_id`, one atomic operation at a time.  A call returns with its last one. -/
def step (s : IdCounter) : IdOp → Option IdCounter
  | .fetchAdd t =>
    match s.expected t with
    | some _ => none
    | none =>
      let sessionId := s.sourceSessionId
      let s := { s with sourceSessionId := s.sourceSessionId + 1 }
      if sessionId ≥ 0x7fffffff then
        some { s with expected := Function.update s.expected t (some (sessionId + 1)) }
      else some { s with returned := s.returned ++ [sessionId] }
  | .compareExchange t =>
    match s.expected t with
    | none => none
    | some expected =>
      some {
        sourceSessionId := if s.sourceSessionId = expected then 1 else s.sourceSessionId
        expected := Function.update s.expected t none
        returned := s.returned ++ [1] }

/-- `step` as a relation. -/
abbrev Step (s : IdCounter) (op : IdOp) (s' : IdCounter) : Prop := s.step op = some s'

/-- What an operation can do. -/
inductive StepCases (s : IdCounter) : IdOp → IdCounter → Prop
  | take (t : ℕ) (hid : s.sourceSessionId < 0x7fffffff) :
      StepCases s (.fetchAdd t)
        { s with
          sourceSessionId := s.sourceSessionId + 1
          returned := s.returned ++ [s.sourceSessionId] }
  | pass (t : ℕ) (hid : 0x7fffffff ≤ s.sourceSessionId) :
      StepCases s (.fetchAdd t)
        { s with
          sourceSessionId := s.sourceSessionId + 1
          expected := Function.update s.expected t (some (s.sourceSessionId + 1)) }
  | exchange (t : ℕ) (e : UInt32) (he : s.expected t = some e) :
      StepCases s (.compareExchange t)
        { sourceSessionId := if s.sourceSessionId = e then 1 else s.sourceSessionId
          expected := Function.update s.expected t none
          returned := s.returned ++ [1] }

theorem stepCases {s s' : IdCounter} {op : IdOp} (h : s.Step op s') : StepCases s op s' := by
  cases op with
  | fetchAdd t =>
    rw [Step, step] at h
    split at h
    · cases h
    · dsimp only at h
      split at h
      · rename_i hid
        cases h
        exact .pass t hid
      · rename_i hid
        cases h
        exact .take t (UInt32.not_le.1 hid)
  | compareExchange t =>
    rw [Step, step] at h
    split at h
    · cases h
    · rename_i e he
      cases h
      exact .exchange t e he

/-- A call that begins below the last id. -/
theorem step_take {s : IdCounter} {t : ℕ} (ht : s.expected t = none)
    (hid : s.sourceSessionId < 0x7fffffff) :
    s.Step (.fetchAdd t)
      { s with
        sourceSessionId := s.sourceSessionId + 1
        returned := s.returned ++ [s.sourceSessionId] } := by
  rw [Step, step, ht]
  exact if_neg (UInt32.not_le.2 hid)

/-! ## A call that nobody comes between -/

/-- The operations of a whole call. -/
def nextIdOps (s : IdCounter) (t : ℕ) : List IdOp :=
  if s.sourceSessionId ≥ 0x7fffffff then [.fetchAdd t, .compareExchange t] else [.fetchAdd t]

/-- **A call of its own** returns what `nextSessionId` says and leaves the counter so. -/
theorem run_nextIdOps {s : IdCounter} {t : ℕ} (ht : s.expected t = none) :
    Run Step s (s.nextIdOps t)
      { s with
        sourceSessionId := (Controller.nextSessionId s.sourceSessionId).2
        returned := s.returned ++ [(Controller.nextSessionId s.sourceSessionId).1] } := by
  rw [nextIdOps, Controller.nextSessionId]
  split
  · rename_i hid
    have hpass : s.Step (.fetchAdd t)
        { s with
          sourceSessionId := s.sourceSessionId + 1
          expected := Function.update s.expected t (some (s.sourceSessionId + 1)) } := by
      rw [Step, step, ht]
      exact if_pos hid
    refine .cons hpass (.single ?_)
    simp only [Step, step, Function.update_self, if_pos, Function.update_idem]
    rw [← ht, Function.update_eq_self]
  · rename_i hid
    exact .single (step_take ht (UInt32.not_le.1 hid))

end IdCounter

/-! ## Ids that do not repeat early -/

/-- Every id is one, and no two returned fewer than `0x7ffffffe` calls apart are the same. -/
structure IdsSpread (ids : List UInt32) : Prop where
  range : ∀ id ∈ ids, 1 ≤ id ∧ id ≤ 0x7fffffff
  apart : ∀ i j id id', i < j → j < i + 0x7ffffffe → ids[i]? = some id → ids[j]? = some id' →
    id ≠ id'

theorem IdsSpread.of_append {ids ids' : List UInt32} (h : IdsSpread (ids ++ ids')) :
    IdsSpread ids := by
  refine ⟨fun id hid => h.range id (List.mem_append_left _ hid), ?_⟩
  intro i j id id' hij hclose hi hj
  have hext : ∀ {k : ℕ} {x : UInt32}, ids[k]? = some x → (ids ++ ids')[k]? = some x := by
    intro k x hk
    have hlt : k < ids.length := (List.getElem?_eq_some_iff.1 hk).1
    rwa [List.getElem?_append_left hlt]
  exact h.apart i j id id' hij hclose (hext hi) (hext hj)

/-- The counter's own order: `1, …, 0x7ffffffe`, and `1` once more. -/
def Numbered (ids : List UInt32) : Prop :=
  ids.length ≤ 0x7fffffff ∧
    ∀ i id, ids[i]? = some id → id.toNat = if i < 0x7ffffffe then i + 1 else 1

theorem numbered_nil : Numbered [] := ⟨by decide, by simp⟩

/-- One more id in the order. -/
theorem Numbered.concat {ids : List UInt32} {id : UInt32} (h : Numbered ids)
    (hlength : ids.length < 0x7fffffff)
    (hid : id.toNat = if ids.length < 0x7ffffffe then ids.length + 1 else 1) :
    Numbered (ids ++ [id]) := by
  refine ⟨by rw [List.length_append, List.length_singleton]; omega, ?_⟩
  intro i id' hi
  rcases Nat.lt_trichotomy i ids.length with hlt | rfl | hgt
  · rw [List.getElem?_append_left hlt] at hi
    exact h.2 i id' hi
  · rw [List.getElem?_concat_length] at hi
    rwa [← Option.some.inj hi]
  · rw [List.getElem?_eq_none (by rw [List.length_append, List.length_singleton]; omega)] at hi
    cases hi

theorem Numbered.spread {ids : List UInt32} (h : Numbered ids) : IdsSpread ids := by
  constructor
  · intro id hid
    obtain ⟨i, hi⟩ := List.mem_iff_getElem?.1 hid
    have hid' := h.2 i id hi
    have hlt : i < ids.length := (List.getElem?_eq_some_iff.1 hi).1
    have hlast := h.1
    have h1 : (1 : UInt32).toNat = 1 := rfl
    have hmax : (0x7fffffff : UInt32).toNat = 0x7fffffff := rfl
    rw [UInt32.le_iff_toNat_le, UInt32.le_iff_toNat_le, h1, hmax]
    split at hid' <;> omega
  · rintro i j id id' hij hclose hi hj rfl
    have hi' := h.2 i id hi
    have hj' := h.2 j id hj
    have hlt : j < ids.length := (List.getElem?_eq_some_iff.1 hj).1
    have hlast := h.1
    split at hi' <;> split at hj' <;> omega

/-- A full order ends in 1. -/
theorem Numbered.last {ids : List UInt32} (h : Numbered ids) (hfull : ids.length = 0x7fffffff) :
    ids[0x7ffffffe]? = some 1 := by
  have hlt : 0x7ffffffe < ids.length := by omega
  obtain ⟨id, hid⟩ : ∃ id, ids[0x7ffffffe]? = some id := ⟨_, List.getElem?_eq_getElem hlt⟩
  have h1 := h.2 _ id hid
  rw [if_neg (Nat.lt_irrefl _)] at h1
  rw [hid, Option.some.injEq, ← UInt32.toNat_inj, h1]
  rfl

/-- After a full order 1 comes too early. -/
theorem Numbered.not_spread_concat_one {ids : List UInt32} (h : Numbered ids)
    (hfull : ids.length = 0x7fffffff) : ¬ IdsSpread (ids ++ [1]) := by
  intro hspread
  refine hspread.apart 0x7ffffffe 0x7fffffff 1 1 (by decide) (by decide) ?_ ?_ rfl
  · rw [List.getElem?_append_left (by omega), h.last hfull]
  · rw [← hfull, List.getElem?_concat_length]

theorem not_spread_concat_zero (ids : List UInt32) : ¬ IdsSpread (ids ++ [0]) := by
  intro hspread
  exact absurd (hspread.range 0 (by simp)).1 (by decide)

/-! ## A run of the counter -/

namespace IdCounter

/-- Where the counter stands after `n` calls have begun, before it has come round. -/
inductive Phase (n : ℕ) (s : IdCounter) : Prop
  /-- Every call returned with the id it took. -/
  | counting (hlength : s.returned.length = n) (hn : n ≤ 0x7ffffffe)
      (hsource : s.sourceSessionId.toNat = n + 1) (hidle : ∀ t, s.expected t = none)
  /-- Some calls have left the ids behind, and none of them returned. -/
  | passing (hlength : s.returned.length = 0x7ffffffe) (hn : 0x7ffffffe < n)
      (hsource : s.sourceSessionId.toNat = (n + 1) % 2 ^ 32)
  /-- One of them returned. -/
  | round (hlength : s.returned.length = 0x7fffffff) (hn : 0x7ffffffe < n)
      (hsource : s.sourceSessionId = 1 ∨ s.sourceSessionId.toNat = (n + 1) % 2 ^ 32)

/-- The ids are in order so far. -/
structure InOrder (n : ℕ) (s : IdCounter) : Prop where
  begun_lt : n < 2 ^ 32
  numbered : Numbered s.returned
  phase : Phase n s

/-- The counter has come round, and the ids show it. -/
def Broken (n : ℕ) (s : IdCounter) : Prop :=
  ¬ IdsSpread s.returned ∧ ¬ (s.returned.length ≤ 0x7fffffff ∧ n < 2 ^ 32)

theorem inOrder_init : InOrder 0 init :=
  ⟨by decide, numbered_nil, .counting rfl (by decide) rfl fun _ => rfl⟩

/-- A first operation while the ids are in order. -/
theorem InOrder.take {n : ℕ} {s : IdCounter} (h : InOrder n s)
    (hid : s.sourceSessionId < 0x7fffffff) :
    let s' := { s with
      sourceSessionId := s.sourceSessionId + 1
      returned := s.returned ++ [s.sourceSessionId] }
    InOrder (n + 1) s' ∨ Broken (n + 1) s' := by
  have hlast : (0x7fffffff : UInt32).toNat = 0x7fffffff := rfl
  rw [UInt32.lt_iff_toNat_lt, hlast] at hid
  have hn := h.begun_lt
  have hzero : s.sourceSessionId.toNat = (n + 1) % 2 ^ 32 → 0x7ffffffe < n →
      s.sourceSessionId = 0 ∧ ¬ n + 1 < 2 ^ 32 := by
    intro hsource hpast
    have hback : n + 1 = 2 ^ 32 := by omega
    rw [hback, Nat.mod_self] at hsource
    exact ⟨UInt32.toNat_inj.1 hsource, by omega⟩
  rcases h.phase with ⟨hlength, hle, hsource, hidle⟩ | ⟨hlength, hpast, hsource⟩ |
    ⟨hlength, hpast, hone | hsource⟩
  · left
    have hnext : (s.sourceSessionId + 1).toNat = n + 1 + 1 := by
      rw [UInt32.toNat_add, UInt32.toNat_one]
      omega
    refine ⟨by omega, h.numbered.concat (by omega) ?_, .counting ?_ (by omega) hnext hidle⟩
    · rw [if_pos (by omega), hlength, hsource]
    · rw [List.length_append, hlength, List.length_singleton]
  · obtain ⟨h0, hround⟩ := hzero hsource hpast
    right
    refine ⟨?_, fun hbound => hround hbound.2⟩
    rw [h0]
    exact not_spread_concat_zero _
  · right
    refine ⟨?_, fun hbound => ?_⟩
    · rw [hone]
      exact h.numbered.not_spread_concat_one hlength
    · rw [List.length_append, List.length_singleton, hlength] at hbound
      exact absurd hbound.1 (by decide)
  · obtain ⟨h0, hround⟩ := hzero hsource hpast
    right
    refine ⟨?_, fun hbound => hround hbound.2⟩
    rw [h0]
    exact not_spread_concat_zero _

/-- A first operation that finds the counter past the ids. -/
theorem InOrder.pass {n : ℕ} {s : IdCounter} (h : InOrder n s)
    (hid : 0x7fffffff ≤ s.sourceSessionId) (expected : ℕ → Option UInt32) :
    InOrder (n + 1) { s with sourceSessionId := s.sourceSessionId + 1, expected := expected } := by
  have hlast : (0x7fffffff : UInt32).toNat = 0x7fffffff := rfl
  rw [UInt32.le_iff_toNat_le, hlast] at hid
  have hn := h.begun_lt
  have hnext : s.sourceSessionId.toNat = (n + 1) % 2 ^ 32 →
      n + 1 < 2 ^ 32 ∧ (s.sourceSessionId + 1).toNat = (n + 1 + 1) % 2 ^ 32 := by
    intro hsource
    rw [UInt32.toNat_add, UInt32.toNat_one]
    omega
  rcases h.phase with ⟨hlength, hle, hsource, hidle⟩ | ⟨hlength, hpast, hsource⟩ |
    ⟨hlength, hpast, hone | hsource⟩
  · obtain ⟨hlt, hnext⟩ := hnext (by omega)
    exact ⟨hlt, h.numbered, .passing (by rw [hlength]; omega) (by omega) hnext⟩
  · obtain ⟨hlt, hnext⟩ := hnext hsource
    exact ⟨hlt, h.numbered, .passing hlength (by omega) hnext⟩
  · rw [hone, UInt32.toNat_one] at hid
    exact absurd hid (by decide)
  · obtain ⟨hlt, hnext⟩ := hnext hsource
    exact ⟨hlt, h.numbered, .round hlength (by omega) (Or.inr hnext)⟩

/-- A second operation while the ids are in order. -/
theorem InOrder.exchange {n : ℕ} {s : IdCounter} (h : InOrder n s) {t : ℕ} {e : UInt32}
    (he : s.expected t = some e) (expected : ℕ → Option UInt32) :
    let s' : IdCounter :=
      { sourceSessionId := if s.sourceSessionId = e then 1 else s.sourceSessionId
        expected := expected
        returned := s.returned ++ [1] }
    InOrder n s' ∨ Broken n s' := by
  have hone : (1 : UInt32).toNat = 1 := rfl
  rcases h.phase with ⟨-, -, -, hidle⟩ | ⟨hlength, hpast, hsource⟩ | ⟨hlength, hpast, hsource⟩
  · rw [hidle t] at he
    cases he
  · left
    refine ⟨h.begun_lt, h.numbered.concat (by omega) ?_, .round ?_ hpast ?_⟩
    · rw [if_neg (by omega), hone]
    · rw [List.length_append, hlength, List.length_singleton]
    · dsimp only
      split
      · exact Or.inl rfl
      · exact Or.inr hsource
  · right
    refine ⟨h.numbered.not_spread_concat_one hlength, fun hbound => ?_⟩
    rw [List.length_append, hlength] at hbound
    exact absurd hbound.1 (by decide)

/-- Nothing mends the ids that were returned. -/
theorem Broken.step {n : ℕ} {s s' : IdCounter} {op : IdOp} (h : Broken n s) (hstep : s.Step op s')
    {n' : ℕ} (hn : n ≤ n') : Broken n' s' := by
  obtain ⟨ids, hids⟩ : ∃ ids, s'.returned = s.returned ++ ids := by
    cases stepCases hstep with
    | take t hid => exact ⟨_, rfl⟩
    | pass t hid => exact ⟨[], (List.append_nil _).symm⟩
    | exchange t e he => exact ⟨_, rfl⟩
  rw [Broken, hids]
  refine ⟨fun hspread => h.1 hspread.of_append, fun hbound => h.2 ⟨?_, by omega⟩⟩
  rw [List.length_append] at hbound
  omega

/-- **The ids of a run** are in the counter's order, or show that it has come round. -/
theorem inOrder_or_broken {ops : List IdOp} {s : IdCounter} (hrun : Run Step init ops s) :
    InOrder (begun ops) s ∨ Broken (begun ops) s := by
  refine hrun.history (P := fun ops s => InOrder (begun ops) s ∨ Broken (begun ops) s)
    (Or.inl inOrder_init) ?_
  intro ops s op s' _ ih hstep
  have hbegun : begun (ops ++ [op]) = begun ops + (if op.begins then 1 else 0) := by
    rw [begun, List.countP_append, List.countP_singleton, begun]
  rw [hbegun]
  rcases ih with horder | hbroken
  · cases stepCases hstep with
    | take t hid => exact horder.take hid
    | pass t hid => exact Or.inl (horder.pass hid _)
    | exchange t e he => exact horder.exchange he _
  · exact Or.inr (hbroken.step hstep (Nat.le_add_right _ _))

/-- **Session ids do not repeat early** exactly as long as at most `0x7fffffff` calls have
returned and fewer than `2 ^ 32` have begun. -/
theorem idsSpread_iff {ops : List IdOp} {s : IdCounter} (hrun : Run Step init ops s) :
    IdsSpread s.returned ↔ s.returned.length ≤ 0x7fffffff ∧ begun ops < 2 ^ 32 := by
  rcases inOrder_or_broken hrun with horder | hbroken
  · exact iff_of_true horder.numbered.spread ⟨horder.numbered.1, horder.begun_lt⟩
  · exact iff_of_false hbroken.1 hbroken.2

/-- Two threads, one call each. -/
theorem idsSpread_iff_two :
    ∃ s, Run Step init [.fetchAdd 0, .fetchAdd 1] s ∧ s.returned = [1, 2] ∧
      (IdsSpread s.returned ↔
        s.returned.length ≤ 0x7fffffff ∧ begun [.fetchAdd 0, .fetchAdd 1] < 2 ^ 32) := by
  have hrun : Run Step init [.fetchAdd 0, .fetchAdd 1] ⟨3, fun _ => none, [1, 2]⟩ :=
    Run.of_foldlM rfl
  exact ⟨_, hrun, rfl, idsSpread_iff hrun⟩

/-- One thread that makes one call after the other. -/
theorem run_calls (n : ℕ) :
    ∃ ops s, Run Step init ops s ∧ (∀ t, s.expected t = none) ∧ s.returned.length = n := by
  induction n with
  | zero => exact ⟨[], init, .nil _, fun _ => rfl, rfl⟩
  | succ n ih =>
    obtain ⟨ops, s, hrun, hidle, hlength⟩ := ih
    refine ⟨ops ++ s.nextIdOps 0, _, Run.append_iff.2 ⟨s, hrun, run_nextIdOps (hidle 0)⟩, hidle, ?_⟩
    rw [List.length_append, hlength, List.length_singleton]

/-- A lone thread gets an id twice within `0x80000000` calls. -/
theorem idsSpread_comesRound :
    ¬ ∀ ops s, Run Step init ops s → IdsSpread s.returned := by
  intro h
  obtain ⟨ops, s, hrun, -, hlength⟩ := run_calls 0x80000000
  rcases inOrder_or_broken hrun with horder | hbroken
  · have hle := horder.numbered.1
    rw [hlength] at hle
    exact absurd hle (by decide)
  · exact hbroken.1 (h ops s hrun)

end IdCounter

end Sweetspot
