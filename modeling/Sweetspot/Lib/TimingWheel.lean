import Mathlib.Algebra.BigOperators.Group.Finset.Piecewise
import Mathlib.Algebra.Order.Group.Multiset
import Mathlib.Data.List.Induction
import Mathlib.Data.Nat.ModEq
import Mathlib.Tactic.Abel
import Mathlib.Tactic.Common

/-!
# Timing wheels

A wheel has `n` slots, each a stack, and a cursor that goes round them.  What is put `k < n` slots
ahead of the cursor comes out when the cursor leaves that slot, at the tick after `k` more.

* `put`, `tick`: the two operations.
* `pending`: what is to come out after `k` more ticks, read off the history alone.
* `slots_run`, `fst_tick_run`: the slots of a wheel, and what it gives, are what its history says.
* `places`: the slots of a history, counted from its start; `pairwise_output_iff` reads the order of
  all that comes out off them.
* `entries`: all that is in a wheel, with `entries_put` and `entries_tick`.
-/

/-- `n` slots and a cursor. -/
structure TimingWheel (ε : Type*) (n : ℕ) where
  cursor : ℕ
  slots : ℕ → List ε
  cursor_lt : cursor < n

/-- What is done to a wheel. -/
inductive WheelOp (ε : Type*)
  | put (k : ℕ) (e : ε)
  | tick

namespace TimingWheel

variable {ε : Type*} {n : ℕ}

/-- The slot that is `k` ahead of the cursor. -/
def ahead (w : TimingWheel ε n) (k : ℕ) : ℕ := (w.cursor + k) % n

/-- A new entry, on top of its slot. -/
def put (w : TimingWheel ε n) (k : ℕ) (e : ε) : TimingWheel ε n :=
  { w with slots := Function.update w.slots (w.ahead k) (e :: w.slots (w.ahead k)) }

/-- What is at the cursor comes out, the top first, and the cursor moves on. -/
def tick (w : TimingWheel ε n) : List ε × TimingWheel ε n :=
  (w.slots w.cursor,
    { cursor := (w.cursor + 1) % n
      slots := Function.update w.slots w.cursor []
      cursor_lt := Nat.mod_lt _ (Nat.zero_lt_of_lt w.cursor_lt) })

def exec (w : TimingWheel ε n) : WheelOp ε → TimingWheel ε n
  | .put k e => w.put k e
  | .tick => w.tick.2

/-- A wheel with nothing in it. -/
def empty (hn : 0 < n) : TimingWheel ε n := ⟨0, fun _ => [], hn⟩

/-- The wheel after a history. -/
def run (hn : 0 < n) (ops : List (WheelOp ε)) : TimingWheel ε n := ops.foldl exec (empty hn)

@[simp] theorem run_concat (hn : 0 < n) (ops : List (WheelOp ε)) (op : WheelOp ε) :
    run hn (ops ++ [op]) = (run hn ops).exec op := by
  rw [run, List.foldl_append, List.foldl_cons, List.foldl_nil, run]

/-- The same wheel with other entries. -/
def map {δ : Type*} (f : ε → δ) (w : TimingWheel ε n) : TimingWheel δ n :=
  ⟨w.cursor, fun i => (w.slots i).map f, w.cursor_lt⟩

/-! ## Slots -/

variable (w : TimingWheel ε n) {j k : ℕ}

theorem ahead_lt : w.ahead k < n := Nat.mod_lt _ (Nat.zero_lt_of_lt w.cursor_lt)

@[simp] theorem ahead_zero : w.ahead 0 = w.cursor := Nat.mod_eq_of_lt w.cursor_lt

/-- A sum that passes the last slot goes on from the first. -/
theorem ahead_eq (hk : k < n) :
    w.ahead k = if n ≤ w.cursor + k then w.cursor + k - n else w.cursor + k := by
  have hcursor := w.cursor_lt
  rw [ahead]
  split
  · rename_i hwrap
    rw [Nat.mod_eq_sub_mod hwrap, Nat.mod_eq_of_lt (by omega)]
  · rename_i hsmall
    exact Nat.mod_eq_of_lt (by omega)

theorem ahead_inj (hj : j < n) (hk : k < n) : w.ahead j = w.ahead k ↔ j = k := by
  constructor
  · intro h
    have hmod : j % n = k % n := Nat.ModEq.add_left_cancel' w.cursor h
    rwa [Nat.mod_eq_of_lt hj, Nat.mod_eq_of_lt hk] at hmod
  · rintro rfl
    rfl

theorem slots_put (e : ε) (hj : j < n) (hk : k < n) :
    (w.put j e).slots ((w.put j e).ahead k) =
      if j = k then e :: w.slots (w.ahead k) else w.slots (w.ahead k) := by
  show Function.update w.slots (w.ahead j) _ (w.ahead k) = _
  by_cases hjk : j = k
  · subst hjk
    rw [Function.update_self, if_pos rfl]
  · have hne : w.ahead k ≠ w.ahead j := fun h => hjk ((w.ahead_inj hk hj).1 h).symm
    rw [Function.update_of_ne hne, if_neg hjk]

theorem ahead_tick : w.tick.2.ahead k = w.ahead (k + 1) := by
  show ((w.cursor + 1) % n + k) % n = (w.cursor + (k + 1)) % n
  rw [Nat.mod_add_mod]
  congr 1
  omega

/-- After a tick every slot is one nearer; the one that was left is empty, and the last. -/
theorem slots_tick (hk : k < n) :
    w.tick.2.slots (w.tick.2.ahead k) = if k + 1 = n then [] else w.slots (w.ahead (k + 1)) := by
  rw [ahead_tick]
  show Function.update w.slots w.cursor [] (w.ahead (k + 1)) = _
  by_cases hlast : k + 1 = n
  · have hsame : w.ahead (k + 1) = w.cursor := by
      rw [hlast, ahead, Nat.add_mod_right, Nat.mod_eq_of_lt w.cursor_lt]
    rw [hsame, Function.update_self, if_pos hlast]
  · have hne : w.ahead (k + 1) ≠ w.cursor := by
      rw [← w.ahead_zero, Ne, w.ahead_inj (by omega) (by omega)]
      omega
    rw [Function.update_of_ne hne, if_neg hlast]

section Map

variable {δ : Type*} (f : ε → δ)

theorem map_put (e : ε) : (w.put k e).map f = (w.map f).put k (f e) := by
  have hslots : (fun i => ((w.put k e).slots i).map f) = ((w.map f).put k (f e)).slots := by
    funext i
    show List.map f (Function.update w.slots (w.ahead k) _ i) =
      Function.update (fun i => (w.slots i).map f) (w.ahead k) _ i
    by_cases hi : i = w.ahead k
    · rw [hi, Function.update_self, Function.update_self]
      rfl
    · rw [Function.update_of_ne hi, Function.update_of_ne hi]
  exact congrArg (fun slots => (⟨w.cursor, slots, w.cursor_lt⟩ : TimingWheel δ n)) hslots

theorem map_tick : (w.map f).tick = (w.tick.1.map f, w.tick.2.map f) := by
  have hslots : (w.map f).tick.2.slots = fun i => (w.tick.2.slots i).map f := by
    funext i
    show Function.update (fun i => (w.slots i).map f) w.cursor [] i =
      List.map f (Function.update w.slots w.cursor [] i)
    by_cases hi : i = w.cursor
    · rw [hi, Function.update_self, Function.update_self]
      rfl
    · rw [Function.update_of_ne hi, Function.update_of_ne hi]
  refine Prod.ext rfl ?_
  exact congrArg (fun slots => (⟨_, slots, w.tick.2.cursor_lt⟩ : TimingWheel δ n)) hslots

end Map

/-! ## Histories -/

/-- The ticks of a history. -/
def ticks : List (WheelOp ε) → ℕ
  | [] => 0
  | .put _ _ :: ops => ticks ops
  | .tick :: ops => ticks ops + 1

/-- What is to come out after `k` more ticks, in the order it was put in. -/
def pending (k : ℕ) : List (WheelOp ε) → List ε
  | [] => []
  | .put j e :: ops => if j = ticks ops + k then e :: pending k ops else pending k ops
  | .tick :: ops => pending k ops

@[simp] theorem ticks_concat_put (ops : List (WheelOp ε)) (j : ℕ) (e : ε) :
    ticks (ops ++ [.put j e]) = ticks ops := by
  induction ops with
  | nil => rfl
  | cons op ops ih => cases op <;> simp [ticks, ih]

@[simp] theorem ticks_concat_tick (ops : List (WheelOp ε)) :
    ticks (ops ++ [.tick]) = ticks ops + 1 := by
  induction ops with
  | nil => rfl
  | cons op ops ih => cases op <;> simp [ticks, ih]

theorem pending_concat_put (ops : List (WheelOp ε)) (j k : ℕ) (e : ε) :
    pending k (ops ++ [.put j e]) = pending k ops ++ if j = k then [e] else [] := by
  induction ops with
  | nil => simp [pending, ticks]
  | cons op ops ih =>
    cases op with
    | put i e' =>
      simp only [List.cons_append, pending, ticks_concat_put, ih]
      split <;> rfl
    | tick => simp only [List.cons_append, pending, ih]

theorem pending_concat_tick (ops : List (WheelOp ε)) (k : ℕ) :
    pending k (ops ++ [.tick]) = pending (k + 1) ops := by
  induction ops with
  | nil => rfl
  | cons op ops ih =>
    cases op with
    | put i e =>
      have hcond : i = ticks ops + 1 + k ↔ i = ticks ops + (k + 1) := by omega
      simp only [List.cons_append, pending, ticks_concat_tick, ih, hcond]
    | tick => simp only [List.cons_append, pending, ih]

/-- Nothing is put that far ahead. -/
theorem pending_eq_nil {ops : List (WheelOp ε)} (hops : ∀ j e, .put j e ∈ ops → j < n)
    (hk : n ≤ k) : pending k ops = [] := by
  induction ops with
  | nil => rfl
  | cons op ops ih =>
    have hrest := ih fun j e h => hops j e (List.mem_cons_of_mem _ h)
    cases op with
    | put j e =>
      have hj := hops j e List.mem_cons_self
      rw [pending, if_neg (by omega), hrest]
    | tick => exact hrest

/-- **The slots are what the history says.** -/
theorem slots_run (hn : 0 < n) {ops : List (WheelOp ε)} (hops : ∀ j e, .put j e ∈ ops → j < n)
    (hk : k < n) : (run hn ops).slots ((run hn ops).ahead k) = (pending k ops).reverse := by
  induction ops using List.reverseRecOn generalizing k with
  | nil => rfl
  | append_singleton ops op ih =>
    have hops' : ∀ j e, .put j e ∈ ops → j < n := fun j e h =>
      hops j e (List.mem_append_left _ h)
    rw [run_concat]
    cases op with
    | put j e =>
      have hj : j < n := hops j e (by simp)
      rw [exec, slots_put _ e hj hk, pending_concat_put, ih hops' hk]
      split <;> simp
    | tick =>
      rw [exec, slots_tick _ hk, pending_concat_tick]
      split
      · rename_i hlast
        rw [pending_eq_nil hops' (by omega), List.reverse_nil]
      · exact ih hops' (by omega)

/-- **What a tick gives** is what was put in so many ticks ago, the last first. -/
theorem fst_tick_run (hn : 0 < n) {ops : List (WheelOp ε)}
    (hops : ∀ j e, .put j e ∈ ops → j < n) : (run hn ops).tick.1 = (pending 0 ops).reverse := by
  rw [← slots_run hn hops hn, ahead_zero]
  rfl

/-! ## The order of what comes out -/

/-- All that a wheel gives. -/
def output (w : TimingWheel ε n) : List (WheelOp ε) → List ε
  | [] => []
  | .put k e :: ops => output (w.put k e) ops
  | .tick :: ops => w.tick.1 ++ output w.tick.2 ops

/-- The slots that are filled after `c` ticks and more, counted from the first tick on. -/
def places (c : ℕ) : List (WheelOp ε) → List (ℕ × ε)
  | [] => []
  | .put k e :: ops => (c + k, e) :: places c ops
  | .tick :: ops => places (c + 1) ops

theorem output_concat_put (ops : List (WheelOp ε)) (k : ℕ) (e : ε) :
    w.output (ops ++ [.put k e]) = w.output ops := by
  induction ops generalizing w with
  | nil => rfl
  | cons op ops ih => cases op <;> simp [output, ih]

theorem output_concat_tick (ops : List (WheelOp ε)) :
    w.output (ops ++ [.tick]) = w.output ops ++ (ops.foldl exec w).tick.1 := by
  induction ops generalizing w with
  | nil => simp [output]
  | cons op ops ih => cases op <;> simp [output, ih, exec]

theorem places_concat_put (c : ℕ) (ops : List (WheelOp ε)) (k : ℕ) (e : ε) :
    places c (ops ++ [.put k e]) = places c ops ++ [(c + ticks ops + k, e)] := by
  induction ops generalizing c with
  | nil => rfl
  | cons op ops ih =>
    cases op with
    | put j e' => rw [List.cons_append, places, ih, places, ticks, List.cons_append]
    | tick =>
      have hsum : c + 1 + ticks ops + k = c + (ticks ops + 1) + k := by omega
      rw [List.cons_append, places, ih, places, ticks, hsum]

theorem places_concat_tick (c : ℕ) (ops : List (WheelOp ε)) :
    places c (ops ++ [.tick]) = places c ops := by
  induction ops generalizing c with
  | nil => rfl
  | cons op ops ih => cases op <;> simp [places, ih]

/-- What is pending is in the slot that many ticks ahead. -/
theorem pending_eq_places (c k : ℕ) (ops : List (WheelOp ε)) :
    pending k ops = ((places c ops).filter fun x => x.1 = c + ticks ops + k).map Prod.snd := by
  induction ops generalizing c with
  | nil => rfl
  | cons op ops ih =>
    cases op with
    | put j e =>
      rw [pending, places, ticks, List.filter_cons, ih c]
      by_cases hj : j = ticks ops + k
      · have hslot : c + j = c + ticks ops + k := by omega
        simp [hj, add_assoc]
      · have hslot : c + j ≠ c + ticks ops + k := by omega
        simp [hj, hslot]
    | tick =>
      have hsum : c + (ticks ops + 1) + k = c + 1 + ticks ops + k := by omega
      rw [pending, places, ticks, hsum]
      exact ih (c + 1)

theorem mem_pending_iff {ops : List (WheelOp ε)} {e : ε} :
    e ∈ pending 0 ops ↔ ∃ x ∈ places 0 ops, x.1 = ticks ops ∧ x.2 = e := by
  rw [pending_eq_places 0, List.mem_map]
  simp only [zero_add, add_zero, List.mem_filter, decide_eq_true_eq, and_assoc]

/-- What came out was in a slot that has been left. -/
theorem mem_output_iff (hn : 0 < n) {ops : List (WheelOp ε)}
    (hops : ∀ j e, .put j e ∈ ops → j < n) {e : ε} :
    e ∈ (empty hn : TimingWheel ε n).output ops ↔
      ∃ x ∈ places 0 ops, x.1 < ticks ops ∧ x.2 = e := by
  induction ops using List.reverseRecOn with
  | nil => simp [output, places]
  | append_singleton ops op ih =>
    have hops' : ∀ j e, .put j e ∈ ops → j < n := fun j e h =>
      hops j e (List.mem_append_left _ h)
    cases op with
    | put k e' =>
      rw [output_concat_put, ih hops', places_concat_put, ticks_concat_put]
      constructor
      · rintro ⟨x, hx, hlt⟩
        exact ⟨x, List.mem_append_left _ hx, hlt⟩
      · rintro ⟨x, hx, hlt, rfl⟩
        rcases List.mem_append.1 hx with hx | hx
        · exact ⟨x, hx, hlt, rfl⟩
        · obtain rfl := List.mem_singleton.1 hx
          have hlt' : 0 + ticks ops + k < ticks ops := hlt
          omega
    | tick =>
      have hlast : (ops.foldl exec (empty hn)).tick.1 = (pending 0 ops).reverse :=
        fst_tick_run hn hops'
      rw [output_concat_tick, hlast, List.mem_append, List.mem_reverse, ih hops', mem_pending_iff,
        places_concat_tick, ticks_concat_tick]
      constructor
      · rintro (⟨x, hx, hlt, rfl⟩ | ⟨x, hx, hlt, rfl⟩)
        · exact ⟨x, hx, by omega, rfl⟩
        · exact ⟨x, hx, by omega, rfl⟩
      · rintro ⟨x, hx, hlt, rfl⟩
        rcases Nat.lt_succ_iff_lt_or_eq.1 hlt with hlt | heq
        · exact .inl ⟨x, hx, hlt, rfl⟩
        · exact .inr ⟨x, hx, heq, rfl⟩

/-- Of two entries, in the order they were put in, which comes out first: slots come out one after
the other, each from its top. -/
def Ordered (R : ε → ε → Prop) (x y : ℕ × ε) : Prop := if x.1 < y.1 then R x.2 y.2 else R y.2 x.2

/-- One more slot: what is in it comes out after what is in the slots before, the last first. -/
theorem pairwise_ordered_succ (R : ε → ε → Prop) (t : ℕ) (l : List (ℕ × ε)) :
    l.Pairwise (fun x y => x.1 < t + 1 → y.1 < t + 1 → Ordered R x y) ↔
      l.Pairwise (fun x y => x.1 < t → y.1 < t → Ordered R x y) ∧
      l.Pairwise (fun x y => x.1 = t → y.1 = t → R y.2 x.2) ∧
      ∀ x ∈ l, x.1 < t → ∀ y ∈ l, y.1 = t → R x.2 y.2 := by
  constructor
  · intro h
    refine ⟨?_, ?_, ?_⟩
    · exact h.imp fun hxy hx hy => hxy (by omega) (by omega)
    · refine h.imp fun {x y} hxy hx hy => ?_
      have hordered := hxy (by omega) (by omega)
      rwa [Ordered, if_neg (by omega)] at hordered
    · -- whichever of the two was put in first
      have hforth : l.Pairwise fun x y => x.1 < t → y.1 = t → R x.2 y.2 := by
        refine h.imp fun {x y} hxy hx hy => ?_
        have hordered := hxy (by omega) (by omega)
        rwa [Ordered, if_pos (by omega)] at hordered
      have hback : l.Pairwise (flip fun x y => x.1 < t → y.1 = t → R x.2 y.2) := by
        refine h.imp fun {x y} hxy hy hx => ?_
        have hordered := hxy (by omega) (by omega)
        rwa [Ordered, if_neg (by omega)] at hordered
      have hall := List.Pairwise.forall_of_forall_of_flip
        (fun x _ hlt heq => absurd heq (by omega)) hforth hback
      exact fun x hx hxt y hy hyt => hall hx hy hxt hyt
  · rintro ⟨hbelow, hlast, hcross⟩
    refine (hbelow.and hlast).imp_of_mem ?_
    rintro x y hx hy ⟨hxy, hsame⟩ hxt hyt
    by_cases hx' : x.1 < t
    · by_cases hy' : y.1 < t
      · exact hxy hx' hy'
      · rw [Ordered, if_pos (by omega)]
        exact hcross x hx hx' y hy (by omega)
    · rw [Ordered, if_neg (by omega)]
      by_cases hy' : y.1 < t
      · exact hcross y hy hy' x hx (by omega)
      · exact hsame (by omega) (by omega)

/-- **The order of what comes out**, read off the slots that have been left. -/
theorem pairwise_output_iff (hn : 0 < n) (R : ε → ε → Prop) {ops : List (WheelOp ε)}
    (hops : ∀ j e, .put j e ∈ ops → j < n) :
    ((empty hn : TimingWheel ε n).output ops).Pairwise R ↔
      (places 0 ops).Pairwise fun x y => x.1 < ticks ops → y.1 < ticks ops → Ordered R x y := by
  induction ops using List.reverseRecOn with
  | nil => simp [output, places]
  | append_singleton ops op ih =>
    have hops' : ∀ j e, .put j e ∈ ops → j < n := fun j e h =>
      hops j e (List.mem_append_left _ h)
    cases op with
    | put k e =>
      -- the new entry is in a slot that is still to come
      rw [output_concat_put, ih hops', places_concat_put, ticks_concat_put, List.pairwise_append]
      simp only [List.pairwise_singleton, List.mem_singleton, true_and]
      refine (and_iff_left ?_).symm
      rintro x - y rfl hx hy
      omega
    | tick =>
      have hlast : (ops.foldl exec (empty hn)).tick.1 = (pending 0 ops).reverse :=
        fst_tick_run hn hops'
      rw [output_concat_tick, hlast, List.pairwise_append, ih hops', places_concat_tick,
        ticks_concat_tick, pairwise_ordered_succ, List.pairwise_reverse]
      refine and_congr_right fun _ => and_congr ?_ ?_
      · rw [pending_eq_places 0, List.pairwise_map, List.pairwise_filter]
        simp only [zero_add, add_zero, decide_eq_true_eq]
      · simp only [List.mem_reverse, mem_output_iff hn hops', mem_pending_iff]
        constructor
        · exact fun h x hx hlt y hy heq => h x.2 ⟨x, hx, hlt, rfl⟩ y.2 ⟨y, hy, heq, rfl⟩
        · rintro h _ ⟨x, hx, hlt, rfl⟩ _ ⟨y, hy, heq, rfl⟩
          exact h x hx hlt y hy heq

/-! ## Entries -/

/-- All that is in the slots. -/
def entries (w : TimingWheel ε n) : Multiset ε := ∑ i ∈ Finset.range n, (w.slots i : Multiset ε)

/-- A slot that changes. -/
theorem sum_update (slots : ℕ → List ε) {i : ℕ} (hi : i < n) (l : List ε) :
    (∑ x ∈ Finset.range n, (Function.update slots i l x : Multiset ε)) + slots i =
      (∑ x ∈ Finset.range n, (slots x : Multiset ε)) + l := by
  have hmem : i ∈ Finset.range n := Finset.mem_range.2 hi
  rw [← Finset.add_sum_erase _ _ hmem, ← Finset.add_sum_erase (Finset.range n) _ hmem,
    Function.update_self]
  have hrest : ∑ x ∈ (Finset.range n).erase i, (Function.update slots i l x : Multiset ε) =
      ∑ x ∈ (Finset.range n).erase i, (slots x : Multiset ε) := by
    refine Finset.sum_congr rfl fun x hx => ?_
    rw [Function.update_of_ne (Finset.ne_of_mem_erase hx)]
  rw [hrest]
  abel

@[simp] theorem entries_empty (hn : 0 < n) : (empty hn : TimingWheel ε n).entries = 0 := by
  simp [entries, empty]

theorem entries_put (e : ε) : (w.put k e).entries = e ::ₘ w.entries := by
  have hsum := sum_update w.slots (@ahead_lt _ _ w k) (e :: w.slots (w.ahead k))
  rw [← Multiset.cons_coe, Multiset.add_cons, ← Multiset.cons_add] at hsum
  exact add_right_cancel hsum

theorem entries_map {δ : Type*} (f : ε → δ) : (w.map f).entries = w.entries.map f := by
  rw [entries, entries, ← Multiset.coe_mapAddMonoidHom, map_sum]
  rfl

theorem entries_tick : w.entries = ↑w.tick.1 + w.tick.2.entries := by
  have hsum := sum_update w.slots w.cursor_lt []
  rw [Multiset.coe_nil, add_zero, add_comm] at hsum
  exact hsum.symm

-- a sum over all slots is not to be unfolded when they are many
attribute [irreducible] entries

end TimingWheel
