import Mathlib.Data.List.Nodup
import Mathlib.Logic.Function.Basic
import Mathlib.Tactic.Common

/-!
# Singly linked lists in a heap

A heap maps addresses to nodes, and each node refers to the next one.  A list in the heap is
described by the addresses of its nodes in order.

* `Segment`: the nodes from one reference to another.
* `Segment.frame`: writing to a node elsewhere leaves a segment alone.
* `Segment.relink`: writing to the last node of a segment redirects its end.
* `lastNode`, `addresses`: the walk to the last node, and the addresses on the way; both arrive
  (`lastNode_of_segment`, `addresses_of_segment`).
-/

namespace Linked

variable {Addr Node : Type*} {next : Node → Option Addr}

/-- From the reference `p` over the nodes `as` to the reference `q`. -/
def Segment (next : Node → Option Addr) (heap : Addr → Option Node) :
    Option Addr → List Addr → Option Addr → Prop
  | p, [], q => p = q
  | p, a :: as, q => p = some a ∧ ∃ n, heap a = some n ∧ Segment next heap (next n) as q

/-- The walk from a node to the last one; `none` if it meets an address without a node, or does not
get there in `fuel` steps. -/
def lastNode (next : Node → Option Addr) (heap : Addr → Option Node) : ℕ → Addr → Option Addr
  | 0, _ => none
  | fuel + 1, p =>
    match heap p with
    | none => none
    | some n =>
      match next n with
      | none => some p
      | some p' => lastNode next heap fuel p'

/-- The addresses that the walk from a reference comes by. -/
def addresses (next : Node → Option Addr) (heap : Addr → Option Node) :
    ℕ → Option Addr → List Addr
  | 0, _ => []
  | _ + 1, none => []
  | fuel + 1, some p =>
    match heap p with
    | none => []
    | some n => p :: addresses next heap fuel (next n)

section

variable {heap : Addr → Option Node} {p q : Option Addr} {a : Addr} {as bs : List Addr}

theorem Segment.nil (p : Option Addr) : Segment next heap p [] p := rfl

/-- A list has no nodes exactly if its reference is null. -/
theorem Segment.eq_nil_iff (h : Segment next heap p as none) : as = [] ↔ p = none := by
  cases as with
  | nil => exact iff_of_true rfl h
  | cons a as => simp [h.1]

theorem Segment.isSome (h : Segment next heap p as q) (ha : a ∈ as) : (heap a).isSome := by
  induction as generalizing p with
  | nil => cases ha
  | cons b as ih =>
    obtain ⟨-, n, hn, hrest⟩ := h
    rcases List.mem_cons.mp ha with rfl | ha
    · rw [hn, Option.isSome_some]
    · exact ih hrest ha

/-- A segment splits where its addresses split. -/
theorem segment_append_iff :
    Segment next heap p (as ++ bs) q ↔
      ∃ m, Segment next heap p as m ∧ Segment next heap m bs q := by
  induction as generalizing p with
  | nil => simp [Segment]
  | cons a as ih =>
    simp only [List.cons_append, Segment, ih]
    constructor
    · rintro ⟨hp, n, hn, m, has, hbs⟩
      exact ⟨m, ⟨hp, n, hn, has⟩, hbs⟩
    · rintro ⟨m, ⟨hp, n, hn, has⟩, hbs⟩
      exact ⟨hp, n, hn, m, has, hbs⟩

theorem segment_singleton_iff :
    Segment next heap p [a] q ↔ p = some a ∧ ∃ n, heap a = some n ∧ next n = q :=
  Iff.rfl

/-- **The walk arrives** at the last node, if there are no more nodes than steps. -/
theorem lastNode_of_segment {fuel : ℕ} {b : Addr}
    (h : Segment next heap (some a) (as ++ [b]) none) (hfuel : as.length < fuel) :
    lastNode next heap fuel a = some b := by
  induction as generalizing a fuel with
  | nil =>
    obtain ⟨ha, n, hn, hnext⟩ := h
    cases ha
    obtain ⟨fuel, rfl⟩ := Nat.exists_eq_succ_of_ne_zero (Nat.ne_zero_of_lt hfuel)
    have hnone : next n = none := hnext
    simp only [lastNode, hn, hnone]
  | cons c as ih =>
    obtain ⟨ha, n, hn, hrest⟩ := h
    cases ha
    obtain ⟨fuel, rfl⟩ := Nat.exists_eq_succ_of_ne_zero (Nat.ne_zero_of_lt hfuel)
    cases hnext : next n with
    | none =>
      have hnil := hrest.eq_nil_iff.mpr hnext
      simp at hnil
    | some d =>
      rw [hnext] at hrest
      simp only [lastNode, hn, hnext]
      exact ih hrest (by simpa using hfuel)

/-- The walk comes by all nodes of a list. -/
theorem addresses_of_segment {fuel : ℕ} (h : Segment next heap p as none)
    (hfuel : as.length ≤ fuel) : addresses next heap fuel p = as := by
  induction as generalizing p fuel with
  | nil =>
    obtain rfl : p = none := h
    cases fuel <;> rfl
  | cons a as ih =>
    obtain ⟨rfl, n, hn, hrest⟩ := h
    obtain ⟨fuel, rfl⟩ := Nat.exists_eq_succ_of_ne_zero (Nat.ne_zero_of_lt hfuel)
    simp only [addresses, hn]
    rw [ih hrest (by simpa using hfuel)]

end

section Write

variable [DecidableEq Addr] {heap : Addr → Option Node} {p q : Option Addr} {a : Addr}
  {as : List Addr}

/-- **Frame.** A write elsewhere leaves a segment alone. -/
theorem Segment.frame (h : Segment next heap p as q) (ha : a ∉ as) (n : Option Node) :
    Segment next (Function.update heap a n) p as q := by
  induction as generalizing p with
  | nil => exact h
  | cons b as ih =>
    obtain ⟨hp, m, hm, hrest⟩ := h
    rw [List.mem_cons, not_or] at ha
    refine ⟨hp, m, ?_, ih hrest ha.2⟩
    rw [Function.update_of_ne (Ne.symm ha.1), hm]

/-- **Relinking.** A write to the last node redirects the end of a segment. -/
theorem Segment.relink (h : Segment next heap p (as ++ [a]) q) (ha : a ∉ as) (n : Node) :
    Segment next (Function.update heap a (some n)) p (as ++ [a]) (next n) := by
  obtain ⟨m, has, hlast⟩ := segment_append_iff.mp h
  rw [segment_singleton_iff] at hlast
  refine segment_append_iff.mpr ⟨m, has.frame ha _, ?_⟩
  exact segment_singleton_iff.mpr ⟨hlast.1, n, Function.update_self .., rfl⟩

end Write

end Linked
