import Mathlib.Algebra.BigOperators.Group.List.Basic
import Mathlib.Algebra.Order.Group.Defs
import Mathlib.Algebra.Order.Monoid.Unbundled.Basic
import Mathlib.Tactic.Common

/-!
# Virtual clocks

A link that serves one packet after the other is busy until the last one is through.  A packet that
comes at `now` and takes `d` is through at the later of the two times `now` and `last + d`: a link
that was idle starts at once.

* `advance`, `run`: one packet, and a sequence of them.
* `add_sum_le_run`: between two times the link gives no more than what fits between them.
* `now_le_advance`: it is never behind the packet it took last.
-/

namespace VirtualClock

variable {T : Type*} [AddCommGroup T] [LinearOrder T]

/-- The clock after a packet that comes at `p.1` and takes `p.2`. -/
def advance (last : T) (p : T × T) : T := max p.1 (last + p.2)

/-- The clock after some packets. -/
def run (last : T) (ps : List (T × T)) : T := ps.foldl advance last

@[simp] theorem run_nil (last : T) : run last [] = last := rfl

@[simp] theorem run_cons (last : T) (p : T × T) (ps : List (T × T)) :
    run last (p :: ps) = run (advance last p) ps := rfl

theorem now_le_advance (last : T) (p : T × T) : p.1 ≤ advance last p := le_max_left _ _

theorem add_le_advance (last : T) (p : T × T) : last + p.2 ≤ advance last p := le_max_right _ _

variable [IsOrderedAddMonoid T]

/-- **Conformance.**  What the link takes on after a time is through no sooner than that much
later. -/
theorem add_sum_le_run (last : T) (ps : List (T × T)) :
    last + (ps.map Prod.snd).sum ≤ run last ps := by
  induction ps generalizing last with
  | nil => simp
  | cons p ps ih =>
    calc last + ((p :: ps).map Prod.snd).sum
        = last + p.2 + (ps.map Prod.snd).sum := by rw [List.map_cons, List.sum_cons, add_assoc]
      _ ≤ advance last p + (ps.map Prod.snd).sum :=
          add_le_add_left (add_le_advance last p) _
      _ ≤ run (advance last p) ps := ih (advance last p)

end VirtualClock
