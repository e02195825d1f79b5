import Mathlib.Data.List.FinRange
import Mathlib.Tactic.Common

/-!
# Packet filters

A filter is a named pair of rule lists, one for packets that come from a user and one for packets
that go to one.  Loaded filters sit in numbered slots; a session refers to its filter by slot.

* `filterGetId`, `filterGetName`, `filterGet`: slot of a name, name of a slot, rules of a slot.
* `filterGetId_eq_some`, `filterGetId_eq_none_iff`: a name has a slot exactly when a filter of that
  name is loaded.
-/

namespace Sweetspot

def SW_FILTER_SLOTS_MAX : ℕ := 512

/-! ## Rules -/

/-- `op` of a target: which comparison its ports are for. -/
inductive TargetOp
  | none | eq | ne | lt | le | gt | ge | rg
  deriving DecidableEq, Repr

/-- `sw_filter_target_t`.  `ports` are the first `port_cnt` entries of the array. -/
structure FilterTarget where
  ip : UInt32
  mask : UInt32
  ports : List UInt16
  portLo : UInt16
  portHi : UInt16
  op : TargetOp
  deriving DecidableEq, Repr

/-- `sw_filter_flags_t`, two signed characters. -/
structure FilterFlags where
  set : Int8
  mask : Int8
  deriving DecidableEq

/-- What happens to a packet the rule matches: the fields `action`, `dnat` and `shape`. -/
structure FilterVerdict where
  action : ℕ
  dnatIp : UInt32
  dnatPort : UInt16
  shapeRate : ℤ
  deriving DecidableEq, Repr

/-- `sw_filter_rule_t` without its link. -/
structure FilterRule where
  src : FilterTarget
  dst : FilterTarget
  flags : FilterFlags
  proto : UInt8
  verdict : FilterVerdict
  num : ℕ
  deriving DecidableEq

/-- Rules in file order. -/
abbrev Ruleset := List FilterRule

/-- `SW_FILTER_MATCH_INWARD` (from the user) and `SW_FILTER_MATCH_OUTWARD` (to the user). -/
inductive MatchMode
  | inward | outward
  deriving DecidableEq, Repr

/-! ## Loaded filters -/

/-- `sw_filter_set_t`. -/
structure FilterSet where
  name : String
  rulesetIn : Ruleset
  rulesetOut : Ruleset

abbrev FilterSlot := Fin SW_FILTER_SLOTS_MAX

theorem filterSlots_pos : 0 < SW_FILTER_SLOTS_MAX := by decide

/-- `global_filter_set`. -/
abbrev GlobalFilterSet := FilterSlot → Option FilterSet

/-- A `filter_id` that a session can have: a slot, or `none` for `SW_FILTER_ID_NONE`.  No session
is ever given the `-1` of a failed lookup. -/
abbrev FilterId := Option FilterSlot

/-- `sw_filter_get_id`: the first slot with a filter of that name; `none` is `-1`. -/
def filterGetId (filters : GlobalFilterSet) (name : String) : Option FilterSlot :=
  (List.finRange SW_FILTER_SLOTS_MAX).find? fun idx => (filters idx).any fun f => f.name = name

/-- `sw_filter_get_name`; `none` is `-1`. -/
def filterGetName (filters : GlobalFilterSet) : FilterId → Option String
  | none => some ""
  | some idx => (filters idx).map FilterSet.name

/-- The rules of one direction. -/
def FilterSet.ruleset (f : FilterSet) : MatchMode → Ruleset
  | .inward => f.rulesetIn
  | .outward => f.rulesetOut

/-- `sw_filter_get`: no rules without a filter, nor when the slot is not loaded. -/
def filterGet (filters : GlobalFilterSet) (mode : MatchMode) : FilterId → Ruleset
  | none => []
  | some idx => ((filters idx).map fun f => f.ruleset mode).getD []

theorem filterGetId_eq_some {filters : GlobalFilterSet} {name : String} {idx : FilterSlot}
    (h : filterGetId filters name = some idx) : ∃ f, filters idx = some f ∧ f.name = name := by
  have hfound := List.find?_some h
  rw [Option.any_eq_true] at hfound
  obtain ⟨f, hf, hname⟩ := hfound
  exact ⟨f, hf, by simpa using hname⟩

theorem filterGetId_eq_none_iff {filters : GlobalFilterSet} {name : String} :
    filterGetId filters name = none ↔ ∀ idx f, filters idx = some f → f.name ≠ name := by
  rw [filterGetId, List.find?_eq_none]
  constructor
  · intro h idx f hf hname
    exact h idx (List.mem_finRange idx) (by simp [hf, hname])
  · intro h idx _ hany
    rw [Option.any_eq_true] at hany
    obtain ⟨f, hf, hname⟩ := hany
    exact h idx f hf (by simpa using hname)

-- the search runs over 512 slots; no proof below should run it
attribute [irreducible] filterGetId

/-- A name that has a slot gets it back. -/
theorem filterGetName_of_filterGetId {filters : GlobalFilterSet} {name : String}
    {idx : FilterSlot} (h : filterGetId filters name = some idx) :
    filterGetName filters (some idx) = some name := by
  obtain ⟨f, hf, hname⟩ := filterGetId_eq_some h
  rw [filterGetName, hf, Option.map_some, hname]

end Sweetspot
