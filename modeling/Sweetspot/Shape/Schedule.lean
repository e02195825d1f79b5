import Sweetspot.Lib.CInt
import Sweetspot.Session.Controller
import Sweetspot.Tuple.Chain

/-!
# Scheduling shaped packets

A shaping context has a clock for each direction: the time at which the last packet is through at
the rate of its rule.  A packet moves the clock on, and is to wait until then.

* `tvAdd`, `tvSub`, `tvCmp`, `tv2usec`: times of seconds and microseconds.
* `ShapeParams.schedule`: the clock of a direction; `shapeSchedule` finds it.
* `shapeSchedule_eq_none_iff`: what the function does not survive.
-/

namespace Sweetspot

/-! ## Times -/

/-- `struct timeval`. -/
structure Timeval where
  sec : ℤ
  usec : ℤ
  deriving DecidableEq, Repr

def DEGREE : ℤ := 1000000

def tvAdd (tv1 tv2 : Timeval) : Timeval :=
  let sec := tv1.sec + tv2.sec
  let usec := tv1.usec + tv2.usec
  if usec ≥ DEGREE then ⟨sec + 1, usec - DEGREE⟩ else ⟨sec, usec⟩

def tvSub (tv1 tv2 : Timeval) : Timeval :=
  let sec := tv1.sec - tv2.sec
  if sec < 0 then ⟨0, 0⟩
  else if tv1.usec ≥ tv2.usec then ⟨sec, tv1.usec - tv2.usec⟩
  else if sec > 0 then ⟨sec - 1, tv1.usec + DEGREE - tv2.usec⟩
  else ⟨sec, 0⟩

/-- 0 for equal, 1 for later and 2 for earlier. -/
def tvCmp (tv1 tv2 : Timeval) : ℤ :=
  if tv1.sec = tv2.sec ∧ tv1.usec = tv2.usec then 0
  else if tv1.sec > tv2.sec ∨ (tv1.sec = tv2.sec ∧ tv1.usec > tv2.usec) then 1
  else 2

def tv2usec (tv : Timeval) : ℤ := int32 (tv.sec * DEGREE + tv.usec)

/-! ## Contexts -/

/-- `sw_shape_params_t` without the limit, which nothing reads. -/
structure ShapeParams where
  lastPacketLength : ℤ
  lastPacketTime : Timeval
  deriving DecidableEq, Repr

/-- The clocks of `sw_shape_context_t`. -/
structure ShapeClocks where
  prvIp : UInt32
  inwardParams : ShapeParams
  outwardParams : ShapeParams
  deriving DecidableEq, Repr

/-- `global_shape_hash`. -/
abbrev ShapeHash := KeyedTable entryComparator ShapeClocks.prvIp

/-- `SW_SHAPE_IN` and `SW_SHAPE_OUT`. -/
inductive ShapeDir
  | shapeIn | shapeOut
  deriving DecidableEq, Repr

/-- The clock of a direction. -/
def ShapeClocks.params (shc : ShapeClocks) : ShapeDir → ShapeParams
  | .shapeIn => shc.inwardParams
  | .shapeOut => shc.outwardParams

/-- The microseconds a packet takes; `none` is a division by zero. -/
def delaytime (length rate : ℤ) : Option ℤ :=
  if length < 40 then some 0
  else if int32 (rate * 10) = 0 then none
  else some ((int32 ((length - 40) * 8 * 10000)).tdiv (int32 (rate * 10)))

/-- One packet on the clock of a direction, and how long it is to wait. -/
def ShapeParams.schedule (p : ShapeParams) (now : Timeval) (length rate : ℤ) :
    Option (ShapeParams × ℤ) :=
  (delaytime length rate).map fun usec =>
    let delay : Timeval := ⟨usec.tdiv 1000000, usec.tmod 1000000⟩
    let last := if p.lastPacketTime.sec = 0 then now else tvAdd p.lastPacketTime delay
    if tvCmp last now = 1 then (⟨length, last⟩, tv2usec (tvSub last now))
    else (⟨length, now⟩, 0)

/-- `sw_shape_schedule`; `none` is a `NULL` chain or a division by zero. -/
def shapeSchedule (h : ShapeHash) (now : Timeval) (tupleChain : Chain) (length rate : ℤ)
    (direction : ShapeDir) : Option (ShapeHash × ℤ) :=
  match tupleChain with
  | [] => none
  | .ip prv :: _ =>
    match h.retrieve prv.ip with
    | none => some (h, -1)
    | some shc =>
      match direction with
      | .shapeIn =>
        (shc.inwardParams.schedule now length rate).map fun (p, delay) =>
          (h.insert { shc with inwardParams := p }, delay)
      | .shapeOut =>
        (shc.outwardParams.schedule now length rate).map fun (p, delay) =>
          (h.insert { shc with outwardParams := p }, delay)
  | _ :: _ => some (h, -1)

/-! ## What it does not survive -/

theorem delaytime_eq_none_iff (length rate : ℤ) :
    delaytime length rate = none ↔ 40 ≤ length ∧ 0x80000000 ∣ rate := by
  rw [← int32_mul_ten_eq_zero_iff]
  unfold delaytime
  split
  · simp only [reduceCtorEq, false_iff]
    omega
  · split
    · simp only [true_iff]
      omega
    · simp only [reduceCtorEq, false_iff]
      tauto

theorem schedule_eq_none_iff (p : ShapeParams) (now : Timeval) (length rate : ℤ) :
    p.schedule now length rate = none ↔ 40 ≤ length ∧ 0x80000000 ∣ rate := by
  rw [ShapeParams.schedule, Option.map_eq_none_iff, delaytime_eq_none_iff]

/-- **No chain, or a division by zero**: a rate that is a multiple of `2 ^ 31`, for a packet long
enough of an address that is shaped. -/
theorem shapeSchedule_eq_none_iff (h : ShapeHash) (now : Timeval) (tupleChain : Chain)
    (length rate : ℤ) (direction : ShapeDir) :
    shapeSchedule h now tupleChain length rate direction = none ↔
      tupleChain = [] ∨
        (∃ prv as, tupleChain = .ip prv :: as ∧ h.retrieve prv.ip ≠ none) ∧
          40 ≤ length ∧ 0x80000000 ∣ rate := by
  cases tupleChain with
  | nil => simp [shapeSchedule]
  | cons x as =>
    cases x with
    | ip prv =>
      cases hfound : h.retrieve prv.ip with
      | none => simp [shapeSchedule, hfound]
      | some shc => cases direction <;> simp [shapeSchedule, hfound, schedule_eq_none_iff]
    | tcp _ => simp [shapeSchedule]
    | udp _ => simp [shapeSchedule]
    | icmp _ => simp [shapeSchedule]

end Sweetspot
