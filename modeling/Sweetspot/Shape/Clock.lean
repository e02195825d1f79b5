import Sweetspot.Lib.Run
import Sweetspot.Lib.VirtualClock
import Sweetspot.Shape.Schedule

/-!
# The clocks of a shaping context

Each direction of a context is a link of its own: `sw_shape_schedule` moves its clock on by the time
the packet takes, in seconds and microseconds, and the packet waits until then.

* `Timeval.usecs`: a time in microseconds, with `usecs_tvAdd`, `usecs_tvSub` and `tvCmp_eq_one_iff`.
* `transmission`: what a packet takes at a rate, if no `int` overflows.
* `schedule_eq`: one packet on the clock of a direction is a step of a virtual clock.
* `ScheduleCall`, `ScheduleStep`: calls for any contexts and directions.
* `shape_conforms`: the clocks of a run.
-/

namespace Sweetspot

/-! ## Times -/

namespace Timeval

/-- In microseconds. -/
def usecs (tv : Timeval) : ℤ := tv.sec * DEGREE + tv.usec

/-- What `gettimeofday` gives, in the second of 1970 or later. -/
structure WallClock (tv : Timeval) : Prop where
  sec_pos : 0 < tv.sec
  usec_nonneg : 0 ≤ tv.usec
  usec_lt : tv.usec < DEGREE

/-- A clock that was never set is 0. -/
def Normal (tv : Timeval) : Prop := tv = ⟨0, 0⟩ ∨ tv.WallClock

end Timeval

variable {tv tv1 tv2 : Timeval}

theorem usecs_inj (h1 : tv1.WallClock) (h2 : tv2.WallClock) :
    tv1.usecs = tv2.usecs ↔ tv1 = tv2 := by
  obtain ⟨sec1, usec1⟩ := tv1
  obtain ⟨sec2, usec2⟩ := tv2
  obtain ⟨-, hnonneg1, hlt1⟩ := h1
  obtain ⟨-, hnonneg2, hlt2⟩ := h2
  simp only [Timeval.usecs, DEGREE, Timeval.mk.injEq] at *
  omega

theorem wallClock_tvAdd (h1 : tv1.WallClock) {usec : ℤ} (husec : 0 ≤ usec) :
    (tvAdd tv1 ⟨usec.tdiv 1000000, usec.tmod 1000000⟩).WallClock ∧
      (tvAdd tv1 ⟨usec.tdiv 1000000, usec.tmod 1000000⟩).usecs = tv1.usecs + usec := by
  obtain ⟨hpos, hnonneg, hlt⟩ := h1
  rw [Int.tdiv_eq_ediv_of_nonneg husec, Int.tmod_eq_emod_of_nonneg husec]
  unfold tvAdd
  unfold DEGREE at *
  dsimp only
  split_ifs with hcarry
  · refine ⟨⟨?_, ?_, ?_⟩, ?_⟩ <;> simp only [Timeval.usecs, DEGREE] <;> omega
  · refine ⟨⟨?_, ?_, ?_⟩, ?_⟩ <;> simp only [Timeval.usecs, DEGREE] <;> omega

theorem usecs_tvSub (h1 : tv1.WallClock) (h2 : tv2.WallClock) (h : tv2.usecs ≤ tv1.usecs) :
    (tvSub tv1 tv2).usecs = tv1.usecs - tv2.usecs := by
  obtain ⟨-, hnonneg1, hlt1⟩ := h1
  obtain ⟨-, hnonneg2, hlt2⟩ := h2
  simp only [Timeval.usecs, DEGREE] at *
  unfold tvSub
  dsimp only
  unfold DEGREE
  split_ifs <;> simp only <;> omega

theorem tvCmp_eq_one_iff (h1 : tv1.WallClock) (h2 : tv2.WallClock) :
    tvCmp tv1 tv2 = 1 ↔ tv2.usecs < tv1.usecs := by
  obtain ⟨-, hnonneg1, hlt1⟩ := h1
  obtain ⟨-, hnonneg2, hlt2⟩ := h2
  simp only [Timeval.usecs, DEGREE] at *
  unfold tvCmp
  split_ifs <;> omega

/-! ## What a packet takes -/

/-- The microseconds a packet takes at a rate; the first 40 octets are free. -/
def transmission (length rate : ℤ) : ℤ :=
  if length < 40 then 0 else (length - 40) * 8000 / rate

/-- The rate is one, and no `int` overflows; for a shorter packet neither is computed with. -/
structure FitsInt (length rate : ℤ) : Prop where
  rate_pos : 40 ≤ length → 0 < rate
  rate_lt : 40 ≤ length → rate * 10 < 2 ^ 31
  length_lt : 40 ≤ length → (length - 40) * 8 * 10000 < 2 ^ 31

theorem int32_eq_self {z : ℤ} (hlow : -2 ^ 31 ≤ z) (hhigh : z < 2 ^ 31) : int32 z = z := by
  unfold int32
  exact Int.bmod_eq_of_le (by norm_num; omega) (by norm_num; omega)

theorem transmission_nonneg {length rate : ℤ} (h : FitsInt length rate) :
    0 ≤ transmission length rate := by
  unfold transmission
  by_cases hshort : length < 40
  · rw [if_pos hshort]
  · rw [if_neg hshort]
    exact Int.ediv_nonneg (by omega) (h.rate_pos (not_lt.1 hshort)).le

/-- Without an overflow it is what the code computes. -/
theorem delaytime_eq {length rate : ℤ} (h : FitsInt length rate) :
    delaytime length rate = some (transmission length rate) := by
  unfold delaytime transmission
  by_cases hshort : length < 40
  · rw [if_pos hshort, if_pos hshort]
  · have hlong : 40 ≤ length := not_lt.1 hshort
    have hpos := h.rate_pos hlong
    have hrate := h.rate_lt hlong
    have hlength := h.length_lt hlong
    have hnum : int32 ((length - 40) * 8 * 10000) = (length - 40) * 8000 * 10 := by
      rw [int32_eq_self (by omega) hlength]
      ring
    have hden : int32 (rate * 10) = rate * 10 := int32_eq_self (by omega) hrate
    rw [if_neg hshort, if_neg hshort, hnum, hden, if_neg (by omega),
      Int.tdiv_eq_ediv_of_nonneg (by omega), Int.mul_ediv_mul_of_pos_left _ _ (by decide)]

/-! ## One packet -/

/-- The clock after a packet: that of a direction that was never used starts with it. -/
def clockAfter (last now : Timeval) (takes : ℤ) : ℤ :=
  if last = ⟨0, 0⟩ then now.usecs else VirtualClock.advance last.usecs (now.usecs, takes)

theorem now_le_clockAfter (last now : Timeval) (takes : ℤ) :
    now.usecs ≤ clockAfter last now takes := by
  unfold clockAfter
  split
  · exact le_rfl
  · exact VirtualClock.now_le_advance last.usecs (now.usecs, takes)

/-- **One packet** moves the clock as a virtual one, and waits until then. -/
theorem schedule_eq {p : ShapeParams} {now : Timeval} {length rate : ℤ}
    (hlast : p.lastPacketTime.Normal) (hnow : now.WallClock) (h : FitsInt length rate) :
    ∃ last, p.schedule now length rate =
        some (⟨length, last⟩, int32 (last.usecs - now.usecs)) ∧
      last.WallClock ∧
      last.usecs = clockAfter p.lastPacketTime now (transmission length rate) := by
  have htakes := transmission_nonneg h
  rw [ShapeParams.schedule, delaytime_eq h, Option.map_some]
  generalize transmission length rate = takes at htakes
  dsimp only
  unfold clockAfter VirtualClock.advance
  rcases hlast with hfresh | hlast
  · -- the clock was never set
    have hsec : p.lastPacketTime.sec = 0 := by rw [hfresh]
    have hcmp : tvCmp now now ≠ 1 := by
      rw [Ne, tvCmp_eq_one_iff hnow hnow]
      exact lt_irrefl _
    rw [if_pos hsec, if_neg hcmp, if_pos hfresh]
    exact ⟨now, by rw [sub_self]; rfl, hnow, rfl⟩
  · have hsec : p.lastPacketTime.sec ≠ 0 := hlast.sec_pos.ne'
    have hused : p.lastPacketTime ≠ ⟨0, 0⟩ := fun heq => hsec (by rw [heq])
    obtain ⟨hwall, husecs⟩ := wallClock_tvAdd hlast htakes
    rw [if_neg hsec, if_neg hused]
    generalize tvAdd p.lastPacketTime _ = last at hwall husecs
    dsimp only
    rw [← husecs]
    by_cases hlater : now.usecs < last.usecs
    · rw [if_pos ((tvCmp_eq_one_iff hwall hnow).2 hlater), max_eq_right hlater.le]
      refine ⟨last, ?_, hwall, rfl⟩
      rw [tv2usec, show _ + _ = (tvSub last now).usecs from rfl, usecs_tvSub hwall hnow hlater.le]
    · rw [if_neg (mt (tvCmp_eq_one_iff hwall hnow).1 hlater), max_eq_left (not_lt.1 hlater)]
      exact ⟨now, by rw [sub_self]; rfl, hnow, rfl⟩

/-! ## Calls -/

/-- A call of `sw_shape_schedule`. -/
structure ScheduleCall where
  now : Timeval
  tupleChain : Chain
  length : ℤ
  rate : ℤ
  direction : ShapeDir

/-- `prv_ip`: the address at the head of the chain. -/
def ScheduleCall.prvIp (c : ScheduleCall) : Option UInt32 :=
  match c.tupleChain with
  | .ip prv :: _ => some prv.ip
  | _ => none

/-- The call is about a direction of the context of an address. -/
def ScheduleCall.Concerns (c : ScheduleCall) (ip : UInt32) (dir : ShapeDir) : Prop :=
  c.direction = dir ∧ c.prvIp = some ip

instance (ip : UInt32) (dir : ShapeDir) :
    DecidablePred fun c : ScheduleCall × ℤ => c.1.Concerns ip dir :=
  fun c => inferInstanceAs (Decidable (c.1.direction = dir ∧ c.1.prvIp = some ip))

/-- It is made on a wall clock, and no `int` overflows in it. -/
structure ScheduleCall.Fits (c : ScheduleCall) : Prop where
  now : c.now.WallClock
  int : FitsInt c.length c.rate

def ScheduleCall.takes (c : ScheduleCall) : ℤ := transmission c.length c.rate

/-- The call, and what it returns. -/
def ScheduleStep (h : ShapeHash) (c : ScheduleCall × ℤ) (h' : ShapeHash) : Prop :=
  shapeSchedule h c.1.now c.1.tupleChain c.1.length c.1.rate c.1.direction = some (h', c.2)

/-- Doing it, if it returns that. -/
def scheduleExec (h : ShapeHash) (c : ScheduleCall × ℤ) : Option ShapeHash :=
  (shapeSchedule h c.1.now c.1.tupleChain c.1.length c.1.rate c.1.direction).bind fun r =>
    if r.2 = c.2 then some r.1 else none

theorem scheduleStep_of_exec {h : ShapeHash} {c : ScheduleCall × ℤ} {h' : ShapeHash}
    (hexec : scheduleExec h c = some h') : ScheduleStep h c h' := by
  obtain ⟨⟨h₁, delay⟩, hcall, hret⟩ := Option.bind_eq_some_iff.1 hexec
  obtain ⟨rfl, heq⟩ := Option.ite_none_right_eq_some.1 hret
  rw [ScheduleStep, hcall, ← Option.some.inj heq]

/-- Calls can be computed. -/
theorem run_scheduleExec {h h' : ShapeHash} {calls : List (ScheduleCall × ℤ)}
    (hcalls : calls.foldlM scheduleExec h = some h') : Run ScheduleStep h calls h' :=
  (Run.of_foldlM hcalls).mono fun _ _ _ => scheduleStep_of_exec

/-- The context with other parameters of a direction. -/
def ShapeClocks.setParams (shc : ShapeClocks) (dir : ShapeDir) (p : ShapeParams) : ShapeClocks :=
  match dir with
  | .shapeIn => { shc with inwardParams := p }
  | .shapeOut => { shc with outwardParams := p }

@[simp] theorem prvIp_setParams (shc : ShapeClocks) (dir : ShapeDir) (p : ShapeParams) :
    (shc.setParams dir p).prvIp = shc.prvIp := by
  cases dir <;> rfl

theorem params_setParams (shc : ShapeClocks) (dir dir' : ShapeDir) (p : ShapeParams) :
    (shc.setParams dir p).params dir' = if dir' = dir then p else shc.params dir' := by
  cases dir <;> cases dir' <;> rfl

/-- Both branches of the switch do the same to their own parameters. -/
theorem shapeSchedule_of_some {h : ShapeHash} {prv : TupleIp} {as : Chain} {shc : ShapeClocks}
    (hfound : h.retrieve prv.ip = some shc) (now : Timeval) (length rate : ℤ) (dir : ShapeDir) :
    shapeSchedule h now (.ip prv :: as) length rate dir =
      ((shc.params dir).schedule now length rate).map fun r =>
        (h.insert (shc.setParams dir r.1), r.2) := by
  unfold shapeSchedule
  dsimp only
  rw [hfound]
  cases dir <;> rfl

/-- A packet of a context is scheduled on the clock of its direction. -/
theorem scheduleStep_of_clock {h : ShapeHash} {c : ScheduleCall} {prv : TupleIp} {as : Chain}
    {shc : ShapeClocks} {p : ShapeParams} {delay : ℤ} (hchain : c.tupleChain = .ip prv :: as)
    (hfound : h.retrieve prv.ip = some shc)
    (hclock : (shc.params c.direction).schedule c.now c.length c.rate = some (p, delay)) :
    ScheduleStep h (c, delay) (h.insert (shc.setParams c.direction p)) := by
  unfold ScheduleStep
  dsimp only
  rw [hchain, shapeSchedule_of_some hfound, hclock, Option.map_some]

/-- Those of the context of an address, if it has one. -/
def paramsOf (h : ShapeHash) (ip : UInt32) (dir : ShapeDir) : Option ShapeParams :=
  (h.retrieve ip).map fun shc => shc.params dir

/-- All clocks are normalised. -/
def ClocksNormal (h : ShapeHash) : Prop :=
  ∀ ip dir p, paramsOf h ip dir = some p → p.lastPacketTime.Normal

variable {h h' : ShapeHash} {c : ScheduleCall} {delay : ℤ} {ip : UInt32} {dir : ShapeDir}

/-- **What a call does**: the clock of the direction it is about is moved, if the address has a
context, and nothing else. -/
theorem scheduleStep_cases (hstep : ScheduleStep h (c, delay) h') :
    ((∀ ip dir, c.Concerns ip dir → paramsOf h ip dir = none) ∧ h' = h ∧ delay = -1) ∨
    ∃ ip p p', c.Concerns ip c.direction ∧ paramsOf h ip c.direction = some p ∧
      p.schedule c.now c.length c.rate = some (p', delay) ∧
      ∀ ip' dir', paramsOf h' ip' dir' =
        if ip' = ip ∧ dir' = c.direction then some p' else paramsOf h ip' dir' := by
  obtain ⟨now, tupleChain, length, rate, direction⟩ := c
  unfold ScheduleStep at hstep
  dsimp only at hstep ⊢
  cases tupleChain with
  | nil => cases hstep
  | cons x as =>
    cases x with
    | tcp _ | udp _ | icmp _ =>
      obtain ⟨rfl, rfl⟩ := Prod.mk.inj (Option.some.inj hstep)
      refine .inl ⟨?_, rfl, rfl⟩
      rintro ip dir ⟨-, ⟨⟩⟩
    | ip prv =>
      cases hfound : h.retrieve prv.ip with
      | none =>
        unfold shapeSchedule at hstep
        dsimp only at hstep
        rw [hfound] at hstep
        obtain ⟨rfl, rfl⟩ := Prod.mk.inj (Option.some.inj hstep)
        refine .inl ⟨?_, rfl, rfl⟩
        rintro ip dir ⟨-, heq⟩
        obtain rfl := Option.some.inj heq
        rw [paramsOf, hfound, Option.map_none]
      | some shc =>
        rw [shapeSchedule_of_some hfound] at hstep
        obtain ⟨⟨p', delay'⟩, hp', heq⟩ := Option.map_eq_some_iff.1 hstep
        obtain ⟨rfl, rfl⟩ := Prod.mk.inj heq
        have hkey : shc.prvIp = prv.ip := entry_key hfound
        refine .inr ⟨prv.ip, shc.params direction, p', ⟨rfl, rfl⟩, ?_, hp', ?_⟩
        · rw [paramsOf, hfound, Option.map_some]
        · intro ip' dir'
          rw [paramsOf, retrieve_insert, prvIp_setParams, hkey]
          by_cases hip : prv.ip = ip'
          · subst hip
            rw [if_pos rfl, Option.map_some, params_setParams, paramsOf, hfound, Option.map_some]
            by_cases hdir : dir' = direction <;> simp [hdir]
          · rw [if_neg hip, if_neg fun hboth => hip hboth.1.symm, paramsOf]

/-- The context of an address, and the direction, that a call is about. -/
theorem ScheduleCall.Concerns.unique {ip' : UInt32} {dir' : ShapeDir} (h : c.Concerns ip dir)
    (h' : c.Concerns ip' dir') : ip' = ip ∧ dir' = dir := by
  obtain ⟨rfl, hip⟩ := h
  obtain ⟨rfl, hip'⟩ := h'
  exact ⟨Option.some.inj (hip'.symm.trans hip), rfl⟩

/-- **One call, seen from one direction of one context.** -/
inductive ClockMove (c : ScheduleCall) (delay : ℤ) (ip : UInt32) (dir : ShapeDir) :
    Option ShapeParams → Option ShapeParams → Prop
  | other (hother : ¬ c.Concerns ip dir) (before : Option ShapeParams) :
    ClockMove c delay ip dir before before
  | absent (hconcerns : c.Concerns ip dir) : ClockMove c delay ip dir none none
  | moved {p : ShapeParams} {last : Timeval} (hconcerns : c.Concerns ip dir)
    (hwall : last.WallClock) (hlast : last.usecs = clockAfter p.lastPacketTime c.now c.takes)
    (hdelay : delay = int32 (last.usecs - c.now.usecs)) :
    ClockMove c delay ip dir (some p) (some ⟨c.length, last⟩)

theorem scheduleStep_move (hnormal : ClocksNormal h) (hfits : c.Fits)
    (hstep : ScheduleStep h (c, delay) h') (ip : UInt32) (dir : ShapeDir) :
    ClockMove c delay ip dir (paramsOf h ip dir) (paramsOf h' ip dir) := by
  rcases scheduleStep_cases hstep with ⟨hnone, rfl, -⟩ |
    ⟨ip', p, p', hconcerns, hp, hschedule, hparams⟩
  · by_cases hcall : c.Concerns ip dir
    · rw [hnone ip dir hcall]
      exact .absent hcall
    · exact .other hcall _
  · rw [hparams ip dir]
    by_cases hsame : ip = ip' ∧ dir = c.direction
    · obtain ⟨rfl, rfl⟩ := hsame
      obtain ⟨last, heq, hwall, hlast⟩ := schedule_eq (hnormal _ _ _ hp) hfits.now hfits.int
      rw [hschedule] at heq
      obtain ⟨rfl, rfl⟩ := Prod.mk.inj (Option.some.inj heq)
      rw [if_pos ⟨rfl, rfl⟩, hp]
      exact .moved hconcerns hwall hlast rfl
    · rw [if_neg hsame]
      exact .other (fun hcall => hsame (hconcerns.unique hcall)) _

theorem clocksNormal_step (hnormal : ClocksNormal h) (hfits : c.Fits)
    (hstep : ScheduleStep h (c, delay) h') : ClocksNormal h' := by
  intro ip dir p hp
  have hmove := scheduleStep_move hnormal hfits hstep ip dir
  rw [hp] at hmove
  generalize hbefore : paramsOf h ip dir = before at hmove
  cases hmove with
  | other hother => exact hnormal ip dir p hbefore
  | moved hconcerns hwall => exact .inr hwall

/-! ## Runs -/

/-- The packets of a direction of a context: when they came, and what they take. -/
def packetsOf (ip : UInt32) (dir : ShapeDir) (calls : List (ScheduleCall × ℤ)) : List (ℤ × ℤ) :=
  (calls.filter fun c => c.1.Concerns ip dir).map fun c => (c.1.now.usecs, c.1.takes)

/-- A clock that was set runs as a virtual one. -/
theorem run_virtualClock {calls : List (ScheduleCall × ℤ)} (hrun : Run ScheduleStep h calls h')
    (hnormal : ClocksNormal h) (hfits : ∀ c ∈ calls, c.1.Fits) {p : ShapeParams}
    (hp : paramsOf h ip dir = some p) (hused : p.lastPacketTime.WallClock) :
    ClocksNormal h' ∧ ∃ p', paramsOf h' ip dir = some p' ∧ p'.lastPacketTime.WallClock ∧
      p'.lastPacketTime.usecs =
        VirtualClock.run p.lastPacketTime.usecs (packetsOf ip dir calls) := by
  induction hrun generalizing p with
  | nil h => exact ⟨hnormal, p, hp, hused, rfl⟩
  | @cons h₁ h₂ h₃ call calls hstep hrun ih =>
    have hcall := hfits call List.mem_cons_self
    have hfits' : ∀ c ∈ calls, c.1.Fits := fun c hc => hfits c (List.mem_cons_of_mem _ hc)
    have hnormal' := clocksNormal_step hnormal hcall hstep
    have hmove := scheduleStep_move hnormal hcall hstep ip dir
    rw [hp] at hmove
    generalize hafter : paramsOf h₂ ip dir = after at hmove
    cases hmove with
    | other hother =>
      have hpackets : packetsOf ip dir (call :: calls) = packetsOf ip dir calls := by
        rw [packetsOf, List.filter_cons_of_neg (by simpa using hother), packetsOf]
      rw [hpackets]
      exact ih hnormal' hfits' hafter hused
    | @moved _ last hconcerns hwall hlast hdelay =>
      have hpackets : packetsOf ip dir (call :: calls) =
          (call.1.now.usecs, call.1.takes) :: packetsOf ip dir calls := by
        rw [packetsOf, List.filter_cons_of_pos (by simpa using hconcerns), List.map_cons, packetsOf]
      have hset : p.lastPacketTime ≠ ⟨0, 0⟩ := fun heq => hused.sec_pos.ne' (by rw [heq])
      rw [clockAfter, if_neg hset] at hlast
      rw [hpackets, VirtualClock.run_cons, ← hlast]
      exact ih hnormal' hfits' hafter hwall

/-- What a call is to do to a direction of a context: the packet's transmission time is added to the
clock, or the clock is set to the time, whichever is later, and returned as far as it is ahead. -/
def KeepsClock (c : ScheduleCall) (delay : ℤ) (ip : UInt32) (dir : ShapeDir) (h h' : ShapeHash) :
    Prop :=
  (¬ c.Concerns ip dir → paramsOf h' ip dir = paramsOf h ip dir) ∧
  (c.Concerns ip dir → ∀ p, paramsOf h ip dir = some p → ∃ last,
    paramsOf h' ip dir = some ⟨c.length, last⟩ ∧ last.WallClock ∧
    last.usecs = (if p.lastPacketTime = ⟨0, 0⟩ then c.now.usecs
      else max c.now.usecs (p.lastPacketTime.usecs + c.takes)) ∧
    (last.usecs - c.now.usecs < 2 ^ 31 → delay = last.usecs - c.now.usecs))

theorem keepsClock_of_step (hnormal : ClocksNormal h) (hfits : c.Fits)
    (hstep : ScheduleStep h (c, delay) h') (ip : UInt32) (dir : ShapeDir) :
    KeepsClock c delay ip dir h h' := by
  have hmove := scheduleStep_move hnormal hfits hstep ip dir
  unfold KeepsClock
  generalize paramsOf h ip dir = before, paramsOf h' ip dir = after at hmove
  cases hmove with
  | other hother => exact ⟨fun _ => rfl, fun hcall => absurd hcall hother⟩
  | absent hconcerns =>
    refine ⟨fun hcall => absurd hconcerns hcall, ?_⟩
    rintro - p ⟨⟩
  | @moved p last hconcerns hwall hlast hdelay =>
    refine ⟨fun hcall => absurd hconcerns hcall, ?_⟩
    rintro - p' heq
    obtain rfl := Option.some.inj heq
    have hahead := now_le_clockAfter p.lastPacketTime c.now c.takes
    rw [← hlast] at hahead
    refine ⟨last, rfl, hwall, hlast, fun hsmall => ?_⟩
    rw [hdelay]
    exact int32_eq_self (by omega) hsmall

/-- **The virtual clocks.**  After any run of calls on wall clocks, with positive rates and without
an overflow, the clocks are normalised; the next call moves the one it is about to the later of its
time and the clock with what the packet takes, returns how far that is ahead, and leaves the other
direction and the other contexts alone; and the packets of any stretch that follows take together
no more than the clock is moved on by. -/
theorem shape_conforms {h₀ : ShapeHash} {calls : List (ScheduleCall × ℤ)}
    (hrun : Run ScheduleStep h₀ calls h) (hinit : ClocksNormal h₀)
    (hfits : ∀ c ∈ calls, c.1.Fits) :
    ClocksNormal h ∧
    (∀ c delay h', c.Fits → ScheduleStep h (c, delay) h' →
      ∀ ip dir, KeepsClock c delay ip dir h h') ∧
    ∀ stretch h', Run ScheduleStep h stretch h' → (∀ c ∈ stretch, c.1.Fits) →
      ∀ ip dir p p', paramsOf h ip dir = some p → p.lastPacketTime ≠ ⟨0, 0⟩ →
        paramsOf h' ip dir = some p' →
        ((packetsOf ip dir stretch).map Prod.snd).sum ≤
          p'.lastPacketTime.usecs - p.lastPacketTime.usecs := by
  have hnormal : ClocksNormal h := by
    refine hrun.history (P := fun calls h => (∀ c ∈ calls, c.1.Fits) → ClocksNormal h)
      (fun _ => hinit) ?_ hfits
    intro calls h call h' _ ih hstep hfits
    exact clocksNormal_step (ih fun c hc => hfits c (List.mem_append_left _ hc))
      (hfits call (by simp)) hstep
  refine ⟨hnormal, fun c delay h' hc hstep => keepsClock_of_step hnormal hc hstep, ?_⟩
  intro stretch h' hrun' hfits' ip dir p p' hp hset hp'
  have hwall := (hnormal ip dir p hp).resolve_left hset
  obtain ⟨-, p₁, hp₁, -, hclock⟩ := run_virtualClock hrun' hnormal hfits' hp hwall
  obtain rfl := Option.some.inj (hp'.symm.trans hp₁)
  have hsum := VirtualClock.add_sum_le_run p.lastPacketTime.usecs (packetsOf ip dir stretch)
  rw [← hclock] at hsum
  omega

/-- A packet of 1040 octets of 10.0.0.1, at a thousand kilobits a second. -/
def kiloPacket (now : Timeval) : ScheduleCall where
  now := now
  tupleChain := [.ip ⟨0x0a000001, 0, 17⟩]
  length := 1040
  rate := 1000
  direction := .shapeIn

/-- The context of 10.0.0.1 was just made. -/
def freshShape : ShapeHash :=
  KeyedTable.insert ∅ ⟨0x0a000001, ⟨0, ⟨0, 0⟩⟩, ⟨0, ⟨0, 0⟩⟩⟩

/-- Two packets within a millisecond: the second is to wait for seven. -/
def twoKilo : List (ScheduleCall × ℤ) :=
  [(kiloPacket ⟨100, 999500⟩, 0), (kiloPacket ⟨101, 500⟩, 7000)]

theorem shape_conforms_twoKilo : ∃ h, Run ScheduleStep freshShape twoKilo h ∧
    ClocksNormal h ∧
    (∀ c delay h', c.Fits → ScheduleStep h (c, delay) h' →
      ∀ ip dir, KeepsClock c delay ip dir h h') ∧
    ∀ stretch h', Run ScheduleStep h stretch h' → (∀ c ∈ stretch, c.1.Fits) →
      ∀ ip dir p p', paramsOf h ip dir = some p → p.lastPacketTime ≠ ⟨0, 0⟩ →
        paramsOf h' ip dir = some p' →
        ((packetsOf ip dir stretch).map Prod.snd).sum ≤
          p'.lastPacketTime.usecs - p.lastPacketTime.usecs := by
  have hinit : ClocksNormal freshShape := by
    intro ip dir p hp
    rw [paramsOf, freshShape, retrieve_insert] at hp
    split at hp
    · cases dir <;> exact .inl (by rw [← Option.some.inj hp]; rfl)
    · cases hp
  have hfits : ∀ c ∈ twoKilo, c.1.Fits := by
    intro c hc
    rcases List.mem_pair.1 hc with rfl | rfl
    · exact ⟨⟨by decide, by decide, by decide⟩, by decide, by decide, by decide⟩
    · exact ⟨⟨by decide, by decide, by decide⟩, by decide, by decide, by decide⟩
  have hsome : (twoKilo.foldlM scheduleExec freshShape).isSome = true := by decide +kernel
  obtain ⟨h, hcalls⟩ := Option.isSome_iff_exists.1 hsome
  have hrun := run_scheduleExec hcalls
  exact ⟨h, hrun, shape_conforms hrun hinit hfits⟩

end Sweetspot
