import Sweetspot.Relay.Attribution
import Sweetspot.Shape.Clock

/-!
# The budget of a shaped address

A packet of a rule that shapes is put on the clock of its context first, and only then it turns out
whether there is a buffer for it and room in the queue.  A packet that is refused there has moved
the clock on all the same: nothing takes the time back.

* `Arrival`, `Shaper`: packets that come in, while the queues are processed and contexts come and
  go.
* `KeepsBudget`: what a packet is to leave alone.
* `Afforded`: the packet has its place, or takes no time.
* `budget_iff_afforded`: a run keeps the budget just if its packets are afforded.
-/

namespace Sweetspot

/-! ## Arrivals -/

/-- A packet of a rule that shapes, once its chains are written back. -/
structure Arrival where
  now : Timeval
  queueId : QueueId
  direction : ShapeDir
  tupleChain : Chain
  rate : ℤ
  packet : List UInt8

namespace Arrival

/-- How it is scheduled. -/
def call (a : Arrival) : ScheduleCall :=
  ⟨a.now, a.tupleChain, a.packet.length, a.rate, a.direction⟩

/-- What the relay does with it. -/
def handled (a : Arrival) (s : Relay) : Handled :=
  shapeAndSend a.now s a.queueId a.direction a.tupleChain a.rate a.packet

/-- It is scheduled for later than now. -/
def Waits (a : Arrival) (s : Relay) (delay : ℤ) : Prop :=
  (∃ h, ScheduleStep s.shapeHash (a.call, delay) h) ∧ delay ≠ 0 ∧ delay ≠ -1

/-- `sw_shape_delay` is called for it, with a buffer. -/
def Delayed (a : Arrival) (s : Relay) (delay : ℤ) (idx : ℕ) : Prop :=
  a.Waits s delay ∧ (memgmtGetBuf s.memgmt a.packet.length).2 = some idx

/-- It is refused: there is no buffer for it, or the queue does not take it. -/
def Refused (a : Arrival) (s : Relay) : Prop :=
  ∃ delay, a.Waits s delay ∧
    ((memgmtGetBuf s.memgmt a.packet.length).2 = none ∨
      ∃ idx q, a.Delayed s delay idx ∧
        shapeDelay (s.queues a.queueId) delay idx a.packet.length = some (q, false))

end Arrival

/-- `last_packet_time` of a direction of a context. -/
def lastPacketTimeOf (h : ShapeHash) (ip : UInt32) (dir : ShapeDir) : Option Timeval :=
  (paramsOf h ip dir).map ShapeParams.lastPacketTime

/-- The packet leaves the budget alone: if it is refused after it was scheduled the clocks are as
before, no clock is ahead by more than a queue holds and this packet takes, and the wait is not
negative. -/
structure KeepsBudget (s : Relay) (a : Arrival) : Prop where
  refused : a.Refused s → ∀ ip dir,
    lastPacketTimeOf (a.handled s).relay.shapeHash ip dir = lastPacketTimeOf s.shapeHash ip dir
  backlog : ∀ delay h, ScheduleStep s.shapeHash (a.call, delay) h → ∀ ip dir last,
    lastPacketTimeOf h ip dir = some last →
      last.usecs - a.now.usecs < SW_SHAPE_PACKET_TIME_STORE_MAX + a.call.takes
  wait : ∀ delay idx, a.Delayed s delay idx → 0 ≤ delay

/-- There is a buffer for the packet, and its queue takes it after the wait. -/
structure HasPlace (s : Relay) (a : Arrival) (wait : ℤ) : Prop where
  short : a.packet.length ≤ SW_MEMGMT_BUF_SIZE
  buffer : s.memgmt.freeBufIdx ≠ []
  queue : (s.queues a.queueId).Takes wait.toNat

/-- The packet is through at once, or takes no time, or has its place. -/
def Afforded (s : Relay) (a : Arrival) : Prop :=
  ∀ ip last, a.call.prvIp = some ip → lastPacketTimeOf s.shapeHash ip a.direction = some last →
    last = ⟨0, 0⟩ ∨ last.usecs + a.call.takes ≤ a.now.usecs ∨ a.call.takes = 0 ∨
      HasPlace s a (last.usecs + a.call.takes - a.now.usecs)

/-! ## Runs -/

/-- The relays, and when the last packet came. -/
structure Shaper where
  relay : Relay
  now : Timeval

/-- `sw_shape_new` and `sw_shape_del` on the clocks, and `sw_shape_queue_process`. -/
inductive ShaperOp
  | arrive (a : Arrival)
  | process (q : QueueId)
  | shapeNew (ip : UInt32)
  | shapeDel (ip : UInt32)

/-- A context that exists keeps its clocks. -/
def ShapeHash.new (h : ShapeHash) (ip : UInt32) : ShapeHash :=
  match h.retrieve ip with
  | none => h.insert ⟨ip, ⟨0, ⟨0, 0⟩⟩, ⟨0, ⟨0, 0⟩⟩⟩
  | some _ => h

/-- Packets come one after the other, on a wall clock. -/
inductive ShaperStep : Shaper → ShaperOp → Shaper → Prop
  | arrive {s : Shaper} (a : Arrival) (hlater : s.now.usecs ≤ a.now.usecs)
    (hrc : (a.handled s.relay).rc = some 0) :
    ShaperStep s (.arrive a) ⟨(a.handled s.relay).relay, a.now⟩
  | process {s : Shaper} (q : QueueId) {sent : List Sent} {m : Memgmt} {queue : ShapeQueue}
    (hprocess : shapeQueueProcess s.relay.memgmt (s.relay.queues q) = (sent, m, queue)) :
    ShaperStep s (.process q)
      { s with relay := { s.relay with
        memgmt := m, queues := Function.update s.relay.queues q queue } }
  | shapeNew {s : Shaper} (ip : UInt32) :
    ShaperStep s (.shapeNew ip)
      { s with relay := { s.relay with shapeHash := ShapeHash.new s.relay.shapeHash ip } }
  | shapeDel {s : Shaper} (ip : UInt32) :
    ShaperStep s (.shapeDel ip)
      { s with relay := { s.relay with shapeHash := s.relay.shapeHash.delete ip } }

/-- What an operation is to be, if it is a packet. -/
def ShaperOp.OnArrival (P : Relay → Arrival → Prop) (s : Shaper) : ShaperOp → Prop
  | .arrive a => s.now.usecs ≤ a.now.usecs → P s.relay a
  | _ => True

/-! ## One packet -/

section Packet

variable {s : Relay} {a : Arrival} {h : ShapeHash} {delay : ℤ} {ip : UInt32} {dir : ShapeDir}
  {last : Timeval}

/-- Whatever becomes of a packet that was scheduled, the clocks stay where it left them. -/
theorem shapeHash_handled (hstep : ScheduleStep s.shapeHash (a.call, delay) h) :
    (a.handled s).relay.shapeHash = h := by
  have hschedule : shapeSchedule s.shapeHash a.now a.tupleChain a.packet.length a.rate a.direction =
      some (h, delay) := hstep
  unfold Arrival.handled shapeAndSend
  rw [hschedule]
  dsimp only
  split_ifs
  · rfl
  · rfl
  · rcases memgmtGetBuf s.memgmt a.packet.length with ⟨m, _ | idx⟩
    · rfl
    · dsimp only
      rcases shapeDelay (s.queues a.queueId) delay idx a.packet.length with _ | ⟨q, _ | _⟩ <;> rfl

/-- A packet that cannot be scheduled leaves them alone. -/
theorem shapeHash_handled_of_none
    (hnone : ∀ delay h, ¬ ScheduleStep s.shapeHash (a.call, delay) h) :
    (a.handled s).relay.shapeHash = s.shapeHash := by
  have hschedule : shapeSchedule s.shapeHash a.now a.tupleChain a.packet.length a.rate a.direction =
      none := by
    rw [Option.eq_none_iff_forall_not_mem]
    exact fun r hr => hnone r.2 r.1 hr
  unfold Arrival.handled shapeAndSend
  rw [hschedule]
  rfl

/-- A packet of a context can be scheduled. -/
theorem exists_scheduleStep (hnormal : ClocksNormal s.shapeHash) (hfits : a.call.Fits)
    (hip : a.call.prvIp = some ip)
    (hlast : lastPacketTimeOf s.shapeHash ip a.direction = some last) :
    ∃ delay h, ScheduleStep s.shapeHash (a.call, delay) h := by
  obtain ⟨p, hp, rfl⟩ := Option.map_eq_some_iff.1 hlast
  obtain ⟨last', hschedule, -⟩ := schedule_eq (hnormal ip a.direction p hp) hfits.now hfits.int
  obtain ⟨shc, hfound, rfl⟩ := Option.map_eq_some_iff.1 hp
  unfold ScheduleCall.prvIp at hip
  split at hip
  · rename_i prv as hchain
    obtain rfl := Option.some.inj hip
    exact ⟨_, _, scheduleStep_of_clock hchain hfound hschedule⟩
  · cases hip

/-- The call is about a context, unless it is an error. -/
theorem exists_context (hstep : ScheduleStep s.shapeHash (a.call, delay) h) (herror : delay ≠ -1) :
    ∃ ip last, a.call.Concerns ip a.direction ∧
      lastPacketTimeOf s.shapeHash ip a.direction = some last := by
  rcases scheduleStep_cases hstep with ⟨-, -, hdelay⟩ | ⟨ip, p, -, hconcerns, hp, -⟩
  · exact absurd hdelay herror
  · refine ⟨ip, p.lastPacketTime, hconcerns, ?_⟩
    rw [lastPacketTimeOf]
    exact Option.map_eq_some_iff.2 ⟨p, hp, rfl⟩

end Packet

/-! ## The invariant -/

/-- The clocks are normalised, and none is ahead by as much as a queue holds. -/
structure Budgeted (s : Shaper) : Prop where
  normal : ClocksNormal s.relay.shapeHash
  ahead : ∀ ip dir last, lastPacketTimeOf s.relay.shapeHash ip dir = some last → last ≠ ⟨0, 0⟩ →
    last.usecs < s.now.usecs + SW_SHAPE_PACKET_TIME_STORE_MAX

/-- What a packet takes is less than what an `int` has room for beside a full queue. -/
theorem store_add_transmission_lt {length rate : ℤ} (h : FitsInt length rate) :
    SW_SHAPE_PACKET_TIME_STORE_MAX + transmission length rate < 2 ^ 31 := by
  unfold transmission SW_SHAPE_PACKET_TIME_STORE_MAX
  by_cases hshort : length < 40
  · rw [if_pos hshort]
    norm_num
  · have hlength := h.length_lt (not_lt.1 hshort)
    have hle : (length - 40) * 8000 / rate ≤ (length - 40) * 8000 :=
      Int.ediv_le_self _ (by omega)
    rw [if_neg hshort]
    omega

/-- A clock that is moved past the time is moved on by what the packet takes. -/
theorem clockAfter_of_lt {last now : Timeval} {takes : ℤ}
    (h : now.usecs < clockAfter last now takes) :
    last ≠ ⟨0, 0⟩ ∧ clockAfter last now takes = last.usecs + takes := by
  unfold clockAfter VirtualClock.advance at *
  split at h
  · exact absurd h (lt_irrefl _)
  · rename_i hset
    rw [if_neg hset]
    exact ⟨hset, max_eq_right ((lt_max_iff.1 h).resolve_left (lt_irrefl _)).le⟩

/-- What scheduling a packet does to the clock of a direction of a context: that of its own is
moved, less far ahead than a queue holds and the packet takes, and the packet waits until then. -/
inductive ClockEffect (a : Arrival) (delay : ℤ) (ip : UInt32) (dir : ShapeDir) :
    Option Timeval → Option Timeval → Prop
  | other (hother : ¬ a.call.Concerns ip dir) (before : Option Timeval) :
    ClockEffect a delay ip dir before before
  | absent (hconcerns : a.call.Concerns ip dir) : ClockEffect a delay ip dir none none
  | moved {last last' : Timeval} (hconcerns : a.call.Concerns ip dir) (hnormal : last.Normal)
    (hwall : last'.WallClock) (hclock : last'.usecs = clockAfter last a.now a.call.takes)
    (hwait : last'.usecs = a.now.usecs + delay) (hpos : 0 ≤ delay)
    (hlt : delay < SW_SHAPE_PACKET_TIME_STORE_MAX + a.call.takes) :
    ClockEffect a delay ip dir (some last) (some last')

section Invariant

variable {s : Shaper} {a : Arrival} {h : ShapeHash} {delay : ℤ}

theorem clockEffect (hs : Budgeted s) (hfits : a.call.Fits) (hlater : s.now.usecs ≤ a.now.usecs)
    (hstep : ScheduleStep s.relay.shapeHash (a.call, delay) h) (ip : UInt32) (dir : ShapeDir) :
    ClockEffect a delay ip dir (lastPacketTimeOf s.relay.shapeHash ip dir)
      (lastPacketTimeOf h ip dir) := by
  have hmove := scheduleStep_move hs.normal hfits hstep ip dir
  have hnormal := hs.normal ip dir
  have hahead := hs.ahead ip dir
  unfold lastPacketTimeOf at *
  generalize paramsOf s.relay.shapeHash ip dir = before, paramsOf h ip dir = after
    at hmove hnormal hahead
  cases hmove with
  | other hother => exact .other hother _
  | absent hconcerns => exact .absent hconcerns
  | @moved p last' hconcerns hwall hclock hdelay =>
    have htakes : 0 ≤ a.call.takes := transmission_nonneg hfits.int
    have hroom : SW_SHAPE_PACKET_TIME_STORE_MAX + a.call.takes < 2 ^ 31 :=
      store_add_transmission_lt hfits.int
    have hnow : a.now.usecs ≤ last'.usecs := by
      rw [hclock]
      exact now_le_clockAfter p.lastPacketTime a.now a.call.takes
    have hlt : last'.usecs - a.now.usecs < SW_SHAPE_PACKET_TIME_STORE_MAX + a.call.takes := by
      by_cases hsame : last'.usecs ≤ a.now.usecs
      · unfold SW_SHAPE_PACKET_TIME_STORE_MAX
        omega
      · obtain ⟨hset, hmoved⟩ := clockAfter_of_lt (hclock ▸ not_le.1 hsame)
        have hbound := hahead _ rfl hset
        have hsum : last'.usecs = p.lastPacketTime.usecs + a.call.takes := hclock.trans hmoved
        omega
    -- nothing is lost in the conversion
    have hdelay' : delay = last'.usecs - a.now.usecs := by
      rw [hdelay]
      exact int32_eq_self (by show _ ≤ last'.usecs - a.now.usecs; omega) (hlt.trans hroom)
    show ClockEffect a delay ip dir (some p.lastPacketTime) (some last')
    exact .moved hconcerns (hnormal p rfl) hwall hclock (by omega) (by omega) (by omega)

/-- **A packet that waits is refused just if it has no place.** -/
theorem refused_iff_not_hasPlace {s : Relay} (hwaits : a.Waits s delay) (hpos : 0 ≤ delay) :
    a.Refused s ↔ ¬ HasPlace s a delay := by
  obtain ⟨wait, rfl⟩ := Int.eq_ofNat_of_zero_le hpos
  have hsame : ∀ delay, a.Waits s delay → delay = wait := by
    rintro delay ⟨⟨h, hstep⟩, -⟩
    obtain ⟨⟨h', hstep'⟩, -⟩ := hwaits
    exact (Prod.mk.inj (Option.some.inj (hstep.symm.trans hstep'))).2
  constructor
  · rintro ⟨delay, hdelay, hnone | ⟨idx, q, -, hrefused⟩⟩ hplace
    · rcases (memgmtGetBuf_eq_none_iff _ _).1 hnone with hlong | hempty
      · exact absurd hplace.short (not_le.2 hlong)
      · exact hplace.buffer hempty
    · obtain rfl := hsame delay hdelay
      exact shapeDelay_refused_iff.1 ⟨q, hrefused⟩ hplace.queue
  · intro hplace
    refine ⟨wait, hwaits, ?_⟩
    cases hbuf : (memgmtGetBuf s.memgmt a.packet.length).2 with
    | none => exact .inl rfl
    | some idx =>
      have hsome : ¬ (SW_MEMGMT_BUF_SIZE < a.packet.length ∨ s.memgmt.freeBufIdx = []) := by
        rw [← memgmtGetBuf_eq_none_iff, hbuf]
        exact Option.some_ne_none idx
      rw [not_or, not_lt] at hsome
      have htakes : ¬ (s.queues a.queueId).Takes wait :=
        fun htakes => hplace ⟨hsome.1, hsome.2, htakes⟩
      obtain ⟨q, hq⟩ := (@shapeDelay_refused_iff _ wait idx a.packet.length).2 htakes
      exact .inr ⟨idx, q, ⟨hwaits, hbuf⟩, hq⟩

/-- Nothing happens to the clocks if a packet that is afforded is refused. -/
theorem kept_of_afforded (hs : Budgeted s) (hfits : a.call.Fits)
    (hlater : s.now.usecs ≤ a.now.usecs) (hafforded : Afforded s.relay a)
    (hrefused : a.Refused s.relay) (ip : UInt32) (dir : ShapeDir) :
    lastPacketTimeOf (a.handled s.relay).relay.shapeHash ip dir =
      lastPacketTimeOf s.relay.shapeHash ip dir := by
  obtain ⟨delay, hwaits, -⟩ := id hrefused
  obtain ⟨⟨h, hstep⟩, hlate, -⟩ := id hwaits
  rw [shapeHash_handled hstep]
  have heffect := clockEffect hs hfits hlater hstep ip dir
  generalize hbefore : lastPacketTimeOf s.relay.shapeHash ip dir = before,
    lastPacketTimeOf h ip dir = after at heffect
  cases heffect with
  | other => rfl
  | absent => rfl
  | @moved last last' hconcerns hnormal hwall hclock hwait hpos hlt =>
    obtain ⟨rfl, hip⟩ := hconcerns
    obtain ⟨hset, hmoved⟩ := @clockAfter_of_lt last a.now a.call.takes (by omega)
    rcases hafforded ip last hip hbefore with hfresh | hsoon | hnothing | hplace
    · exact absurd hfresh hset
    · omega
    · have hwall' := hnormal.resolve_left hset
      rw [Option.some_inj, ← usecs_inj hwall hwall', hclock, hmoved, hnothing, add_zero]
    · have hdelay : last.usecs + a.call.takes - a.now.usecs = delay := by omega
      rw [hdelay] at hplace
      exact absurd hplace ((refused_iff_not_hasPlace hwaits hpos).1 hrefused)

/-- A packet that is not afforded is refused, after its clock was moved. -/
theorem afforded_of_kept (hs : Budgeted s) (hfits : a.call.Fits)
    (hlater : s.now.usecs ≤ a.now.usecs)
    (hkept : a.Refused s.relay → ∀ ip dir,
      lastPacketTimeOf (a.handled s.relay).relay.shapeHash ip dir =
        lastPacketTimeOf s.relay.shapeHash ip dir) : Afforded s.relay a := by
  intro ip last hip hlast
  by_contra hnot
  simp only [not_or, not_le] at hnot
  obtain ⟨hset, hbusy, hslow, hplace⟩ := hnot
  obtain ⟨delay, h, hstep⟩ := exists_scheduleStep hs.normal hfits hip hlast
  have heffect := clockEffect hs hfits hlater hstep ip a.direction
  rw [hlast] at heffect
  generalize hafter : lastPacketTimeOf h ip a.direction = after at heffect
  cases heffect with
  | other hother => exact hother ⟨rfl, hip⟩
  | @moved _ last' hconcerns hnormal hwall hclock hwait hpos hlt =>
    rw [clockAfter, if_neg hset, VirtualClock.advance, max_eq_right hbusy.le] at hclock
    have hwaits : a.Waits s.relay delay := ⟨⟨h, hstep⟩, by omega, by omega⟩
    have hdelay : last.usecs + a.call.takes - a.now.usecs = delay := by omega
    rw [hdelay] at hplace
    have hsame := hkept ((refused_iff_not_hasPlace hwaits hpos).2 hplace) ip a.direction
    rw [shapeHash_handled hstep, hafter, hlast, Option.some_inj] at hsame
    rw [hsame] at hclock
    omega

theorem backlog_of_budgeted (hs : Budgeted s) (hfits : a.call.Fits)
    (hlater : s.now.usecs ≤ a.now.usecs)
    (hstep : ScheduleStep s.relay.shapeHash (a.call, delay) h) {ip : UInt32} {dir : ShapeDir}
    {last : Timeval} (hlast : lastPacketTimeOf h ip dir = some last) :
    last.usecs - a.now.usecs < SW_SHAPE_PACKET_TIME_STORE_MAX + a.call.takes := by
  have htakes : 0 ≤ a.call.takes := transmission_nonneg hfits.int
  have heffect := clockEffect hs hfits hlater hstep ip dir
  have hahead := hs.ahead ip dir last
  rw [hlast] at heffect
  generalize lastPacketTimeOf s.relay.shapeHash ip dir = before at heffect hahead
  cases heffect with
  | other =>
    by_cases hset : last = ⟨0, 0⟩
    · obtain ⟨hpos, hnonneg, -⟩ := hfits.now
      have husecs : a.now.usecs = a.now.sec * 1000000 + a.now.usec := rfl
      have hpos' : 0 < a.now.sec := hpos
      have hnonneg' : 0 ≤ a.now.usec := hnonneg
      have hzero : last.usecs = 0 := by
        rw [hset]
        rfl
      unfold SW_SHAPE_PACKET_TIME_STORE_MAX
      omega
    · have hbound := hahead rfl hset
      omega
  | moved hconcerns hnormal hwall hclock hwait hpos hlt => omega

/-- **Exactly the packets that are afforded leave the budget alone.** -/
theorem keepsBudget_iff (hs : Budgeted s) (hfits : a.call.Fits)
    (hlater : s.now.usecs ≤ a.now.usecs) : KeepsBudget s.relay a ↔ Afforded s.relay a := by
  constructor
  · exact fun hkeeps => afforded_of_kept hs hfits hlater hkeeps.refused
  · intro hafforded
    refine ⟨kept_of_afforded hs hfits hlater hafforded, ?_, ?_⟩
    · exact fun delay h hstep ip dir last hlast => backlog_of_budgeted hs hfits hlater hstep hlast
    · rintro delay idx ⟨⟨⟨h, hstep⟩, -, herror⟩, -⟩
      obtain ⟨ip, last, hconcerns, hlast⟩ := exists_context hstep herror
      have heffect := clockEffect hs hfits hlater hstep ip a.direction
      rw [hlast] at heffect
      generalize lastPacketTimeOf h ip a.direction = after at heffect
      cases heffect with
      | other hother => exact absurd hconcerns hother
      | moved _ hnormal hwall hclock hwait hpos hlt => exact hpos

/-! ## Steps -/

theorem budgeted_arrive (hs : Budgeted s) (hfits : a.call.Fits)
    (hlater : s.now.usecs ≤ a.now.usecs) (hafforded : Afforded s.relay a) :
    Budgeted ⟨(a.handled s.relay).relay, a.now⟩ := by
  by_cases hstep : ∃ delay h, ScheduleStep s.relay.shapeHash (a.call, delay) h
  · obtain ⟨delay, h, hstep⟩ := hstep
    have hkept := shapeHash_handled hstep
    refine ⟨?_, ?_⟩
    · show ClocksNormal (a.handled s.relay).relay.shapeHash
      rw [hkept]
      exact clocksNormal_step hs.normal hfits hstep
    · intro ip dir last' hlast' hset'
      change lastPacketTimeOf (a.handled s.relay).relay.shapeHash ip dir = some last' at hlast'
      rw [hkept] at hlast'
      have heffect := clockEffect hs hfits hlater hstep ip dir
      rw [hlast'] at heffect
      show last'.usecs < a.now.usecs + SW_SHAPE_PACKET_TIME_STORE_MAX
      generalize hbefore : lastPacketTimeOf s.relay.shapeHash ip dir = before at heffect
      cases heffect with
      | other =>
        have hbound := hs.ahead ip dir last' hbefore hset'
        omega
      | @moved last _ hconcerns hnormal hwall hclock hwait hpos hlt =>
        obtain ⟨rfl, hip⟩ := hconcerns
        by_cases hsame : last'.usecs ≤ a.now.usecs
        · unfold SW_SHAPE_PACKET_TIME_STORE_MAX
          omega
        · obtain ⟨hset, hmoved⟩ := clockAfter_of_lt (hclock ▸ not_le.1 hsame)
          have hbound := hs.ahead ip a.direction last hbefore hset
          rcases hafforded ip last hip hbefore with hfresh | hsoon | hnothing | hplace
          · exact absurd hfresh hset
          · omega
          · omega
          · have hstored := hplace.queue.1
            omega
  · have hkept := shapeHash_handled_of_none fun delay h hcall => hstep ⟨delay, h, hcall⟩
    refine ⟨?_, ?_⟩
    · show ClocksNormal (a.handled s.relay).relay.shapeHash
      rw [hkept]
      exact hs.normal
    · intro ip dir last hlast hset
      change lastPacketTimeOf (a.handled s.relay).relay.shapeHash ip dir = some last at hlast
      rw [hkept] at hlast
      have hbound := hs.ahead ip dir last hlast hset
      show last.usecs < a.now.usecs + SW_SHAPE_PACKET_TIME_STORE_MAX
      omega

/-- Nothing but a context with fresh clocks may come. -/
theorem Budgeted.of_clocks {s' : Shaper} (hs : Budgeted s) (hnow : s'.now = s.now)
    (hclocks : ∀ ip dir p, paramsOf s'.relay.shapeHash ip dir = some p →
      p.lastPacketTime = ⟨0, 0⟩ ∨ paramsOf s.relay.shapeHash ip dir = some p) : Budgeted s' := by
  refine ⟨?_, ?_⟩
  · intro ip dir p hp
    rcases hclocks ip dir p hp with hfresh | hold
    · exact .inl hfresh
    · exact hs.normal ip dir p hold
  · intro ip dir last hlast hset
    obtain ⟨p, hp, rfl⟩ := Option.map_eq_some_iff.1 hlast
    rw [hnow]
    refine hs.ahead ip dir _ ?_ hset
    exact Option.map_eq_some_iff.2 ⟨p, (hclocks ip dir p hp).resolve_left hset, rfl⟩

theorem paramsOf_new {ip ip' : UInt32} {dir : ShapeDir} {p : ShapeParams}
    (hp : paramsOf (ShapeHash.new h ip) ip' dir = some p) :
    p.lastPacketTime = ⟨0, 0⟩ ∨ paramsOf h ip' dir = some p := by
  unfold ShapeHash.new at hp
  cases hfound : h.retrieve ip with
  | none =>
    rw [hfound] at hp
    dsimp only at hp
    rw [paramsOf, retrieve_insert] at hp
    split at hp
    · obtain rfl := Option.some.inj hp
      cases dir <;> exact .inl rfl
    · exact .inr hp
  | some shc =>
    rw [hfound] at hp
    exact .inr hp

theorem paramsOf_delete {ip ip' : UInt32} {dir : ShapeDir} {p : ShapeParams}
    (hp : paramsOf (h.delete ip) ip' dir = some p) : paramsOf h ip' dir = some p := by
  rw [paramsOf, retrieve_delete] at hp
  split at hp
  · cases hp
  · exact hp

theorem budgeted_step {s' : Shaper} {op : ShaperOp} (hs : Budgeted s)
    (hfits : ∀ a, op = .arrive a → a.call.Fits) (hguard : op.OnArrival Afforded s)
    (hstep : ShaperStep s op s') : Budgeted s' := by
  cases hstep with
  | arrive a hlater hrc => exact budgeted_arrive hs (hfits a rfl) hlater (hguard hlater)
  | process q hprocess => exact hs.of_clocks rfl fun ip dir p hp => .inr hp
  | shapeNew ip => exact hs.of_clocks rfl fun ip dir p hp => paramsOf_new hp
  | shapeDel ip => exact hs.of_clocks rfl fun ip dir p hp => .inr (paramsOf_delete hp)

end Invariant

/-! ## Runs -/

theorem budgeted_of_empty {s : Shaper} (h : s.relay.shapeHash = ∅) : Budgeted s := by
  have hnone : ∀ ip dir, paramsOf s.relay.shapeHash ip dir = none := by
    intro ip dir
    rw [h]
    rfl
  refine ⟨?_, ?_⟩
  · intro ip dir p hp
    rw [hnone] at hp
    cases hp
  · intro ip dir last hlast
    rw [lastPacketTimeOf, hnone] at hlast
    cases hlast

/-- **The budget.**  Along every run from the start in which the arithmetic fits an `int`, all
packets leave the budget alone just if all are afforded: none that takes time and has to wait is
longer than a buffer, finds no free one, is to wait for too long or comes to a slot that is full. -/
theorem budget_iff_afforded {s₀ : Shaper} {ops : List ShaperOp} (hinit : s₀.relay.shapeHash = ∅)
    (hfits : ∀ a, .arrive a ∈ ops → a.call.Fits) :
    Run.Guarded ShaperStep (ShaperOp.OnArrival KeepsBudget) s₀ ops ↔
      Run.Guarded ShaperStep (ShaperOp.OnArrival Afforded) s₀ ops := by
  refine @Run.guarded_iff_guarded _ _ _ _ _ Budgeted _ ?_ ?_ _ (budgeted_of_empty hinit)
  · intro op hop s hs
    cases op with
    | arrive a => exact imp_congr_right fun hlater => keepsBudget_iff hs (hfits a hop) hlater
    | process | shapeNew | shapeDel => exact Iff.rfl
  · intro op hop s s' hstep hguard hs
    refine budgeted_step hs ?_ hguard hstep
    rintro a rfl
    exact hfits a hop

/-- A packet of 10.0.0.1, at a thousand kilobits a second. -/
def kiloArrival (length : ℕ) : Arrival where
  now := ⟨100, 0⟩
  queueId := .inward
  direction := .shapeIn
  tupleChain := [.ip ⟨0x0a000001, 0, 17⟩]
  rate := 1000
  packet := List.replicate length 0

/-- No context yet. -/
def idleShaper : Shaper := ⟨oneCaptiveRelay, ⟨100, 0⟩⟩

/-- Of two packets the second is longer than a buffer. -/
def longOps : List ShaperOp :=
  [.shapeNew 0x0a000001, .arrive (kiloArrival 1000), .arrive (kiloArrival 1501)]

theorem budget_iff_afforded_long :
    Run.Guarded ShaperStep (ShaperOp.OnArrival KeepsBudget) idleShaper longOps ↔
      Run.Guarded ShaperStep (ShaperOp.OnArrival Afforded) idleShaper longOps := by
  refine budget_iff_afforded rfl ?_
  have hkilo : ∀ length : ℕ, length ≤ 1501 → (kiloArrival length).call.Fits := by
    intro length hlength
    have hnow : (⟨100, 0⟩ : Timeval).WallClock := ⟨by decide, by decide, by decide⟩
    refine ⟨hnow, fun _ => (by decide : (0 : ℤ) < 1000),
      fun _ => (by decide : (1000 : ℤ) * 10 < 2 ^ 31), fun _ => ?_⟩
    show (((List.replicate length (0 : UInt8)).length : ℤ) - 40) * 8 * 10000 < 2 ^ 31
    rw [List.length_replicate]
    omega
  intro a ha
  simp only [longOps, List.mem_cons, reduceCtorEq, ShaperOp.arrive.injEq, List.not_mem_nil,
    or_false, false_or] at ha
  rcases ha with rfl | rfl
  · exact hkilo _ (by decide)
  · exact hkilo _ le_rfl

/-- The relay with a context for 10.0.0.1. -/
def kiloRelay : Relay :=
  { oneCaptiveRelay with shapeHash := ShapeHash.new oneCaptiveRelay.shapeHash 0x0a000001 }

/-- The budget is not always kept: the second packet is refused, and the clock is 11.688 ms on. -/
theorem budget_consumed :
    ¬ Run.Guarded ShaperStep (ShaperOp.OnArrival KeepsBudget) idleShaper longOps := by
  intro h
  have hrc : ((kiloArrival 1000).handled kiloRelay).rc = some 0 := by decide +kernel
  have hrun : Run ShaperStep idleShaper [.shapeNew 0x0a000001, .arrive (kiloArrival 1000)]
      ⟨((kiloArrival 1000).handled kiloRelay).relay, ⟨100, 0⟩⟩ :=
    .cons (.shapeNew 0x0a000001) (.single (.arrive (kiloArrival 1000) le_rfl hrc))
  have hops : longOps = [.shapeNew 0x0a000001, .arrive (kiloArrival 1000)] ++
      .arrive (kiloArrival 1501) :: [] := rfl
  have hlater : (⟨100, 0⟩ : Timeval).usecs ≤ (kiloArrival 1501).now.usecs := le_rfl
  have hwait : (shapeSchedule ((kiloArrival 1000).handled kiloRelay).relay.shapeHash
      (kiloArrival 1501).now (kiloArrival 1501).tupleChain (kiloArrival 1501).packet.length
      (kiloArrival 1501).rate (kiloArrival 1501).direction).map Prod.snd = some 11688 := by
    decide +kernel
  have hlong : (memgmtGetBuf ((kiloArrival 1000).handled kiloRelay).relay.memgmt
      (kiloArrival 1501).packet.length).2 = none := by
    decide +kernel
  have hmoved : lastPacketTimeOf ((kiloArrival 1501).handled
      ((kiloArrival 1000).handled kiloRelay).relay).relay.shapeHash 0x0a000001 .shapeIn ≠
        lastPacketTimeOf ((kiloArrival 1000).handled kiloRelay).relay.shapeHash 0x0a000001
          .shapeIn := by
    decide +kernel
  generalize ((kiloArrival 1000).handled kiloRelay).relay = s at hrun hwait hlong hmoved
  generalize kiloArrival 1501 = a at hops hlater hwait hlong hmoved
  have hkeeps := h _ _ _ _ hops hrun hlater
  obtain ⟨⟨hash, delay⟩, hschedule, rfl⟩ := Option.map_eq_some_iff.1 hwait
  have hwaits : a.Waits s 11688 := ⟨⟨hash, hschedule⟩, by decide, by decide⟩
  exact hmoved (hkeeps.refused ⟨11688, hwaits, .inl hlong⟩ 0x0a000001 .shapeIn)

end Sweetspot
