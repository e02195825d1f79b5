import Sweetspot.Shape.Clock
import Sweetspot.Shape.Delivery

/-!
# The order of shaped packets

The clock of a direction of a context never goes back, so its packets are to be sent in the order in
which they were scheduled.  The queue knows whole milliseconds only, counted from the last time it
was processed, and sends what is in a slot from the last.

* `ShapeOp`, `ShapeOpStep`: scheduling, delaying and processing, in any order.
* `Queued`: a packet in a queue, with its place in the order of scheduling.
* `InOrder`: what is sent of a direction of a context, in that order.
* `SlotsAscend`: the slots its packets were put into, and `shaping_inOrder_iff`.
-/

namespace Sweetspot

/-! ## Operations -/

/-- A packet for a queue: which call of `sw_shape_schedule` it was, and what that returned. -/
structure Queued where
  ticket : ℕ
  call : ScheduleCall
  delay : ℤ
  packet : ShapePacket

/-- The relay of a direction has its queue. -/
def ShapeDir.queue : ShapeDir → QueueId
  | .shapeIn => .inward
  | .shapeOut => .outward

/-- `sw_shape_schedule`, `sw_shape_delay` and `sw_shape_queue_process`, and what they gave. -/
inductive ShapeOp
  | schedule (c : ScheduleCall) (delay : ℤ)
  | delay (now : Timeval) (e : Queued) (accepted : Bool)
  | process (now : Timeval) (q : QueueId) (sent : List Sent)

/-- The clocks, the queues, and the calls of `sw_shape_schedule` so far. -/
structure ShapeLine where
  shapeHash : ShapeHash
  queues : QueueId → ShapeQueue
  scheduled : List (ScheduleCall × ℤ)

/-- The buffers may hold anything when a queue is processed. -/
inductive ShapeOpStep : ShapeLine → ShapeOp → ShapeLine → Prop
  | schedule {s : ShapeLine} {c : ScheduleCall} {delay : ℤ} {h : ShapeHash}
    (hschedule : ScheduleStep s.shapeHash (c, delay) h) :
    ShapeOpStep s (.schedule c delay)
      { s with shapeHash := h, scheduled := s.scheduled ++ [(c, delay)] }
  | delay {s : ShapeLine} (now : Timeval) {e : Queued} {q : ShapeQueue} {accepted : Bool}
    (hscheduled : s.scheduled[e.ticket]? = some (e.call, e.delay))
    (hdelay : shapeDelay (s.queues e.call.direction.queue) e.delay e.packet.packet
      e.packet.length = some (q, accepted)) :
    ShapeOpStep s (.delay now e accepted)
      { s with queues := Function.update s.queues e.call.direction.queue q }
  | process {s : ShapeLine} (now : Timeval) (q : QueueId) {m m' : Memgmt} {sent : List Sent}
    {queue : ShapeQueue} (hprocess : shapeQueueProcess m (s.queues q) = (sent, m', queue)) :
    ShapeOpStep s (.process now q sent) { s with queues := Function.update s.queues q queue }

/-- A queue is processed once a millisecond, from `t₀` on: the count of passes is that of the
milliseconds. -/
def ShapeOp.OnTime (t₀ : ℤ) (passes : QueueId → ℕ) : ShapeOp → Prop
  | .schedule c _ => ∀ q, (passes q : ℤ) = (c.now.usecs - t₀) / SW_SHAPE_QUEUE_PROCESS_FRQ
  | .delay now _ _ => ∀ q, (passes q : ℤ) = (now.usecs - t₀) / SW_SHAPE_QUEUE_PROCESS_FRQ
  | .process now q _ => (passes q + 1 : ℤ) = (now.usecs - t₀) / SW_SHAPE_QUEUE_PROCESS_FRQ

/-- The passes after an operation. -/
def ShapeOp.pass (passes : QueueId → ℕ) : ShapeOp → QueueId → ℕ
  | .process _ q _ => Function.update passes q (passes q + 1)
  | _ => passes

/-- All operations are on time. -/
def Paced (t₀ : ℤ) (passes : QueueId → ℕ) : List ShapeOp → Prop
  | [] => True
  | op :: ops => op.OnTime t₀ passes ∧ Paced t₀ (op.pass passes) ops

/-! ## What is sent -/

/-- All that a queue sent. -/
def sends (q : QueueId) : List ShapeOp → List Sent
  | [] => []
  | .process _ q' sent :: ops => if q' = q then sent ++ sends q ops else sends q ops
  | _ :: ops => sends q ops

/-- How many slots ahead of the current one a packet is put; a negative delay may come to a slot
that was just left. -/
def slotsAhead (delaytimeUsec : ℤ) : ℕ :=
  (delaytimeUsec.tdiv SW_SHAPE_QUEUE_PROCESS_FRQ % SW_SHAPE_GLOBAL_TIME_QUEUE_LENGTH).toNat

/-- What an operation does to a queue as a wheel. -/
def ShapeOp.lineOp (q : QueueId) : ShapeOp → Option (WheelOp Queued)
  | .delay _ e true =>
    if e.call.direction.queue = q then some (.put (slotsAhead e.delay) e) else none
  | .process _ q' _ => if q' = q then some .tick else none
  | _ => none

/-- What was done to a queue. -/
def lineOps (q : QueueId) (ops : List ShapeOp) : List (WheelOp Queued) :=
  ops.filterMap (ShapeOp.lineOp q)

/-- The queue as it should be. -/
def line (q : QueueId) (ops : List ShapeOp) :
    TimingWheel Queued SW_SHAPE_GLOBAL_TIME_QUEUE_LENGTH :=
  TimingWheel.run shapeQueueLength_pos (lineOps q ops)

/-- The packets that a queue sent. -/
def sentPackets (q : QueueId) (ops : List ShapeOp) : List Queued :=
  (TimingWheel.empty shapeQueueLength_pos).output (lineOps q ops)

/-- Those of a direction of a context are sent in the order in which they were scheduled. -/
def InOrder (ip : UInt32) (dir : ShapeDir) (ops : List ShapeOp) : Prop :=
  (sentPackets dir.queue ops).Pairwise fun x y =>
    x.call.Concerns ip dir → y.call.Concerns ip dir → x.ticket ≤ y.ticket

/-- The packets that a queue accepted, each with the number of its slot: how often the queue was
processed so far, and how many slots ahead it was put. -/
def slotted (q : QueueId) (ops : List ShapeOp) : List (ℕ × Queued) :=
  TimingWheel.places 0 (lineOps q ops)

/-- How often a queue was processed. -/
def passesOf (q : QueueId) (ops : List ShapeOp) : ℕ := TimingWheel.ticks (lineOps q ops)

/-- Of two packets in slots that were processed, the one that was put in first was scheduled first
if its slot is the earlier one, and last if it is not. -/
def SlotsAscend (ip : UInt32) (dir : ShapeDir) (ops : List ShapeOp) : Prop :=
  (slotted dir.queue ops).Pairwise fun x y =>
    x.1 < passesOf dir.queue ops → y.1 < passesOf dir.queue ops →
    x.2.call.Concerns ip dir → y.2.call.Concerns ip dir →
      if x.1 < y.1 then x.2.ticket ≤ y.2.ticket else y.2.ticket ≤ x.2.ticket

/-! ## Queues -/

section Queue

variable {q q' : ShapeQueue} {delaytimeUsec : ℤ} {packet length : ℕ}

theorem slotsAhead_lt (delaytimeUsec : ℤ) :
    slotsAhead delaytimeUsec < SW_SHAPE_GLOBAL_TIME_QUEUE_LENGTH := by
  unfold slotsAhead SW_SHAPE_GLOBAL_TIME_QUEUE_LENGTH
  omega

/-- Whatever the delay, a packet that is accepted is put so many slots ahead. -/
theorem wheel_of_accepted
    (h : shapeDelay q delaytimeUsec packet length = some (q', true)) :
    q'.wheel = q.wheel.put (slotsAhead delaytimeUsec) ⟨packet, length⟩ := by
  have hlt := q.currTimePtr_lt
  unfold shapeDelay at h
  split at h
  · cases h
  · rename_i hdelay
    have hoff : delaytimeUsec.tdiv SW_SHAPE_QUEUE_PROCESS_FRQ < 9000 := by
      rcases le_total 0 delaytimeUsec with hpos | hneg
      · rw [Int.tdiv_eq_ediv_of_nonneg hpos]
        unfold SW_SHAPE_PACKET_TIME_STORE_MAX SW_SHAPE_QUEUE_PROCESS_FRQ at *
        omega
      · have hback : 0 ≤ (-delaytimeUsec).tdiv SW_SHAPE_QUEUE_PROCESS_FRQ :=
          Int.tdiv_nonneg (by omega) (by decide)
        rw [Int.neg_tdiv] at hback
        omega
    dsimp only at h
    generalize hidx : (if (q.currTimePtr : ℤ) + delaytimeUsec.tdiv SW_SHAPE_QUEUE_PROCESS_FRQ ≥
        SW_SHAPE_GLOBAL_TIME_QUEUE_LENGTH then
          (q.currTimePtr : ℤ) + delaytimeUsec.tdiv SW_SHAPE_QUEUE_PROCESS_FRQ -
            SW_SHAPE_GLOBAL_TIME_QUEUE_LENGTH
        else (q.currTimePtr : ℤ) + delaytimeUsec.tdiv SW_SHAPE_QUEUE_PROCESS_FRQ) = idx at h
    -- one turn of the wheel, either way
    have hahead : 0 ≤ idx → idx.toNat = q.wheel.ahead (slotsAhead delaytimeUsec) := by
      intro hidx'
      show _ = (q.currTimePtr + (delaytimeUsec.tdiv SW_SHAPE_QUEUE_PROCESS_FRQ %
        SW_SHAPE_GLOBAL_TIME_QUEUE_LENGTH).toNat) % SW_SHAPE_GLOBAL_TIME_QUEUE_LENGTH
      generalize delaytimeUsec.tdiv SW_SHAPE_QUEUE_PROCESS_FRQ = off at hidx hoff
      unfold SW_SHAPE_GLOBAL_TIME_QUEUE_LENGTH at *
      split at hidx <;> omega
    split_ifs at h with hneg hfull
    · cases h
    · obtain ⟨rfl, -⟩ := Prod.mk.inj (Option.some.inj h)
      rw [hahead (by omega)]
      rfl

theorem eq_of_refused (h : shapeDelay q delaytimeUsec packet length = some (q', false)) :
    q' = q := by
  unfold shapeDelay at h
  split at h
  · cases h
    rfl
  · dsimp only at h
    split_ifs at h <;> cases h <;> rfl

/-- A slot is sent from the last. -/
theorem buf_queueProcessLoop (m : Memgmt) (slot : List ShapePacket) :
    (queueProcessLoop m slot).1.map Sent.buf = slot.map ShapePacket.packet := by
  induction slot generalizing m with
  | nil => rfl
  | cons p slot ih =>
    rw [queueProcessLoop, List.map_cons]
    exact congrArg (p.packet :: ·) (ih _)

end Queue

/-! ## Histories -/

section History

variable {s s' : ShapeLine} {ops : List ShapeOp} {op : ShapeOp} {q : QueueId}

theorem lineOps_concat (q : QueueId) (ops : List ShapeOp) (op : ShapeOp) :
    lineOps q (ops ++ [op]) = lineOps q ops ++ (op.lineOp q).toList := by
  rw [lineOps, List.filterMap_append, lineOps]
  cases hop : op.lineOp q <;> simp [hop]

theorem sends_concat (q : QueueId) (ops : List ShapeOp) (op : ShapeOp) :
    sends q (ops ++ [op]) = sends q ops ++ sends q [op] := by
  induction ops with
  | nil => rfl
  | cons op' ops ih =>
    cases op' with
    | schedule | delay => exact ih
    | process now q' sent =>
      rw [List.cons_append, sends, sends, ih]
      split
      · rw [List.append_assoc]
      · rfl

theorem lineOps_lt (q : QueueId) (ops : List ShapeOp) :
    ∀ j e, .put j e ∈ lineOps q ops → j < SW_SHAPE_GLOBAL_TIME_QUEUE_LENGTH := by
  intro j e hmem
  obtain ⟨op, -, hop⟩ := List.mem_filterMap.1 hmem
  unfold ShapeOp.lineOp at hop
  split at hop
  · split at hop
    · cases hop
      exact slotsAhead_lt _
    · cases hop
  · split at hop <;> cases hop
  · cases hop

/-- The queues have what was put into them, and what they sent are the packets of their history. -/
structure Lined (ops : List ShapeOp) (s : ShapeLine) : Prop where
  wheels : ∀ q, (s.queues q).wheel = (line q ops).map Queued.packet
  sent : ∀ q, (sends q ops).map Sent.buf =
    (sentPackets q ops).map fun e => e.packet.packet

/-- The same of one queue. -/
def LinedAt (q : QueueId) (ops : List ShapeOp) (queue : ShapeQueue) : Prop :=
  queue.wheel = (line q ops).map Queued.packet ∧
    (sends q ops).map Sent.buf = (sentPackets q ops).map fun e => e.packet.packet

theorem lined_iff : Lined ops s ↔ ∀ q, LinedAt q ops (s.queues q) :=
  ⟨fun hs q => ⟨hs.wheels q, hs.sent q⟩, fun hs => ⟨fun q => (hs q).1, fun q => (hs q).2⟩⟩

section Operations

variable {queue queue' : ShapeQueue}

/-- An operation that is nothing to a queue. -/
theorem LinedAt.quiet (hs : LinedAt q ops queue) (hop : op.lineOp q = none)
    (hsends : sends q [op] = []) : LinedAt q (ops ++ [op]) queue := by
  have hops : lineOps q (ops ++ [op]) = lineOps q ops := by
    rw [lineOps_concat, hop, Option.toList_none, List.append_nil]
  unfold LinedAt line sentPackets
  rw [hops, sends_concat, hsends, List.append_nil]
  exact hs

/-- `sw_shape_delay` puts a packet where the history has it. -/
theorem LinedAt.delay (now : Timeval) {e : Queued} {accepted : Bool}
    (hs : LinedAt e.call.direction.queue ops queue)
    (hdelay : shapeDelay queue e.delay e.packet.packet e.packet.length = some (queue', accepted)) :
    LinedAt e.call.direction.queue (ops ++ [.delay now e accepted]) queue' := by
  cases accepted with
  | false =>
    rw [eq_of_refused hdelay]
    exact hs.quiet rfl rfl
  | true =>
    have hop : (ShapeOp.delay now e true).lineOp e.call.direction.queue =
        some (.put (slotsAhead e.delay) e) := if_pos rfl
    have hsends : sends e.call.direction.queue [.delay now e true] = [] := rfl
    unfold LinedAt line sentPackets
    rw [lineOps_concat, hop, Option.toList_some, TimingWheel.run_concat,
      TimingWheel.output_concat_put, sends_concat, hsends, List.append_nil]
    refine ⟨?_, hs.2⟩
    rw [wheel_of_accepted hdelay, hs.1, TimingWheel.exec, TimingWheel.map_put]
    rfl

/-- `sw_shape_queue_process` sends the slot that the history comes to. -/
theorem LinedAt.process (now : Timeval) {m m' : Memgmt} {sent : List Sent}
    (hs : LinedAt q ops queue) (hprocess : shapeQueueProcess m queue = (sent, m', queue')) :
    LinedAt q (ops ++ [.process now q sent]) queue' := by
  have hop : (ShapeOp.process now q sent).lineOp q = some .tick := if_pos rfl
  have htick := (line q ops).map_tick Queued.packet
  rw [← hs.1] at htick
  have hslot : queue.timeslots queue.currTimePtr = (line q ops).tick.1.map Queued.packet :=
    congrArg Prod.fst htick
  have hsent : sent.map Sent.buf = (line q ops).tick.1.map fun e => e.packet.packet := by
    have hloop := buf_queueProcessLoop m (queue.timeslots queue.currTimePtr)
    rw [shapeQueueProcess] at hprocess
    rw [(congrArg Prod.fst hprocess : _ = sent), hslot, List.map_map] at hloop
    exact hloop
  have hsends : sends q [.process now q sent] = sent := by
    rw [sends, if_pos rfl, sends, List.append_nil]
  have hwheel := shapeQueueProcess_wheel m queue
  rw [hprocess] at hwheel
  unfold LinedAt
  rw [line, sentPackets, lineOps_concat, hop, Option.toList_some, TimingWheel.run_concat,
    TimingWheel.output_concat_tick, sends_concat, hsends, List.map_append, List.map_append, hs.2,
    hsent]
  exact ⟨hwheel.trans (congrArg Prod.snd htick), rfl⟩

end Operations

theorem lined_step (hs : Lined ops s) (hstep : ShapeOpStep s op s') :
    Lined (ops ++ [op]) s' := by
  rw [lined_iff] at hs ⊢
  intro q
  cases hstep with
  | schedule hschedule => exact (hs q).quiet rfl rfl
  | @delay now e queue accepted hscheduled hdelay =>
    by_cases hq : q = e.call.direction.queue
    · subst hq
      have hafter := (hs _).delay now hdelay
      simpa only [Function.update_self] using hafter
    · have hop : (ShapeOp.delay now e accepted).lineOp q = none := by
        cases accepted with
        | false => rfl
        | true => exact if_neg (Ne.symm hq)
      simpa only [Function.update_of_ne hq] using (hs q).quiet hop rfl
  | @process now q' m m' sent queue hprocess =>
    by_cases hq : q = q'
    · subst hq
      have hafter := (hs q).process now hprocess
      simpa only [Function.update_self] using hafter
    · have hop : (ShapeOp.process now q' sent).lineOp q = none := if_neg (Ne.symm hq)
      have hsends : sends q [.process now q' sent] = [] := if_neg (Ne.symm hq)
      simpa only [Function.update_of_ne hq] using (hs q).quiet hop hsends

/-- **The order a history says.** -/
theorem inOrder_iff_slotsAscend (ip : UInt32) (dir : ShapeDir) (ops : List ShapeOp) :
    InOrder ip dir ops ↔ SlotsAscend ip dir ops := by
  have hlen := shapeQueueLength_pos
  have hiff := TimingWheel.pairwise_output_iff hlen
    (fun x y : Queued => x.call.Concerns ip dir → y.call.Concerns ip dir → x.ticket ≤ y.ticket)
    (lineOps_lt dir.queue ops)
  refine hiff.trans ?_
  unfold SlotsAscend slotted passesOf TimingWheel.Ordered
  -- whichever slot is the earlier one, both packets have to be of the context
  have hsplit : ∀ x y : ℕ × Queued,
      (if x.1 < y.1 then
        x.2.call.Concerns ip dir → y.2.call.Concerns ip dir → x.2.ticket ≤ y.2.ticket
      else y.2.call.Concerns ip dir → x.2.call.Concerns ip dir → y.2.ticket ≤ x.2.ticket) ↔
      (x.2.call.Concerns ip dir → y.2.call.Concerns ip dir →
        if x.1 < y.1 then x.2.ticket ≤ y.2.ticket else y.2.ticket ≤ x.2.ticket) := by
    intro x y
    split
    · exact Iff.rfl
    · exact ⟨fun h hx hy => h hy hx, fun h hy hx => h hx hy⟩
  simp only [hsplit]

end History

/-! ## Runs -/

/-- **Order.**  In every run a queue sends the packets of its history, and those of a direction of a
context are sent in the order in which they were scheduled just if the slots they were put into
ascend. -/
theorem shaping_inOrder_iff {s₀ s : ShapeLine} {ops : List ShapeOp}
    (hinit : ∀ q, s₀.queues q = shapeQueueCreate) (hrun : Run ShapeOpStep s₀ ops s) :
    (∀ q, (sends q ops).map Sent.buf = (sentPackets q ops).map fun e => e.packet.packet) ∧
    ∀ ip dir, InOrder ip dir ops ↔ SlotsAscend ip dir ops := by
  have hs : Lined ops s := by
    refine hrun.history (P := Lined) ⟨fun q => ?_, fun _ => rfl⟩
      fun ops s op s' _ hs hstep => lined_step hs hstep
    rw [hinit]
    rfl
  exact ⟨hs.sent, fun ip dir => inOrder_iff_slotsAscend ip dir ops⟩

/-- A packet of 100 octets of 10.0.0.1, at six megabits a second. -/
def fastPacket : ScheduleCall where
  now := ⟨100, 0⟩
  tupleChain := [.ip ⟨0x0a000001, 0, 17⟩]
  length := 100
  rate := 6000
  direction := .shapeIn

/-- Three packets at once: the first is sent, the others are to wait for 80 and 160 microseconds. -/
def fastOps : List ShapeOp :=
  [.schedule fastPacket 0,
    .schedule fastPacket 80, .delay ⟨100, 0⟩ ⟨1, fastPacket, 80, ⟨7, 100⟩⟩ true,
    .schedule fastPacket 160, .delay ⟨100, 0⟩ ⟨2, fastPacket, 160, ⟨8, 100⟩⟩ true] ++
  [.process ⟨100, 1000⟩ .inward (queueProcessLoop memgmtCreate [⟨8, 100⟩, ⟨7, 100⟩]).1]

theorem run_fastOps :
    ∃ s, Run ShapeOpStep ⟨freshShape, fun _ => shapeQueueCreate, []⟩ fastOps s := by
  -- the clocks
  have hfresh : freshShape.retrieve 0x0a000001 =
      some ⟨0x0a000001, ⟨0, ⟨0, 0⟩⟩, ⟨0, ⟨0, 0⟩⟩⟩ := by
    rw [freshShape, retrieve_insert, if_pos rfl]
  have hfound : ∀ (t : ShapeHash) (shc : ShapeClocks), shc.prvIp = 0x0a000001 →
      (t.insert shc).retrieve 0x0a000001 = some shc := by
    intro t shc hip
    rw [retrieve_insert, if_pos hip]
  have hfirst : (⟨0, ⟨0, 0⟩⟩ : ShapeParams).schedule ⟨100, 0⟩ 100 6000 =
      some (⟨100, ⟨100, 0⟩⟩, 0) := by decide
  have hsecond : (⟨100, ⟨100, 0⟩⟩ : ShapeParams).schedule ⟨100, 0⟩ 100 6000 =
      some (⟨100, ⟨100, 80⟩⟩, 80) := by decide
  have hthird : (⟨100, ⟨100, 80⟩⟩ : ShapeParams).schedule ⟨100, 0⟩ 100 6000 =
      some (⟨100, ⟨100, 160⟩⟩, 160) := by decide
  -- the queue
  have hput : ∀ (q : ShapeQueue) (delay packet : ℕ), q.Takes delay →
      shapeDelay q delay packet 100 = some (q.put (delay / 1000) ⟨packet, 100⟩, true) := by
    intro q delay packet htakes
    rw [shapeDelay_eq, if_pos htakes]
  obtain ⟨s, hrun, hslot⟩ : ∃ s, Run ShapeOpStep ⟨freshShape, fun _ => shapeQueueCreate, []⟩
      [.schedule fastPacket 0,
        .schedule fastPacket 80, .delay ⟨100, 0⟩ ⟨1, fastPacket, 80, ⟨7, 100⟩⟩ true,
        .schedule fastPacket 160, .delay ⟨100, 0⟩ ⟨2, fastPacket, 160, ⟨8, 100⟩⟩ true] s ∧
      (s.queues .inward).timeslots (s.queues .inward).currTimePtr = [⟨8, 100⟩, ⟨7, 100⟩] :=
    ⟨_, .cons (.schedule (scheduleStep_of_clock rfl hfresh hfirst))
      (.cons (.schedule (scheduleStep_of_clock rfl (hfound _ _ rfl) hsecond))
        (.cons (.delay _ rfl (hput _ 80 7 (by decide)))
          (.cons (.schedule (scheduleStep_of_clock rfl (hfound _ _ rfl) hthird))
            (.cons (.delay _ rfl (hput _ 160 8 (by decide))) (.nil _))))), rfl⟩
  have hprocess : shapeQueueProcess memgmtCreate (s.queues .inward) =
      ((queueProcessLoop memgmtCreate [⟨8, 100⟩, ⟨7, 100⟩]).1,
        (shapeQueueProcess memgmtCreate (s.queues .inward)).2) := by
    rw [← hslot]
    rfl
  exact ⟨_, Run.concat_iff.2 ⟨s, hrun, .process _ .inward hprocess⟩⟩

theorem shaping_inOrder_iff_fast :
    ∃ s, Run ShapeOpStep ⟨freshShape, fun _ => shapeQueueCreate, []⟩ fastOps s ∧
    (∀ q, (sends q fastOps).map Sent.buf =
      (sentPackets q fastOps).map fun e => e.packet.packet) ∧
    ∀ ip dir, InOrder ip dir fastOps ↔ SlotsAscend ip dir fastOps := by
  obtain ⟨s, hrun⟩ := run_fastOps
  exact ⟨s, hrun, shaping_inOrder_iff (fun _ => rfl) hrun⟩

/-- The order is not always kept: the third packet is sent before the second. -/
theorem shaping_reordered :
    ¬ ∀ (s₀ s : ShapeLine) (ops : List ShapeOp) (t₀ : ℤ),
      (∀ q, s₀.queues q = shapeQueueCreate) → Run ShapeOpStep s₀ ops s →
      Paced t₀ (fun _ => 0) ops → ∀ ip dir, InOrder ip dir ops := by
  intro h
  obtain ⟨s, hrun⟩ := run_fastOps
  have hpaced : Paced 100000000 (fun _ => 0) fastOps := by
    refine ⟨?_, ?_, ?_, ?_, ?_, rfl, trivial⟩ <;>
    · intro q
      rfl
  have horder := h _ s fastOps _ (fun _ => rfl) hrun hpaced 0x0a000001 .shapeIn
  have hsent : sentPackets ShapeDir.shapeIn.queue fastOps =
      [⟨2, fastPacket, 160, ⟨8, 100⟩⟩, ⟨1, fastPacket, 80, ⟨7, 100⟩⟩] := rfl
  rw [InOrder, hsent, List.pairwise_pair] at horder
  exact absurd (horder ⟨rfl, rfl⟩ ⟨rfl, rfl⟩) (by decide)

end Sweetspot
