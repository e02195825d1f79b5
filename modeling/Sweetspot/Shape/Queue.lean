import Sweetspot.Lib.TimingWheel

/-!
# Delay queues

A packet that is to be sent later is copied to a buffer, and the buffer put into a slot of a queue:
as many slots ahead as there are milliseconds to wait.  Every millisecond the next slot is sent.

* `memgmtGetBuf`, `memgmtFreeBuf`: the buffers.
* `shapeDelay`, `shapeQueueProcess`: the queues.
* `ShapeQueue.wheel`: a queue is a timing wheel, with `shapeDelay_outcome` and
  `shapeQueueProcess_wheel`.
-/

namespace Sweetspot

def SW_MEMGMT_BUF_NUM : ℕ := 10000
def SW_MEMGMT_BUF_SIZE : ℕ := 1500

/-- In microseconds. -/
def SW_SHAPE_PACKET_TIME_STORE_MAX : ℤ := 9000000

/-- In microseconds. -/
def SW_SHAPE_QUEUE_PROCESS_FRQ : ℤ := 1000

def SW_SHAPE_GLOBAL_TIME_QUEUE_LENGTH : ℕ := 9000
def SW_SHAPE_PACKET_PROCESS_MAX : ℕ := 2048

theorem shapeQueueLength_pos : 0 < SW_SHAPE_GLOBAL_TIME_QUEUE_LENGTH := by decide

/-! ## Buffers -/

/-- `bufs`, and `free_buf_idx` up to `last_free_buf`, from the top. -/
structure Memgmt where
  freeBufIdx : List ℕ
  bufs : ℕ → List UInt8

/-- `sw_memgmt_create`. -/
def memgmtCreate : Memgmt where
  freeBufIdx := (List.range SW_MEMGMT_BUF_NUM).reverse
  bufs := fun _ => List.replicate SW_MEMGMT_BUF_SIZE 0

theorem memgmtCreate_freeBufIdx :
    memgmtCreate.freeBufIdx = (List.range SW_MEMGMT_BUF_NUM).reverse := by
  rw [memgmtCreate]

/-- `sw_memgmt_get_buf`; `none` is `-1`. -/
def memgmtGetBuf (m : Memgmt) (bufsize : ℕ) : Memgmt × Option ℕ :=
  if bufsize > 1500 then (m, none)
  else
    match m.freeBufIdx with
    | [] => (m, none)
    | idx :: free => ({ m with freeBufIdx := free }, some idx)

/-- A packet gets no buffer if it is longer than one, or none is free. -/
theorem memgmtGetBuf_eq_none_iff (m : Memgmt) (bufsize : ℕ) :
    (memgmtGetBuf m bufsize).2 = none ↔ SW_MEMGMT_BUF_SIZE < bufsize ∨ m.freeBufIdx = [] := by
  unfold memgmtGetBuf SW_MEMGMT_BUF_SIZE
  split
  · rename_i hlong
    exact iff_of_true rfl (.inl hlong)
  · rename_i hshort
    cases hfree : m.freeBufIdx with
    | nil => simp
    | cons idx free => simpa using hshort

/-- `sw_memgmt_free_buf`; `false` is `-1`. -/
def memgmtFreeBuf (m : Memgmt) (idx : ℕ) : Memgmt × Bool :=
  if idx ≥ SW_MEMGMT_BUF_NUM ∨ m.freeBufIdx.length = SW_MEMGMT_BUF_NUM then (m, false)
  else ({ m with freeBufIdx := idx :: m.freeBufIdx }, true)

/-- `memcpy` of a packet to a buffer. -/
def Memgmt.memcpy (m : Memgmt) (idx : ℕ) (packet : List UInt8) : Memgmt :=
  { m with bufs := Function.update m.bufs idx (packet ++ (m.bufs idx).drop packet.length) }

@[simp] theorem memcpy_freeBufIdx (m : Memgmt) (idx : ℕ) (packet : List UInt8) :
    (m.memcpy idx packet).freeBufIdx = m.freeBufIdx := rfl

/-- The buffer has the packet then. -/
theorem take_memcpy_self (m : Memgmt) (idx : ℕ) (packet : List UInt8) :
    ((m.memcpy idx packet).bufs idx).take packet.length = packet := by
  show (Function.update m.bufs idx _ idx).take packet.length = packet
  rw [Function.update_self, List.take_left]

theorem memcpy_of_ne (m : Memgmt) {idx i : ℕ} (packet : List UInt8) (hi : i ≠ idx) :
    (m.memcpy idx packet).bufs i = m.bufs i :=
  Function.update_of_ne hi _ _

/-! ## Queues -/

/-- `sw_shape_packet_t`, with the index of the buffer. -/
structure ShapePacket where
  packet : ℕ
  length : ℕ
  deriving DecidableEq

/-- `sw_shape_queue_el_t`; a slot has its packets up to `next_free_slot`, from the last. -/
structure ShapeQueue where
  currTimePtr : ℕ
  timeslots : ℕ → List ShapePacket
  currTimePtr_lt : currTimePtr < SW_SHAPE_GLOBAL_TIME_QUEUE_LENGTH

/-- `sw_shape_queue_create`. -/
def shapeQueueCreate : ShapeQueue := ⟨0, fun _ => [], shapeQueueLength_pos⟩

/-- `sw_shape_delay`: `false` is `-1`, and `none` a slot before the first. -/
def shapeDelay (q : ShapeQueue) (delaytimeUsec : ℤ) (packet length : ℕ) :
    Option (ShapeQueue × Bool) :=
  if delaytimeUsec ≥ SW_SHAPE_PACKET_TIME_STORE_MAX then some (q, false)
  else
    let timeOff := delaytimeUsec.tdiv SW_SHAPE_QUEUE_PROCESS_FRQ
    let idx := q.currTimePtr + timeOff
    let idx := if idx ≥ SW_SHAPE_GLOBAL_TIME_QUEUE_LENGTH then
      idx - SW_SHAPE_GLOBAL_TIME_QUEUE_LENGTH else idx
    if idx < 0 then none
    else
      let slot := q.timeslots idx.toNat
      if slot.length ≥ SW_SHAPE_PACKET_PROCESS_MAX then some (q, false)
      else some ({ q with
        timeslots := Function.update q.timeslots idx.toNat (⟨packet, length⟩ :: slot) }, true)

/-- A slot before the first: the wait is negative. -/
theorem shapeDelay_eq_none_iff (q : ShapeQueue) (delaytimeUsec : ℤ) (packet length : ℕ) :
    shapeDelay q delaytimeUsec packet length = none ↔
      q.currTimePtr + delaytimeUsec.tdiv SW_SHAPE_QUEUE_PROCESS_FRQ < 0 := by
  unfold shapeDelay SW_SHAPE_PACKET_TIME_STORE_MAX
  split
  · have hpos : 0 ≤ delaytimeUsec.tdiv SW_SHAPE_QUEUE_PROCESS_FRQ :=
      Int.tdiv_nonneg (by omega) (by decide)
    simp only [reduceCtorEq, false_iff]
    omega
  · dsimp only
    generalize delaytimeUsec.tdiv SW_SHAPE_QUEUE_PROCESS_FRQ = timeOff
    have hlt := q.currTimePtr_lt
    split_ifs with hwrap hneg hfull <;> simp only [true_iff, false_iff] <;> omega

/-- What `send` is given: a buffer, and what is in it up to the length. -/
structure Sent where
  buf : ℕ
  data : List UInt8
  deriving DecidableEq

/-- The loop over a slot: a packet is sent, and its buffer freed. -/
def queueProcessLoop (m : Memgmt) : List ShapePacket → List Sent × Memgmt
  | [] => ([], m)
  | p :: slot =>
    let sent : Sent := ⟨p.packet, (m.bufs p.packet).take p.length⟩
    let (rest, m) := queueProcessLoop (memgmtFreeBuf m p.packet).1 slot
    (sent :: rest, m)

/-- `sw_shape_queue_process`. -/
def shapeQueueProcess (m : Memgmt) (q : ShapeQueue) : List Sent × Memgmt × ShapeQueue :=
  let timeP := q.currTimePtr
  let (sent, m) := queueProcessLoop m (q.timeslots timeP)
  (sent, m,
    { currTimePtr := if timeP = SW_SHAPE_GLOBAL_TIME_QUEUE_LENGTH - 1 then 0 else timeP + 1
      timeslots := Function.update q.timeslots timeP []
      currTimePtr_lt := by
        have hlt := q.currTimePtr_lt
        unfold SW_SHAPE_GLOBAL_TIME_QUEUE_LENGTH at *
        split <;> omega })

/-! ## A queue is a timing wheel -/

/-- The queue as a wheel. -/
def ShapeQueue.wheel (q : ShapeQueue) :
    TimingWheel ShapePacket SW_SHAPE_GLOBAL_TIME_QUEUE_LENGTH :=
  ⟨q.currTimePtr, q.timeslots, q.currTimePtr_lt⟩

/-- The queue with one more packet so many milliseconds ahead. -/
def ShapeQueue.put (q : ShapeQueue) (ahead : ℕ) (p : ShapePacket) : ShapeQueue :=
  { q with
    timeslots := Function.update q.timeslots (q.wheel.ahead ahead)
      (p :: q.timeslots (q.wheel.ahead ahead)) }

/-- A delay that is not too long, to a slot that is not full. -/
def ShapeQueue.Takes (q : ShapeQueue) (delaytimeUsec : ℕ) : Prop :=
  delaytimeUsec < SW_SHAPE_PACKET_TIME_STORE_MAX ∧
    (q.timeslots (q.wheel.ahead (delaytimeUsec / 1000))).length < SW_SHAPE_PACKET_PROCESS_MAX

instance (q : ShapeQueue) (delaytimeUsec : ℕ) : Decidable (q.Takes delaytimeUsec) :=
  inferInstanceAs (Decidable (_ ∧ _))

theorem ahead_lt_length {delaytimeUsec : ℕ}
    (h : (delaytimeUsec : ℤ) < SW_SHAPE_PACKET_TIME_STORE_MAX) :
    delaytimeUsec / 1000 < SW_SHAPE_GLOBAL_TIME_QUEUE_LENGTH := by
  unfold SW_SHAPE_PACKET_TIME_STORE_MAX SW_SHAPE_GLOBAL_TIME_QUEUE_LENGTH at *
  omega

/-- A wait that is not negative: the packet is put as many slots ahead as there are milliseconds to
wait, or refused. -/
theorem shapeDelay_eq (q : ShapeQueue) (delaytimeUsec packet length : ℕ) :
    shapeDelay q delaytimeUsec packet length =
      some (if q.Takes delaytimeUsec then (q.put (delaytimeUsec / 1000) ⟨packet, length⟩, true)
        else (q, false)) := by
  unfold shapeDelay
  split
  · rename_i hdelay
    rw [if_neg fun htakes => absurd htakes.1 (not_lt.2 hdelay)]
  · rename_i hdelay
    have hahead := ahead_lt_length (not_le.1 hdelay)
    have hoff : (delaytimeUsec : ℤ).tdiv SW_SHAPE_QUEUE_PROCESS_FRQ = (delaytimeUsec / 1000 : ℕ) :=
      (Int.ofNat_tdiv delaytimeUsec 1000).symm
    have hidx : (if ((q.currTimePtr : ℤ) + (delaytimeUsec / 1000 : ℕ)) ≥
        SW_SHAPE_GLOBAL_TIME_QUEUE_LENGTH then
          (q.currTimePtr : ℤ) + (delaytimeUsec / 1000 : ℕ) - SW_SHAPE_GLOBAL_TIME_QUEUE_LENGTH
        else (q.currTimePtr : ℤ) + (delaytimeUsec / 1000 : ℕ)) =
          (q.wheel.ahead (delaytimeUsec / 1000) : ℕ) := by
      rw [q.wheel.ahead_eq hahead]
      show _ = ((if SW_SHAPE_GLOBAL_TIME_QUEUE_LENGTH ≤ q.currTimePtr + delaytimeUsec / 1000 then
        q.currTimePtr + delaytimeUsec / 1000 - SW_SHAPE_GLOBAL_TIME_QUEUE_LENGTH
        else q.currTimePtr + delaytimeUsec / 1000 : ℕ) : ℤ)
      split_ifs <;> omega
    simp only [hoff]
    rw [hidx, if_neg (by omega), Int.toNat_natCast]
    split
    · rename_i hfull
      rw [if_neg fun htakes => absurd htakes.2 (not_lt.2 hfull)]
    · rename_i hroom
      rw [if_pos ⟨not_le.1 hdelay, not_le.1 hroom⟩]
      rfl

/-- What a packet is refused for. -/
theorem shapeDelay_refused_iff {q : ShapeQueue} {delaytimeUsec packet length : ℕ} :
    (∃ q', shapeDelay q delaytimeUsec packet length = some (q', false)) ↔
      ¬ q.Takes delaytimeUsec := by
  rw [shapeDelay_eq]
  by_cases htakes : q.Takes delaytimeUsec
  · rw [if_pos htakes]
    simp [htakes]
  · rw [if_neg htakes]
    simp [htakes]

/-- What a delay can do: the packet is refused, or put as many slots ahead as there are milliseconds
to wait. -/
inductive DelayOutcome (q : ShapeQueue) (delaytimeUsec packet length : ℕ) :
    Option (ShapeQueue × Bool) → Prop
  | refused : DelayOutcome q delaytimeUsec packet length (some (q, false))
  | accepted {q' : ShapeQueue} (hahead : delaytimeUsec / 1000 < SW_SHAPE_GLOBAL_TIME_QUEUE_LENGTH)
    (hwheel : q'.wheel = q.wheel.put (delaytimeUsec / 1000) ⟨packet, length⟩) :
    DelayOutcome q delaytimeUsec packet length (some (q', true))

theorem shapeDelay_outcome (q : ShapeQueue) (delaytimeUsec packet length : ℕ) :
    DelayOutcome q delaytimeUsec packet length (shapeDelay q delaytimeUsec packet length) := by
  rw [shapeDelay_eq]
  split
  · rename_i htakes
    exact .accepted (ahead_lt_length htakes.1) rfl
  · exact .refused

/-- A slot that is sent, if its buffers are no free ones: all of them are freed. -/
theorem queueProcessLoop_eq {m : Memgmt} {slot : List ShapePacket}
    (hbufs : ∀ p ∈ slot, p.packet < SW_MEMGMT_BUF_NUM)
    (hroom : m.freeBufIdx.length + slot.length ≤ SW_MEMGMT_BUF_NUM) :
    queueProcessLoop m slot =
      (slot.map fun p => ⟨p.packet, (m.bufs p.packet).take p.length⟩,
        { m with freeBufIdx := (slot.map ShapePacket.packet).reverse ++ m.freeBufIdx }) := by
  induction slot generalizing m with
  | nil => rfl
  | cons p slot ih =>
    have hp := hbufs p List.mem_cons_self
    rw [List.length_cons] at hroom
    have hfree : memgmtFreeBuf m p.packet =
        ({ m with freeBufIdx := p.packet :: m.freeBufIdx }, true) :=
      if_neg (by omega)
    rw [queueProcessLoop, hfree]
    rw [ih (fun p' hp' => hbufs p' (List.mem_cons_of_mem _ hp'))
      (by rw [List.length_cons]; omega)]
    simp

theorem shapeQueueProcess_wheel (m : Memgmt) (q : ShapeQueue) :
    (shapeQueueProcess m q).2.2.wheel = q.wheel.tick.2 := by
  have hcurr : (if q.currTimePtr = SW_SHAPE_GLOBAL_TIME_QUEUE_LENGTH - 1 then 0
      else q.currTimePtr + 1) = (q.currTimePtr + 1) % SW_SHAPE_GLOBAL_TIME_QUEUE_LENGTH := by
    have hlt := q.currTimePtr_lt
    unfold SW_SHAPE_GLOBAL_TIME_QUEUE_LENGTH at *
    split <;> omega
  unfold shapeQueueProcess ShapeQueue.wheel TimingWheel.tick
  simp only [hcurr]

end Sweetspot
