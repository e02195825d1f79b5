import Sweetspot.Lib.Run
import Sweetspot.Shape.Queue

/-!
# Delivery

Any number of threads put packets into the two queues while the queues are processed, one call after
the other.  A thread has a buffer in hand from the call that gave it one until it is in a queue, or
freed after it was refused.

* `Shaping`, `ShapeStep`: the buffers, the queues and what the threads have in hand.
* `due`: the packets that a queue is to send next, read off the calls made so far.
* `Delivering`: the invariant.
* `shaping_delivers`: every buffer is in one place, and every queue sends what is due.
-/

namespace Sweetspot

/-! ## The system -/

/-- The queue of the inward relay, and that of the outward one. -/
inductive QueueId
  | inward | outward
  deriving DecidableEq

/-- A packet that a relay wants to be sent later. -/
structure Attempt where
  queue : QueueId
  delaytimeUsec : ℕ
  packet : List UInt8
  deriving DecidableEq

/-- How far a relay is. -/
inductive HandPhase
  | got | copied | refused
  deriving DecidableEq

/-- A buffer that a relay has in hand. -/
structure Hand where
  attempt : Attempt
  buf : ℕ
  phase : HandPhase
  deriving DecidableEq

/-- The buffers, the queues, and the buffers in hand. -/
structure Shaping where
  mem : Memgmt
  queues : QueueId → ShapeQueue
  hands : Multiset Hand

/-- At the start. -/
def Shaping.init : Shaping := ⟨memgmtCreate, fun _ => shapeQueueCreate, 0⟩

/-- A call, and what it gave. -/
inductive ShapeCall
  | dropped (a : Attempt)
  | got (a : Attempt) (buf : ℕ)
  | copied (a : Attempt) (buf : ℕ)
  | accepted (a : Attempt) (buf : ℕ)
  | refused (a : Attempt) (buf : ℕ)
  | freed (a : Attempt) (buf : ℕ)
  | processed (q : QueueId) (sent : List Sent)

/-- The calls of the relays and of the two threads that process the queues. -/
inductive ShapeStep : Shaping → ShapeCall → Shaping → Prop
  /-- There is no buffer for the packet. -/
  | dropped {s : Shaping} (a : Attempt) {m : Memgmt}
    (hget : memgmtGetBuf s.mem a.packet.length = (m, none)) :
    ShapeStep s (.dropped a) { s with mem := m }
  | got {s : Shaping} (a : Attempt) (buf : ℕ) {m : Memgmt}
    (hget : memgmtGetBuf s.mem a.packet.length = (m, some buf)) :
    ShapeStep s (.got a buf) { s with mem := m, hands := ⟨a, buf, .got⟩ ::ₘ s.hands }
  | copied {s : Shaping} (a : Attempt) (buf : ℕ) {hands : Multiset Hand}
    (hhand : s.hands = ⟨a, buf, .got⟩ ::ₘ hands) :
    ShapeStep s (.copied a buf)
      { s with mem := s.mem.memcpy buf a.packet, hands := ⟨a, buf, .copied⟩ ::ₘ hands }
  /-- The packet is in the queue. -/
  | accepted {s : Shaping} (a : Attempt) (buf : ℕ) {hands : Multiset Hand} {q : ShapeQueue}
    (hhand : s.hands = ⟨a, buf, .copied⟩ ::ₘ hands)
    (hdelay : shapeDelay (s.queues a.queue) a.delaytimeUsec buf a.packet.length = some (q, true)) :
    ShapeStep s (.accepted a buf)
      { s with queues := Function.update s.queues a.queue q, hands := hands }
  /-- The packet is not in the queue. -/
  | refused {s : Shaping} (a : Attempt) (buf : ℕ) {hands : Multiset Hand} {q : ShapeQueue}
    (hhand : s.hands = ⟨a, buf, .copied⟩ ::ₘ hands)
    (hdelay : shapeDelay (s.queues a.queue) a.delaytimeUsec buf a.packet.length = some (q, false)) :
    ShapeStep s (.refused a buf)
      { s with
        queues := Function.update s.queues a.queue q
        hands := ⟨a, buf, .refused⟩ ::ₘ hands }
  /-- The relay frees the buffer of a refused packet. -/
  | freed {s : Shaping} (a : Attempt) (buf : ℕ) {hands : Multiset Hand}
    (hhand : s.hands = ⟨a, buf, .refused⟩ ::ₘ hands) :
    ShapeStep s (.freed a buf) { s with mem := (memgmtFreeBuf s.mem buf).1, hands := hands }
  | processed {s : Shaping} (q : QueueId) {sent : List Sent} {m : Memgmt} {queue : ShapeQueue}
    (hprocess : shapeQueueProcess s.mem (s.queues q) = (sent, m, queue)) :
    ShapeStep s (.processed q sent)
      { s with mem := m, queues := Function.update s.queues q queue }

/-! ## What is due -/

/-- The calls that processed the queue. -/
def passes (q : QueueId) : List ShapeCall → ℕ
  | [] => 0
  | .processed q' _ :: calls => if q' = q then passes q calls + 1 else passes q calls
  | _ :: calls => passes q calls

/-- The packets accepted by the queue after which it was processed once for every whole millisecond
of their delay: the next call is to send them. -/
def due (q : QueueId) : List ShapeCall → List Sent
  | [] => []
  | .accepted a buf :: calls =>
    if a.queue = q ∧ a.delaytimeUsec / 1000 = passes q calls then ⟨buf, a.packet⟩ :: due q calls
    else due q calls
  | _ :: calls => due q calls

/-- What a call does to the queue as a wheel. -/
def ShapeCall.wheelOp (q : QueueId) : ShapeCall → Option (WheelOp Sent)
  | .accepted a buf =>
    if a.queue = q then some (.put (a.delaytimeUsec / 1000) ⟨buf, a.packet⟩) else none
  | .processed q' _ => if q' = q then some .tick else none
  | _ => none

/-- The history of the queue. -/
def wheelOps (q : QueueId) (calls : List ShapeCall) : List (WheelOp Sent) :=
  calls.filterMap (ShapeCall.wheelOp q)

theorem passes_eq (q : QueueId) (calls : List ShapeCall) :
    passes q calls = TimingWheel.ticks (wheelOps q calls) := by
  induction calls with
  | nil => rfl
  | cons call calls ih =>
    cases call with
    | accepted a buf =>
      by_cases hq : a.queue = q
      · have hop : (ShapeCall.accepted a buf).wheelOp q =
            some (.put (a.delaytimeUsec / 1000) ⟨buf, a.packet⟩) := if_pos hq
        rw [wheelOps, List.filterMap_cons_some hop]
        exact ih
      · have hop : (ShapeCall.accepted a buf).wheelOp q = none := if_neg hq
        rw [wheelOps, List.filterMap_cons_none hop]
        exact ih
    | processed q' sent =>
      by_cases hq : q' = q
      · have hop : (ShapeCall.processed q' sent).wheelOp q = some .tick := if_pos hq
        rw [wheelOps, List.filterMap_cons_some hop, passes, if_pos hq, ih]
        rfl
      · have hop : (ShapeCall.processed q' sent).wheelOp q = none := if_neg hq
        rw [wheelOps, List.filterMap_cons_none hop, passes, if_neg hq]
        exact ih
    | dropped | got | copied | refused | freed => exact ih

/-- What is due is what the wheel is to give. -/
theorem due_eq (q : QueueId) (calls : List ShapeCall) :
    due q calls = TimingWheel.pending 0 (wheelOps q calls) := by
  induction calls with
  | nil => rfl
  | cons call calls ih =>
    cases call with
    | accepted a buf =>
      by_cases hq : a.queue = q
      · have hop : (ShapeCall.accepted a buf).wheelOp q =
            some (.put (a.delaytimeUsec / 1000) ⟨buf, a.packet⟩) := if_pos hq
        rw [wheelOps, List.filterMap_cons_some hop, due, passes_eq, ih]
        simp only [hq, true_and, TimingWheel.pending, add_zero]
        rfl
      · have hop : (ShapeCall.accepted a buf).wheelOp q = none := if_neg hq
        rw [wheelOps, List.filterMap_cons_none hop, due, if_neg fun h => hq h.1]
        exact ih
    | processed q' sent =>
      by_cases hq : q' = q
      · have hop : (ShapeCall.processed q' sent).wheelOp q = some .tick := if_pos hq
        rw [wheelOps, List.filterMap_cons_some hop]
        exact ih
      · have hop : (ShapeCall.processed q' sent).wheelOp q = none := if_neg hq
        rw [wheelOps, List.filterMap_cons_none hop]
        exact ih
    | dropped | got | copied | refused | freed => exact ih

/-! ## The invariant -/

/-- The queue as it should be: what it was given, and how long ago. -/
def history (q : QueueId) (calls : List ShapeCall) :
    TimingWheel Sent SW_SHAPE_GLOBAL_TIME_QUEUE_LENGTH :=
  TimingWheel.run shapeQueueLength_pos (wheelOps q calls)

theorem wheelOps_concat (q : QueueId) (calls : List ShapeCall) (call : ShapeCall) :
    wheelOps q (calls ++ [call]) = wheelOps q calls ++ (call.wheelOp q).toList := by
  rw [wheelOps, List.filterMap_append, wheelOps]
  cases hop : call.wheelOp q <;> simp [hop]

theorem wheelOps_concat_of_none {q : QueueId} {call : ShapeCall} (h : call.wheelOp q = none)
    (calls : List ShapeCall) : wheelOps q (calls ++ [call]) = wheelOps q calls := by
  rw [wheelOps_concat, h, Option.toList_none, List.append_nil]

/-- What is put is put ahead by less than a turn, if the last call does so. -/
theorem ahead_concat {q : QueueId} {calls : List ShapeCall} {call : ShapeCall}
    (hcalls : ∀ j e, .put j e ∈ wheelOps q calls → j < SW_SHAPE_GLOBAL_TIME_QUEUE_LENGTH)
    (hcall : ∀ j e, call.wheelOp q = some (.put j e) → j < SW_SHAPE_GLOBAL_TIME_QUEUE_LENGTH) :
    ∀ j e, .put j e ∈ wheelOps q (calls ++ [call]) → j < SW_SHAPE_GLOBAL_TIME_QUEUE_LENGTH := by
  intro j e hmem
  rw [wheelOps_concat, List.mem_append, Option.mem_toList] at hmem
  rcases hmem with hmem | hop
  · exact hcalls j e hmem
  · exact hcall j e hop

theorem history_concat_of_none {q : QueueId} {call : ShapeCall} (h : call.wheelOp q = none)
    (calls : List ShapeCall) : history q (calls ++ [call]) = history q calls := by
  rw [history, wheelOps_concat_of_none h, history]

theorem history_concat_of_some {q : QueueId} {call : ShapeCall} {op : WheelOp Sent}
    (h : call.wheelOp q = some op) (calls : List ShapeCall) :
    history q (calls ++ [call]) = (history q calls).exec op := by
  rw [history, wheelOps_concat, h, Option.toList_some, TimingWheel.run_concat, history]

/-- What a queue keeps of a packet. -/
def Sent.shapePacket (e : Sent) : ShapePacket := ⟨e.buf, e.data.length⟩

namespace Shaping

/-- The buffers in a queue. -/
def queued (s : Shaping) (q : QueueId) : Multiset ℕ :=
  (s.queues q).wheel.entries.map ShapePacket.packet

/-- All buffers: the free ones, those in the queues, and those in hand. -/
def held (s : Shaping) : Multiset ℕ :=
  ↑s.mem.freeBufIdx + (s.queued .inward + s.queued .outward) + s.hands.map Hand.buf

end Shaping

/-- The queues are as they should be, the buffers have the packets they are there for, and every
buffer is in one place. -/
structure Delivering (calls : List ShapeCall) (s : Shaping) : Prop where
  ahead : ∀ q j e, .put j e ∈ wheelOps q calls → j < SW_SHAPE_GLOBAL_TIME_QUEUE_LENGTH
  wheels : ∀ q, (s.queues q).wheel = (history q calls).map Sent.shapePacket
  stored : ∀ q, ∀ e ∈ (history q calls).entries, (s.mem.bufs e.buf).take e.data.length = e.data
  copied : ∀ h ∈ s.hands, h.phase = .copied →
    (s.mem.bufs h.buf).take h.attempt.packet.length = h.attempt.packet
  held : s.held = Multiset.range SW_MEMGMT_BUF_NUM

section Invariant

variable {calls : List ShapeCall} {s s' : Shaping} {h : Hand} {hands : Multiset Hand}

theorem queued_eq (hs : Delivering calls s) (q : QueueId) :
    s.queued q = (history q calls).entries.map Sent.buf := by
  rw [Shaping.queued, hs.wheels, TimingWheel.entries_map, Multiset.map_map]
  rfl

theorem queued_le_held (s : Shaping) (q : QueueId) : s.queued q ≤ s.held := by
  have hle : s.queued q ≤ s.queued .inward + s.queued .outward := by
    cases q with
    | inward => exact Multiset.le_add_right _ _
    | outward => exact Multiset.le_add_left _ _
  exact hle.trans ((Multiset.le_add_left _ _).trans (Multiset.le_add_right _ _))

theorem held_of_hand (hhand : s.hands = h ::ₘ hands) :
    s.held = h.buf ::ₘ (↑s.mem.freeBufIdx + (s.queued .inward + s.queued .outward) +
      hands.map Hand.buf) := by
  rw [Shaping.held, hhand, Multiset.map_cons, Multiset.add_cons]

/-- A buffer in hand is nowhere else. -/
theorem hand_fresh (hs : Delivering calls s) (hhand : s.hands = h ::ₘ hands) :
    (∀ q, h.buf ∉ s.queued q) ∧ (∀ h' ∈ hands, h'.buf ≠ h.buf) ∧ h.buf < SW_MEMGMT_BUF_NUM ∧
      s.mem.freeBufIdx.length < SW_MEMGMT_BUF_NUM := by
  have hheld := held_of_hand hhand
  have hnodup : s.held.Nodup := by
    rw [hs.held]
    exact Multiset.nodup_range _
  have hcard : s.held.card = SW_MEMGMT_BUF_NUM := by
    rw [hs.held, Multiset.card_range]
  rw [hheld, Multiset.nodup_cons] at hnodup
  obtain ⟨hnot, -⟩ := hnodup
  refine ⟨?_, ?_, ?_, ?_⟩
  · intro q hmem
    apply hnot
    cases q with
    | inward => simp [hmem]
    | outward => simp [hmem]
  · intro h' hh' heq
    refine hnot (Multiset.mem_add.2 (.inr ?_))
    rw [← heq]
    exact Multiset.mem_map_of_mem _ hh'
  · rw [← Multiset.mem_range, ← hs.held, hheld]
    exact Multiset.mem_cons_self _ _
  · rw [hheld] at hcard
    simp only [Multiset.card_cons, Multiset.card_add, Multiset.coe_card] at hcard
    omega

theorem queued_update (s : Shaping) (q : QueueId) (queue : ShapeQueue) (m : Memgmt)
    (hands : Multiset Hand) :
    (⟨m, Function.update s.queues q queue, hands⟩ : Shaping).queued .inward +
        (⟨m, Function.update s.queues q queue, hands⟩ : Shaping).queued .outward + s.queued q =
      s.queued .inward + s.queued .outward + queue.wheel.entries.map ShapePacket.packet := by
  cases q with
  | inward =>
    simp only [Shaping.queued, Function.update_self, Function.update_of_ne, ne_eq, reduceCtorEq,
      not_false_eq_true]
    abel
  | outward =>
    simp only [Shaping.queued, Function.update_self, Function.update_of_ne, ne_eq, reduceCtorEq,
      not_false_eq_true]
    abel

/-- A call that is nothing to the queues. -/
theorem Delivering.of_quiet {call : ShapeCall} (hs : Delivering calls s)
    (hquiet : ∀ q, call.wheelOp q = none) (hqueues : s'.queues = s.queues)
    (hstored : ∀ q, ∀ e ∈ (history q calls).entries,
      (s'.mem.bufs e.buf).take e.data.length = e.data)
    (hcopied : ∀ h ∈ s'.hands, h.phase = .copied →
      (s'.mem.bufs h.buf).take h.attempt.packet.length = h.attempt.packet)
    (hheld : s'.held = s.held) : Delivering (calls ++ [call]) s' := by
  have hhistory := fun q => history_concat_of_none (hquiet q) calls
  constructor
  · intro q j e
    rw [wheelOps_concat_of_none (hquiet q)]
    exact hs.ahead q j e
  · intro q
    rw [hhistory, hqueues]
    exact hs.wheels q
  · intro q
    rw [hhistory]
    exact hstored q
  · exact hcopied
  · rw [hheld]
    exact hs.held

theorem delivering_dropped (hs : Delivering calls s) (a : Attempt) {m : Memgmt}
    (hget : memgmtGetBuf s.mem a.packet.length = (m, none)) :
    Delivering (calls ++ [.dropped a]) { s with mem := m } := by
  have hm : m = s.mem := by
    unfold memgmtGetBuf at hget
    split at hget
    · exact (congrArg Prod.fst hget).symm
    · split at hget
      · exact (congrArg Prod.fst hget).symm
      · cases hget
  rw [hm]
  exact hs.of_quiet (fun _ => rfl) rfl hs.stored hs.copied rfl

theorem delivering_got (hs : Delivering calls s) (a : Attempt) (buf : ℕ) {m : Memgmt}
    (hget : memgmtGetBuf s.mem a.packet.length = (m, some buf)) :
    Delivering (calls ++ [.got a buf])
      { s with mem := m, hands := ⟨a, buf, .got⟩ ::ₘ s.hands } := by
  obtain ⟨free, hfree, rfl⟩ : ∃ free, s.mem.freeBufIdx = buf :: free ∧
      m = { s.mem with freeBufIdx := free } := by
    unfold memgmtGetBuf at hget
    split at hget
    · cases hget
    · split at hget
      · cases hget
      · rename_i idx free hfree
        cases hget
        exact ⟨free, hfree, rfl⟩
  refine hs.of_quiet (fun _ => rfl) rfl hs.stored ?_ ?_
  · intro h hmem hphase
    rcases Multiset.mem_cons.1 hmem with rfl | hmem
    · cases hphase
    · exact hs.copied h hmem hphase
  · show ↑free + (s.queued .inward + s.queued .outward) +
      Multiset.map Hand.buf (⟨a, buf, .got⟩ ::ₘ s.hands) = s.held
    rw [Shaping.held, hfree, Multiset.map_cons, ← Multiset.cons_coe, Multiset.add_cons,
      Multiset.cons_add, Multiset.cons_add]

theorem delivering_copied (hs : Delivering calls s) (a : Attempt) (buf : ℕ)
    {hands : Multiset Hand} (hhand : s.hands = ⟨a, buf, .got⟩ ::ₘ hands) :
    Delivering (calls ++ [.copied a buf])
      { s with mem := s.mem.memcpy buf a.packet, hands := ⟨a, buf, .copied⟩ ::ₘ hands } := by
  obtain ⟨hqueued, hhands, -, -⟩ := hand_fresh hs hhand
  refine hs.of_quiet (fun _ => rfl) rfl ?_ ?_ ?_
  · intro q e he
    have hne : e.buf ≠ buf := by
      rintro rfl
      refine hqueued q ?_
      rw [queued_eq hs]
      exact Multiset.mem_map_of_mem _ he
    show ((s.mem.memcpy buf a.packet).bufs e.buf).take e.data.length = e.data
    rw [memcpy_of_ne _ _ hne]
    exact hs.stored q e he
  · intro h hmem hphase
    rcases Multiset.mem_cons.1 hmem with rfl | hmem
    · exact take_memcpy_self s.mem buf a.packet
    · show ((s.mem.memcpy buf a.packet).bufs h.buf).take _ = _
      rw [memcpy_of_ne _ _ (hhands h hmem)]
      exact hs.copied h (hhand ▸ Multiset.mem_cons_of_mem hmem) hphase
  · rw [held_of_hand hhand]
    exact @held_of_hand { s with
      mem := s.mem.memcpy buf a.packet, hands := ⟨a, buf, .copied⟩ ::ₘ hands }
      ⟨a, buf, .copied⟩ hands rfl

theorem delivering_refused (hs : Delivering calls s) (a : Attempt) (buf : ℕ)
    {hands : Multiset Hand} {q : ShapeQueue} (hhand : s.hands = ⟨a, buf, .copied⟩ ::ₘ hands)
    (hdelay : shapeDelay (s.queues a.queue) a.delaytimeUsec buf a.packet.length = some (q, false)) :
    Delivering (calls ++ [.refused a buf])
      { s with
        queues := Function.update s.queues a.queue q
        hands := ⟨a, buf, .refused⟩ ::ₘ hands } := by
  have houtcome := shapeDelay_outcome (s.queues a.queue) a.delaytimeUsec buf a.packet.length
  rw [hdelay] at houtcome
  cases houtcome
  have hqueues : Function.update s.queues a.queue (s.queues a.queue) = s.queues :=
    Function.update_eq_self _ _
  rw [hqueues]
  refine hs.of_quiet (fun _ => rfl) rfl hs.stored ?_ ?_
  · intro h hmem hphase
    rcases Multiset.mem_cons.1 hmem with rfl | hmem
    · cases hphase
    · exact hs.copied h (hhand ▸ Multiset.mem_cons_of_mem hmem) hphase
  · rw [held_of_hand hhand]
    exact @held_of_hand { s with hands := ⟨a, buf, .refused⟩ ::ₘ hands } ⟨a, buf, .refused⟩ hands
      rfl

theorem delivering_freed (hs : Delivering calls s) (a : Attempt) (buf : ℕ)
    {hands : Multiset Hand} (hhand : s.hands = ⟨a, buf, .refused⟩ ::ₘ hands) :
    Delivering (calls ++ [.freed a buf])
      { s with mem := (memgmtFreeBuf s.mem buf).1, hands := hands } := by
  obtain ⟨-, -, hlt, hroom⟩ := hand_fresh hs hhand
  have hfree : memgmtFreeBuf s.mem buf =
      ({ s.mem with freeBufIdx := buf :: s.mem.freeBufIdx }, true) := by
    refine if_neg ?_
    rintro (hge | hfull)
    · exact absurd hlt (not_lt.2 hge)
    · exact absurd hfull hroom.ne
  rw [hfree]
  refine hs.of_quiet (fun _ => rfl) rfl hs.stored ?_ ?_
  · intro h hmem hphase
    exact hs.copied h (hhand ▸ Multiset.mem_cons_of_mem hmem) hphase
  · rw [held_of_hand hhand]
    show ↑(buf :: s.mem.freeBufIdx) + (s.queued .inward + s.queued .outward) +
      hands.map Hand.buf = _
    rw [← Multiset.cons_coe, Multiset.cons_add, Multiset.cons_add]

theorem delivering_accepted (hs : Delivering calls s) (a : Attempt) (buf : ℕ)
    {hands : Multiset Hand} {q : ShapeQueue} (hhand : s.hands = ⟨a, buf, .copied⟩ ::ₘ hands)
    (hdelay : shapeDelay (s.queues a.queue) a.delaytimeUsec buf a.packet.length = some (q, true)) :
    Delivering (calls ++ [.accepted a buf])
      { s with queues := Function.update s.queues a.queue q, hands := hands } := by
  have houtcome := shapeDelay_outcome (s.queues a.queue) a.delaytimeUsec buf a.packet.length
  rw [hdelay] at houtcome
  obtain ⟨hahead, hwheel⟩ : a.delaytimeUsec / 1000 < SW_SHAPE_GLOBAL_TIME_QUEUE_LENGTH ∧
      q.wheel = (s.queues a.queue).wheel.put (a.delaytimeUsec / 1000) ⟨buf, a.packet.length⟩ := by
    cases houtcome with
    | accepted hahead hwheel => exact ⟨hahead, hwheel⟩
  have hself : history a.queue (calls ++ [.accepted a buf]) =
      (history a.queue calls).put (a.delaytimeUsec / 1000) ⟨buf, a.packet⟩ := by
    have hop : (ShapeCall.accepted a buf).wheelOp a.queue =
        some (.put (a.delaytimeUsec / 1000) ⟨buf, a.packet⟩) := if_pos rfl
    exact history_concat_of_some hop calls
  have hother : ∀ q', q' ≠ a.queue →
      history q' (calls ++ [.accepted a buf]) = history q' calls := by
    intro q' hne
    have hop : (ShapeCall.accepted a buf).wheelOp q' = none := if_neg (Ne.symm hne)
    exact history_concat_of_none hop calls
  constructor
  · refine fun q' => ahead_concat (hs.ahead q') fun j e hop => ?_
    rw [ShapeCall.wheelOp] at hop
    split at hop
    · cases hop
      exact hahead
    · cases hop
  · intro q'
    show (Function.update s.queues a.queue q q').wheel = _
    by_cases hq : q' = a.queue
    · subst hq
      rw [hself, TimingWheel.map_put, Function.update_self, hwheel, hs.wheels]
      rfl
    · rw [hother q' hq, Function.update_of_ne hq]
      exact hs.wheels q'
  · intro q' e he
    by_cases hq : q' = a.queue
    · subst hq
      rw [hself, TimingWheel.entries_put] at he
      rcases Multiset.mem_cons.1 he with rfl | he
      · exact hs.copied _ (hhand ▸ Multiset.mem_cons_self _ _) rfl
      · exact hs.stored _ e he
    · rw [hother q' hq] at he
      exact hs.stored q' e he
  · intro h hmem hphase
    exact hs.copied h (hhand ▸ Multiset.mem_cons_of_mem hmem) hphase
  · have hqueued := queued_update s a.queue q s.mem hands
    have hput : q.wheel.entries.map ShapePacket.packet = buf ::ₘ s.queued a.queue := by
      rw [hwheel, TimingWheel.entries_put, Multiset.map_cons, Shaping.queued]
    rw [hput, Multiset.add_cons, ← Multiset.cons_add] at hqueued
    rw [← hs.held, held_of_hand hhand, Shaping.held, add_right_cancel hqueued, Multiset.add_cons,
      Multiset.cons_add]

/-- **What a call sends** is what the wheel gives, and all these buffers are freed. -/
theorem shapeQueueProcess_eq (hs : Delivering calls s) (q : QueueId) :
    (shapeQueueProcess s.mem (s.queues q)).1 = (history q calls).tick.1 ∧
      (shapeQueueProcess s.mem (s.queues q)).2.1 = { s.mem with
        freeBufIdx := ((history q calls).tick.1.map Sent.buf).reverse ++ s.mem.freeBufIdx } := by
  have htick := (history q calls).map_tick Sent.shapePacket
  rw [← hs.wheels q] at htick
  have hslot : (s.queues q).timeslots (s.queues q).currTimePtr =
      (history q calls).tick.1.map Sent.shapePacket := congrArg Prod.fst htick
  have hentries : ((history q calls).tick.1.map Sent.buf : Multiset ℕ) ≤ s.queued q := by
    rw [queued_eq hs, TimingWheel.entries_tick, Multiset.map_add]
    exact Multiset.le_add_right _ _
  have hpackets : ((history q calls).tick.1.map Sent.shapePacket).map ShapePacket.packet =
      (history q calls).tick.1.map Sent.buf := by
    rw [List.map_map]
    rfl
  have hloop := @queueProcessLoop_eq s.mem ((history q calls).tick.1.map Sent.shapePacket) ?_ ?_
  · rw [shapeQueueProcess, hslot, hloop, hpackets]
    refine ⟨?_, rfl⟩
    show ((history q calls).tick.1.map Sent.shapePacket).map _ = _
    rw [List.map_map]
    -- every buffer still has the packet it was filled with
    refine (List.map_congr_left ?_).trans (List.map_id _)
    intro e he
    have hmem : e ∈ (history q calls).entries := by
      rw [TimingWheel.entries_tick]
      exact Multiset.mem_add.2 (.inl he)
    show (⟨e.buf, (s.mem.bufs e.buf).take e.data.length⟩ : Sent) = e
    rw [hs.stored q e hmem]
  · intro p hp
    have hmem : p.packet ∈ (history q calls).tick.1.map Sent.buf := by
      rw [← hpackets]
      exact List.mem_map_of_mem hp
    rw [← Multiset.mem_range, ← hs.held]
    exact Multiset.mem_of_le (hentries.trans (queued_le_held s q)) hmem
  · have hle : (s.mem.freeBufIdx : Multiset ℕ) + s.queued q ≤ s.held := by
      refine le_trans ?_ (Multiset.le_add_right _ _)
      refine add_le_add_right ?_ _
      cases q with
      | inward => exact Multiset.le_add_right _ _
      | outward => exact Multiset.le_add_left _ _
    have hcard := Multiset.card_le_card ((add_le_add_right hentries _).trans hle)
    rw [hs.held, Multiset.card_range, Multiset.card_add, Multiset.coe_card, Multiset.coe_card,
      List.length_map] at hcard
    rwa [List.length_map]

theorem delivering_processed (hs : Delivering calls s) (q : QueueId) {sent : List Sent}
    {m : Memgmt} {queue : ShapeQueue}
    (hprocess : shapeQueueProcess s.mem (s.queues q) = (sent, m, queue)) :
    Delivering (calls ++ [.processed q sent])
      { s with mem := m, queues := Function.update s.queues q queue } := by
  obtain ⟨-, hm⟩ := shapeQueueProcess_eq hs q
  have hwheel := shapeQueueProcess_wheel s.mem (s.queues q)
  rw [hprocess] at hm hwheel
  simp only at hm hwheel
  have hself : history q (calls ++ [.processed q sent]) = (history q calls).tick.2 := by
    have hop : (ShapeCall.processed q sent).wheelOp q = some .tick := if_pos rfl
    exact history_concat_of_some hop calls
  have hother : ∀ q', q' ≠ q →
      history q' (calls ++ [.processed q sent]) = history q' calls := by
    intro q' hne
    have hop : (ShapeCall.processed q sent).wheelOp q' = none := if_neg (Ne.symm hne)
    exact history_concat_of_none hop calls
  constructor
  · refine fun q' => ahead_concat (hs.ahead q') fun j e hop => ?_
    rw [ShapeCall.wheelOp] at hop
    split at hop
    · cases hop
    · cases hop
  · intro q'
    show (Function.update s.queues q queue q').wheel = _
    by_cases hq : q' = q
    · subst hq
      rw [hself, Function.update_self, hwheel, hs.wheels, TimingWheel.map_tick]
    · rw [hother q' hq, Function.update_of_ne hq]
      exact hs.wheels q'
  · intro q' e he
    show (m.bufs e.buf).take e.data.length = e.data
    rw [hm]
    refine hs.stored q' e ?_
    by_cases hq : q' = q
    · subst hq
      rw [hself] at he
      rw [TimingWheel.entries_tick]
      exact Multiset.mem_add.2 (.inr he)
    · rwa [hother q' hq] at he
  · intro h hmem hphase
    show (m.bufs h.buf).take h.attempt.packet.length = h.attempt.packet
    rw [hm]
    exact hs.copied h hmem hphase
  · have hqueued := queued_update s q queue m s.hands
    have hrest : s.queued q = ((history q calls).tick.1.map Sent.buf : Multiset ℕ) +
        queue.wheel.entries.map ShapePacket.packet := by
      rw [queued_eq hs, TimingWheel.entries_tick, Multiset.map_add, hwheel, hs.wheels,
        TimingWheel.map_tick, TimingWheel.entries_map, Multiset.map_map]
      rfl
    rw [hrest, ← add_assoc] at hqueued
    rw [← hs.held, Shaping.held, Shaping.held, ← add_right_cancel hqueued]
    show (m.freeBufIdx : Multiset ℕ) + _ + _ = _
    rw [hm]
    show ((((history q calls).tick.1.map Sent.buf).reverse ++ s.mem.freeBufIdx : List ℕ) :
      Multiset ℕ) + _ + _ = _
    rw [← Multiset.coe_add, Multiset.coe_reverse]
    abel

theorem delivering_init : Delivering [] Shaping.init where
  ahead := by
    rintro q j e ⟨⟩
  wheels _ := rfl
  stored q e he := by
    rw [history, wheelOps, List.filterMap_nil, TimingWheel.run, List.foldl_nil,
      TimingWheel.entries_empty] at he
    cases he
  copied := by
    rintro h ⟨⟩
  held := by
    have hqueued : ∀ q, Shaping.init.queued q = 0 := by
      intro q
      have hempty : (Shaping.init.queues q).wheel = TimingWheel.empty (by decide) := rfl
      rw [Shaping.queued, hempty, TimingWheel.entries_empty, Multiset.map_zero]
    have hmem : Shaping.init.mem = memgmtCreate := rfl
    have hhands : Shaping.init.hands.map Hand.buf = 0 := rfl
    rw [Shaping.held, hqueued, hqueued, hmem, memgmtCreate_freeBufIdx, hhands,
      Multiset.coe_reverse, Multiset.coe_range, add_zero, add_zero, add_zero]

theorem delivering_step {call : ShapeCall} (hs : Delivering calls s)
    (hstep : ShapeStep s call s') : Delivering (calls ++ [call]) s' := by
  cases hstep with
  | dropped a hget => exact delivering_dropped hs a hget
  | got a buf hget => exact delivering_got hs a buf hget
  | copied a buf hhand => exact delivering_copied hs a buf hhand
  | accepted a buf hhand hdelay => exact delivering_accepted hs a buf hhand hdelay
  | refused a buf hhand hdelay => exact delivering_refused hs a buf hhand hdelay
  | freed a buf hhand => exact delivering_freed hs a buf hhand
  | processed q hprocess => exact delivering_processed hs q hprocess

theorem delivering_of_run (hrun : Run ShapeStep Shaping.init calls s) : Delivering calls s :=
  hrun.history (P := Delivering) delivering_init fun _ _ _ _ _ hs hstep => delivering_step hs hstep

end Invariant

/-! ## Runs -/

/-- **Delivery.**  In every run the free buffers, those in the queues and those in hand are all
buffers, each once; and when a queue is processed, it sends the packets that are due, the last
first, and frees their buffers. -/
theorem shaping_delivers {calls : List ShapeCall} {s : Shaping}
    (hrun : Run ShapeStep Shaping.init calls s) :
    s.held = Multiset.range SW_MEMGMT_BUF_NUM ∧
    ∀ q sent s', ShapeStep s (.processed q sent) s' →
      sent = (due q calls).reverse ∧
        s'.mem.freeBufIdx = (sent.map Sent.buf).reverse ++ s.mem.freeBufIdx := by
  have hs := delivering_of_run hrun
  refine ⟨hs.held, ?_⟩
  intro q sent s' hstep
  cases hstep with
  | processed q hprocess =>
    have heq := shapeQueueProcess_eq hs q
    rw [hprocess] at heq
    obtain ⟨hsent, hm⟩ := heq
    simp only at hsent hm
    refine ⟨?_, ?_⟩
    · rw [hsent, due_eq, history, TimingWheel.fst_tick_run _ (hs.ahead q)]
    · show _ = _
      simp only [hm, hsent]

/-- Packets of a user that are to wait for a millisecond and a half. -/
def soonPacket : Attempt := ⟨.inward, 1500, [1, 2, 3]⟩

def nextPacket : Attempt := ⟨.inward, 1500, [4, 5]⟩

/-- One for a user. -/
def replyPacket : Attempt := ⟨.outward, 1500, [6]⟩

/-- While one thread has a buffer for the first packet, another puts the other two into the queues;
then the queue of the inward relay is processed once. -/
def soonCalls : List ShapeCall :=
  [.got soonPacket 9999, .got nextPacket 9998, .copied nextPacket 9998, .accepted nextPacket 9998,
    .got replyPacket 9997, .copied replyPacket 9997, .accepted replyPacket 9997,
    .copied soonPacket 9999, .accepted soonPacket 9999, .processed .inward []]

theorem range_succ_reverse (n : ℕ) :
    (List.range (n + 1)).reverse = n :: (List.range n).reverse := by
  rw [List.range_succ, List.reverse_append, List.reverse_singleton, List.singleton_append]

/-- The buffers with a number less than `n`, the last first. -/
@[irreducible] def buffersBelow (n : ℕ) : List ℕ := (List.range n).reverse

theorem memgmtCreate_below : memgmtCreate.freeBufIdx = buffersBelow SW_MEMGMT_BUF_NUM := by
  rw [memgmtCreate_freeBufIdx, buffersBelow]

/-- Of these the last is given. -/
theorem memgmtGetBuf_below {m : Memgmt} {n k size : ℕ} (hsize : size ≤ 1500)
    (hfree : m.freeBufIdx = buffersBelow k) (hk : k = n + 1) :
    memgmtGetBuf m size = ({ m with freeBufIdx := buffersBelow n }, some n) := by
  rw [memgmtGetBuf, if_neg (by omega), hfree, hk, buffersBelow, range_succ_reverse, buffersBelow]

/-- The thread of the first packet has its buffer in hand until all else is done. -/
def soonHand : Multiset Hand := ⟨soonPacket, 9999, .got⟩ ::ₘ 0

theorem run_soonCalls : ∃ s, Run ShapeStep Shaping.init soonCalls s :=
  ⟨_, .cons (.got soonPacket 9999 (memgmtGetBuf_below (by decide) memgmtCreate_below rfl)) <|
    .cons (.got nextPacket 9998 (memgmtGetBuf_below (by decide) rfl rfl)) <|
    .cons (.copied nextPacket 9998 (@rfl _ ((⟨nextPacket, 9998, .got⟩ : Hand) ::ₘ soonHand))) <|
    .cons (.accepted nextPacket 9998
      (@rfl _ ((⟨nextPacket, 9998, .copied⟩ : Hand) ::ₘ soonHand)) rfl) <|
    .cons (.got replyPacket 9997 (memgmtGetBuf_below (by decide) rfl rfl)) <|
    .cons (.copied replyPacket 9997 (@rfl _ ((⟨replyPacket, 9997, .got⟩ : Hand) ::ₘ soonHand))) <|
    .cons (.accepted replyPacket 9997
      (@rfl _ ((⟨replyPacket, 9997, .copied⟩ : Hand) ::ₘ soonHand)) rfl) <|
    .cons (.copied soonPacket 9999 (@rfl _ ((⟨soonPacket, 9999, .got⟩ : Hand) ::ₘ 0))) <|
    .cons (.accepted soonPacket 9999
      (@rfl _ ((⟨soonPacket, 9999, .copied⟩ : Hand) ::ₘ 0)) rfl) <|
    .cons (.processed .inward rfl) (.nil _)⟩

/-- When the queue is processed the next time, both packets of its slot are sent. -/
theorem shaping_delivers_soon : ∃ s, Run ShapeStep Shaping.init soonCalls s ∧
    s.held = Multiset.range SW_MEMGMT_BUF_NUM ∧
    ∀ q sent s', ShapeStep s (.processed q sent) s' →
      sent = (due q soonCalls).reverse ∧
        s'.mem.freeBufIdx = (sent.map Sent.buf).reverse ++ s.mem.freeBufIdx := by
  obtain ⟨s, hrun⟩ := run_soonCalls
  exact ⟨s, hrun, shaping_delivers hrun⟩

example : due .inward soonCalls = [⟨9998, [4, 5]⟩, ⟨9999, [1, 2, 3]⟩] ∧
    due .outward soonCalls = [] := by
  decide

end Sweetspot
