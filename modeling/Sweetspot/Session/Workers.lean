import Sweetspot.Session.Sections

/-!
# The UAM workers

Any number of worker threads serve requests, one lock-held section at a time.  A request carries the
state id its sender has seen; a worker compares it with the session's, does the modification, and
counts the session's up, in sections of their own.

* `Job.advance`: one section of a request; `serve_alone`: the sections of one that no other thread
  runs between are the request as `serve` has it.
* `World`, `step`: the workers, the other threads that call the session module, and the passes over
  the sessions.
-/

namespace Sweetspot

open Controller

namespace Workers

/-! ## One request -/

/-- What a thread does: it serves a request, or makes a call of the session module by itself. -/
inductive Job
  | request (req : UamRequest)
  | call (c : Call)

/-- Where a thread stands: before which function, or in which section of a call. -/
inductive Pc
  | verify | gaugeNew | shapeNew
  | call (pc : CallPc)
  | gaugeDel | undoGauge | undoShape | retain | acquire
  | done (ok : Bool)
  deriving DecidableEq

/-- On from a section of a call, which may have come back. -/
def Pc.onward (back : Bool → Pc) : CallPc → Pc
  | .done ok => back ok
  | pc => .call pc

/-- The state id of a request. -/
def stateidOf : UamRequest → ℤ
  | .up stateid .. | .down stateid .. | .retention stateid _ => stateid

/-- `sw_session_acquire_stateid` after a modification, with what the threads share. -/
def acquire (m : Shared) (ip : UInt32) : Shared where
  ctl := acquireStateid m.ctl ip
  made := m.made
  modified :=
    if (m.session ip).isSome then Function.update m.modified ip (m.modified ip + 1) else m.modified

namespace Job

/-- Where a thread starts.  An `RT` that only reads does not verify. -/
def first : Job → Pc
  | .request (.up ..) | .request (.down ..) | .request (.retention _ (some _)) => .verify
  | .request (.retention _ none) => .retain
  | .call _ => .call .find

/-- Where a request goes on when its state id was found to match. -/
def verified : UamRequest → Pc
  | .up .. => .gaugeNew
  | .down .. => .call .find
  | .retention .. => .retain

/-- The state id that a thread comes with. -/
def stateid : Job → ℤ
  | .request req => stateidOf req
  | .call _ => 0

section Advance

variable (cfg : Config) (now : ℤ) (m : Shared) (ip : UInt32)

/-- A section of a call, and where the thread goes when it comes back. -/
def callAdvance (c : Call) (back : Bool → Pc) (pc : CallPc) : Shared × Pc :=
  ((c.advance cfg now m ip pc).1, .onward back (c.advance cfg now m ip pc).2)

/-- A section of `UP` between its verification and the counting. -/
def upAdvance (filterName : String) (interimInterval : ℤ) (max : GaugeLimits)
    (sessionContext eventContext : String) : Pc → Shared × Pc
  | .gaugeNew => ({ m with ctl := gaugeNew now m.ctl ip max }, .shapeNew)
  | .shapeNew => ({ m with ctl := shapeNew m.ctl ip max.maxBpsIn max.maxBpsOut }, .call .find)
  | .call pc =>
    callAdvance cfg now m ip (.start filterName interimInterval sessionContext eventContext)
      (fun ok => if ok then .acquire else .undoGauge) pc
  | .undoGauge => ({ m with ctl := Controller.gaugeDel m.ctl ip }, .undoShape)
  | .undoShape => ({ m with ctl := shapeDel m.ctl ip }, .done false)
  | pc => (m, pc)

/-- A section of `DN` between its verification and the counting. -/
def downAdvance (filterName sessionContext eventContext : String) : Pc → Shared × Pc
  | .call pc =>
    callAdvance cfg now m ip (.stop (some filterName) .user sessionContext eventContext)
      (fun ok => if ok then .gaugeDel else .done false) pc
  | .gaugeDel => ({ m with ctl := Controller.gaugeDel m.ctl ip }, .acquire)
  | pc => (m, pc)

/-- The section of `RT` between its verification and the counting, if there are any. -/
def retentionAdvance : Option ℤ → Pc → Shared × Pc
  | some retention, .retain =>
    ({ m with ctl := (sessionRetention m.ctl ip retention).1 },
      if (sessionRetention m.ctl ip retention).2 then .acquire else .done false)
  | none, .retain => (m, .done (m.session ip).isSome)
  | _, pc => (m, pc)

/-- One lock-held section of a thread. -/
def advance : Job → Pc → Shared × Pc
  | _, .acquire => (Workers.acquire m ip, .done true)
  | .request req, .verify =>
    (m, if verifyStateid m.ctl ip (stateidOf req) then verified req else .done false)
  | .request (.up _ filterName interimInterval max sessionContext eventContext), pc =>
    upAdvance cfg now m ip filterName interimInterval max sessionContext eventContext pc
  | .request (.down _ filterName sessionContext eventContext), pc =>
    downAdvance cfg now m ip filterName sessionContext eventContext pc
  | .request (.retention _ retention), pc => retentionAdvance m ip retention pc
  | .call c, .call pc => callAdvance cfg now m ip c .done pc
  | .call _, pc => (m, pc)

end Advance

end Job

/-! ## A request that is not interrupted -/

section Alone

variable {cfg : Config} {now : ℤ} {ip : UInt32}

/-- Sections of one thread, with no other between them. -/
abbrev AloneJob (cfg : Config) (now : ℤ) (ip : UInt32) (job : Job) :
    Shared × Pc → Shared × Pc → Prop :=
  Relation.ReflTransGen fun p q => q = job.advance cfg now p.1 ip p.2

/-- A thread that comes to a call goes through its sections. -/
theorem alone_call {job : Job} {c : Call} {back : Bool → Pc} {m : Shared} {s : Controller}
    {ok : Bool} (hjob : ∀ m pc, job.advance cfg now m ip (.call pc) =
      Job.callAdvance cfg now m ip c back pc) (hcall : c.perform cfg now m.ctl ip = (s, ok)) :
    ∃ m', AloneJob cfg now ip job (m, .call .find) (m', back ok) ∧ m'.ctl = s := by
  obtain ⟨m', hsteps, hctl⟩ := @call_alone cfg now m ip c
  rw [hcall] at hsteps hctl
  refine ⟨m', hsteps.lift' (fun p : Shared × CallPc => (p.1, Pc.onward back p.2)) ?_, hctl⟩
  rintro ⟨m₁, pc⟩ q rfl
  cases pc with
  | find | findAgain | make | submit => exact .single (hjob m₁ _).symm
  | done ok => exact .refl

/-- A request that does not match is answered at once. -/
theorem refused_alone {m : Shared} {req : UamRequest} (hfirst : Job.first (.request req) = .verify)
    (hverify : verifyStateid m.ctl ip (stateidOf req) = false) :
    AloneJob cfg now ip (.request req) (m, Job.first (.request req)) (m, .done false) := by
  refine .single ?_
  rw [hfirst]
  simp [Job.advance, hverify]

/-- One that matches goes on. -/
theorem verified_alone {m : Shared} {req : UamRequest} (hfirst : Job.first (.request req) = .verify)
    (hverify : verifyStateid m.ctl ip (stateidOf req) = true) :
    AloneJob cfg now ip (.request req) (m, Job.first (.request req)) (m, Job.verified req) := by
  refine .single ?_
  rw [hfirst]
  simp [Job.advance, hverify]

/-- **A request that no other thread interrupts** is served as one operation. -/
theorem serve_alone (now : ℤ) (m : Shared) (ip : UInt32) (req : UamRequest) :
    ∃ m', AloneJob cfg now ip (.request req) (m, Job.first (.request req))
        (m', .done (serve cfg now m.ctl ip req).2) ∧
      m'.ctl = (serve cfg now m.ctl ip req).1 := by
  cases req with
  | up stateid filterName interimInterval max sessionContext eventContext =>
    cases hverify : verifyStateid m.ctl ip stateid with
    | false =>
      simp only [serve, uamUp, hverify, Bool.false_eq_true, if_false]
      exact ⟨m, refused_alone rfl hverify, rfl⟩
    | true =>
      simp only [serve, uamUp, hverify, if_true]
      cases hstart : sessionStart cfg now (shapeNew (gaugeNew now m.ctl ip max) ip max.maxBpsIn
        max.maxBpsOut) ip filterName interimInterval sessionContext eventContext with
      | mk s ok =>
        obtain ⟨m', hcall, rfl⟩ := @alone_call cfg now ip (.request (.up stateid filterName
          interimInterval max sessionContext eventContext))
          (.start filterName interimInterval sessionContext eventContext)
          (fun ok => if ok then .acquire else .undoGauge)
          { m with ctl := shapeNew (gaugeNew now m.ctl ip max) ip max.maxBpsIn max.maxBpsOut }
          s ok (fun _ _ => rfl) hstart
        have hsteps := (((verified_alone rfl hverify).tail rfl).tail rfl).trans hcall
        cases ok with
        | false => exact ⟨_, (hsteps.tail rfl).tail rfl, rfl⟩
        | true => exact ⟨_, hsteps.tail rfl, rfl⟩
  | down stateid filterName sessionContext eventContext =>
    cases hverify : verifyStateid m.ctl ip stateid with
    | false =>
      simp only [serve, uamDown, hverify, Bool.false_eq_true, if_false]
      exact ⟨m, refused_alone rfl hverify, rfl⟩
    | true =>
      simp only [serve, uamDown, hverify, if_true]
      cases hstop : sessionStop cfg now m.ctl ip (some filterName) .user sessionContext
        eventContext with
      | mk s ok =>
        obtain ⟨m', hcall, rfl⟩ := @alone_call cfg now ip (.request (.down stateid filterName
          sessionContext eventContext))
          (.stop (some filterName) .user sessionContext eventContext)
          (fun ok => if ok then .gaugeDel else .done false) m s ok (fun _ _ => rfl) hstop
        have hsteps := (verified_alone rfl hverify).trans hcall
        cases ok with
        | false => exact ⟨m', hsteps, rfl⟩
        | true => exact ⟨_, (hsteps.tail rfl).tail rfl, rfl⟩
  | retention stateid retention =>
    cases retention with
    | none => exact ⟨m, .single rfl, rfl⟩
    | some retention =>
      cases hverify : verifyStateid m.ctl ip stateid with
      | false =>
        simp only [serve, uamRetention, hverify, Bool.false_eq_true, if_false]
        exact ⟨m, refused_alone rfl hverify, rfl⟩
      | true =>
        simp only [serve, uamRetention, hverify, if_true]
        have hsteps := (@verified_alone cfg now ip m (.retention stateid (some retention)) rfl
          hverify).tail rfl
        simp only [Job.advance, Job.verified, Job.retentionAdvance] at hsteps
        cases hretention : sessionRetention m.ctl ip retention with
        | mk s ok =>
          rw [hretention] at hsteps
          cases ok with
          | false => exact ⟨_, hsteps, rfl⟩
          | true => exact ⟨_, hsteps.tail rfl, rfl⟩

end Alone

/-! ## The threads -/

/-- A thread at its work. -/
structure Thread where
  job : Job
  ip : UInt32
  pc : Pc
  /-- Which session of the address the state id was compared with; nothing reads it. -/
  compared : Option ℕ

/-- A modification that was answered `OK`, as it is remembered for the statements about it. -/
structure Answer where
  ip : UInt32
  stateid : ℤ
  /-- Which session of the address the state id was compared with. -/
  compared : Option ℕ
  /-- Which one the modification was counted in. -/
  acquired : Option ℕ
  /-- The how manieth of its modifications it was. -/
  number : ℕ
  deriving DecidableEq

/-- The threads, what they share, and the modifications answered `OK`, which nothing reads. -/
structure World where
  mem : Shared
  threads : ℕ → Option Thread
  answers : List Answer

/-- What happens next: an idle thread takes a job, or a thread runs its next section, or
`sw_session_expire` comes to a session. -/
inductive Label
  | take (i : ℕ) (ip : UInt32) (job : Job)
  | run (i : ℕ) (now : ℤ)
  | expire (now : ℤ) (ip : UInt32)

/-- Which session of an address is in the table. -/
def current (m : Shared) (ip : UInt32) : Option ℕ := (m.session ip).map fun _ => m.made ip

/-- The thread is free for another job. -/
def idle : Option Thread → Bool
  | none => true
  | some t =>
    match t.pc with
    | .done _ => true
    | _ => false

/-- What is remembered of a thread that is about to count its modification. -/
def Thread.answer (t : Thread) (m : Shared) : Answer where
  ip := t.ip
  stateid := t.job.stateid
  compared := t.compared
  acquired := current m t.ip
  number := m.modified t.ip + 1

namespace World

/-- No thread is at work. -/
def init : World := ⟨.init, fun _ => none, []⟩

/-- Thread `i`, which is `t`, runs its next section. -/
def advance (cfg : Config) (now : ℤ) (w : World) (i : ℕ) (t : Thread) : World where
  mem := (t.job.advance cfg now w.mem t.ip t.pc).1
  threads := Function.update w.threads i (some { t with
    pc := (t.job.advance cfg now w.mem t.ip t.pc).2
    compared := if t.pc = .verify then current w.mem t.ip else t.compared })
  answers := if t.pc = .acquire then w.answers ++ [t.answer w.mem] else w.answers

end World

/-- One step, if it can be taken. -/
def step (cfg : Config) (w : World) : Label → Option World
  | .take i ip job =>
    if idle (w.threads i) then
      some { w with threads := Function.update w.threads i (some ⟨job, ip, job.first, none⟩) }
    else none
  | .run i now => (w.threads i).map (w.advance cfg now i)
  | .expire now ip =>
    some { w with mem := { w.mem with ctl := expireSessionCb cfg now w.mem.ctl ip } }

/-- `step` as a relation. -/
abbrev Step (cfg : Config) (w : World) (l : Label) (w' : World) : Prop := step cfg w l = some w'

end Workers

end Sweetspot
