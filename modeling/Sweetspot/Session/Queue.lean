import Sweetspot.Lib.Linked
import Sweetspot.Lib.Run

/-!
# The queue of accounting records

Any thread may submit a record: it makes an entry of its own and hangs it on the end of the chain,
under a lock.  The maintenance thread takes the whole chain at once, tries one entry after the other
without the lock, and puts those to be tried again back in front of what was submitted meanwhile.

* `AcctNode.attempt`: one try to commit an entry.
* `AcctQueue`, `QueueEvent`, `AcctQueue.exec`: the entries in memory, and each piece of work that no
  other thread can come in between.
-/

namespace Sweetspot

open Linked

/-! ## Entries -/

/-- `sw_acct_entry_t` as the queue sees it: whether it has scopes, the methods that have taken it,
and the entry it points to. -/
structure AcctNode where
  hasScope : Bool
  methodMap : ℕ
  next : Option ℕ

/-- What the `commit` of a method returns: `SW_ACCT_METHOD_RC_OK`, `SW_ACCT_METHOD_RC_LATER`, -1 or
something else. -/
inductive MethodRc
  | ok | later | failed | unexpected

/-- The ids of the registered methods: there is one, `acct_method_detail`. -/
def acctMethodHandlers : List ℕ := [1]

def acctMethodHandlersMask : ℕ := 1

/-- What the world makes of one try: what `sw_acct_scope_new` leaves and returns, if it is called,
and what the methods return. -/
structure Outcome where
  hasScope : Bool
  scopeDone : Bool
  commit : ℕ → MethodRc

namespace AcctNode

/-- The loop of `sw_acct_method_commit` over the methods, for a pass that is not the final one. -/
def methodLoop (commit : ℕ → MethodRc) : List ℕ → ℕ → ℕ
  | [], methodMap => methodMap
  | id :: ids, methodMap =>
    if methodMap &&& id ≠ 0 then methodLoop commit ids methodMap
    else
      match commit id with
      | .ok => methodLoop commit ids (methodMap ||| id)
      | .later | .failed | .unexpected => methodLoop commit ids methodMap

/-- `sw_acct_method_commit`; `true` is `SW_ACCT_METHOD_RC_OK`, `false` is
`SW_ACCT_METHOD_RC_LATER`. -/
def methodCommit (commit : ℕ → MethodRc) (e : AcctNode) : AcctNode × Bool :=
  let methodMap := methodLoop commit acctMethodHandlers e.methodMap
  ({ e with methodMap }, methodMap = acctMethodHandlersMask)

/-- `sw_acct_init_scope`; `false` is -1. -/
def initScope (outcome : Outcome) (e : AcctNode) : AcctNode × Bool :=
  if e.hasScope then (e, true) else ({ e with hasScope := outcome.hasScope }, outcome.scopeDone)

/-- One try: `true` if the entry is done with. -/
def attempt (outcome : Outcome) (e : AcctNode) : AcctNode × Bool :=
  match initScope outcome e with
  | (e, false) => (e, false)
  | (e, true) => methodCommit outcome.commit e

end AcctNode

/-! ## The queue -/

/-- Where `sw_acct_commit` stands, with its variables: nowhere, at the head of the loop, or with an
entry taken off. -/
inductive CommitPc
  | idle
  | loop (e retryHead retryTail : Option ℕ)
  | entry (e : ℕ) (next retryHead retryTail : Option ℕ)

/-- The memory of the entries, and what the threads hold.  The last five fields are no part of the
source's state: how many entries were submitted, which of them an entry is, counted from 0, which
were committed and freed, and, of the current or last pass, which it began with and which it
tried. -/
structure AcctQueue where
  heap : ℕ → Option AcctNode
  globalAcctChain : Option ℕ
  /-- The entry that a thread has made and not yet submitted. -/
  held : ℕ → Option ℕ
  pc : CommitPc
  submitted : ℕ
  ticket : ℕ → ℕ
  committed : List ℕ
  detached : List ℕ
  attempted : List ℕ

/-- A piece of work.  `malloc` and `submit` are the two parts of `sw_acct_submit`; the others are
parts of `sw_acct_commit`. -/
inductive QueueEvent
  | malloc (thread a : ℕ)
  | submit (thread : ℕ)
  | detach
  | next
  | attempt (outcome : Outcome)
  | splice

namespace AcctQueue

def init : AcctQueue := ⟨fun _ => none, none, fun _ => none, .idle, 0, fun _ => 0, [], [], []⟩

/-- Which entries are in the chain. -/
def pending (s : AcctQueue) : List ℕ :=
  (addresses AcctNode.next s.heap s.submitted s.globalAcctChain).map s.ticket

/-- `a->next = next`, if there is an entry at `a`. -/
def setNext (heap : ℕ → Option AcctNode) (a : ℕ) (next : Option ℕ) :
    Option (ℕ → Option AcctNode) :=
  (heap a).map fun n => Function.update heap a (some { n with next })

/-- An entry, cleared, at an address that is free. -/
def malloc (s : AcctQueue) (thread a : ℕ) : Option AcctQueue :=
  if (s.held thread).isSome ∨ (s.heap a).isSome then none
  else
    some { s with
      heap := Function.update s.heap a (some ⟨false, 0, none⟩)
      held := Function.update s.held thread (some a) }

/-- The locked part of `sw_acct_submit`.  A chain longer than all that was submitted has no end. -/
def submit (s : AcctQueue) (thread : ℕ) : Option AcctQueue := do
  let e ← s.held thread
  let s' := { s with
    held := Function.update s.held thread none
    submitted := s.submitted + 1
    ticket := Function.update s.ticket e s.submitted }
  match s.globalAcctChain with
  | none => pure { s' with globalAcctChain := some e }
  | some p =>
    let p ← lastNode AcctNode.next s.heap s.submitted p
    let heap ← setNext s.heap p (some e)
    pure { s' with heap }

/-- The first locked part of `sw_acct_commit`. -/
def detach (s : AcctQueue) : Option AcctQueue :=
  match s.pc with
  | .idle =>
    some { s with
      globalAcctChain := none
      pc := .loop s.globalAcctChain none none
      detached := s.pending
      attempted := [] }
  | _ => none

/-- `next = e->next; e->next = NULL`. -/
def takeNext (s : AcctQueue) : Option AcctQueue :=
  match s.pc with
  | .loop (some e) retryHead retryTail => do
    let n ← s.heap e
    let heap ← setNext s.heap e none
    pure { s with heap, pc := .entry e n.next retryHead retryTail }
  | _ => none

/-- The rest of the loop: the entry is tried, and freed or kept for another try. -/
def tryEntry (s : AcctQueue) (outcome : Outcome) : Option AcctQueue :=
  match s.pc with
  | .entry e next retryHead retryTail => do
    let n ← s.heap e
    let s := { s with attempted := s.attempted ++ [s.ticket e] }
    match n.attempt outcome with
    | (_, true) =>
      pure { s with
        heap := Function.update s.heap e none
        pc := .loop next retryHead retryTail
        committed := s.committed ++ [s.ticket e] }
    | (n, false) =>
      let heap := Function.update s.heap e (some n)
      match retryTail with
      | some tail =>
        let heap ← setNext heap tail (some e)
        pure { s with heap, pc := .loop next retryHead (some e) }
      | none => pure { s with heap, pc := .loop next (some e) (some e) }
  | _ => none

/-- The second locked part of `sw_acct_commit`, if there is something for another try. -/
def splice (s : AcctQueue) : Option AcctQueue :=
  match s.pc with
  | .loop none none _ => some { s with pc := .idle }
  | .loop none (some head) retryTail => do
    let tail ← retryTail
    let heap ← setNext s.heap tail s.globalAcctChain
    pure { s with heap, globalAcctChain := some head, pc := .idle }
  | _ => none

/-- A piece of work; `none` if there is no such work to do, and also if it reads memory that holds
no entry or does not come to an end. -/
def exec (s : AcctQueue) : QueueEvent → Option AcctQueue
  | .malloc thread a => s.malloc thread a
  | .submit thread => s.submit thread
  | .detach => s.detach
  | .next => s.takeNext
  | .attempt outcome => s.tryEntry outcome
  | .splice => s.splice

/-- There is such work to do. -/
def Enabled (s : AcctQueue) : QueueEvent → Prop
  | .malloc thread a => s.held thread = none ∧ s.heap a = none
  | .submit thread => (s.held thread).isSome
  | .detach => s.pc = .idle
  | .next => ∃ e retryHead retryTail, s.pc = .loop (some e) retryHead retryTail
  | .attempt _ => ∃ e next retryHead retryTail, s.pc = .entry e next retryHead retryTail
  | .splice => ∃ retryHead retryTail, s.pc = .loop none retryHead retryTail

/-- One piece of work of a run. -/
def Step (s : AcctQueue) (ev : QueueEvent) (s' : AcctQueue) : Prop := s.exec ev = some s'

end AcctQueue

end Sweetspot
