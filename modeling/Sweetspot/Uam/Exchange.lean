import Mathlib.Logic.Function.Basic
import Sweetspot.Uam.Limits

/-!
# Requests and answers

`sweetuam` sends a request to every server of a group and waits for a datagram that starts with the
serial number it gave.  In between there is a network: datagrams get lost, arrive late, in another
order or more than once, and a port that a client had is given to the next.

* `UamRequest`, `UamClient`: what a client sends, and the client with the buffer of its parser.
* `UamNet`, `netExec`: clients and servers, and everything that was ever sent.  Any of it may arrive
  at any time, any number of times.
* `sent_cases`: where a datagram comes from.
* `answer_genuine`: what a client prints is the answer that a server gave to its request.
-/

namespace Sweetspot

open Controller CText NulString

/-! ## The client -/

/-- What `sweetuam` is to send: the serial number, which is empty if there is none, the state id,
and the arguments from the event on.  The first two are in buffers. -/
structure UamRequest where
  serial : List UInt8
  stateid : List UInt8
  args : List (List UInt8)
  serial_length : serial.length < SW_UAM_ARG_SIZE
  stateid_length : stateid.length < SW_UAM_ARG_SIZE
  nul_notMem : ∀ arg ∈ serial :: stateid :: args, 0 ∉ arg

namespace UamRequest

/-- `sw_argv`. -/
def argv (q : UamRequest) : List (List UInt8) :=
  if q.serial ≠ [] then q.serial :: q.stateid :: q.args else q.args

/-- The datagram; `none` if there are too many arguments or too few, or they do not fit. -/
def msg (q : UamRequest) : Option (List UInt8) :=
  let least := if q.serial ≠ [] then 3 else 2
  if q.argv.length ≥ SW_UAM_ARG_MAX ∨ q.argv.length < least then none else uamBuildMsg q.argv

theorem nul_notMem_argv (q : UamRequest) : ∀ arg ∈ q.argv, 0 ∉ arg := by
  intro arg harg
  unfold argv at harg
  split at harg
  · exact q.nul_notMem arg harg
  · exact q.nul_notMem arg (List.mem_cons_of_mem _ (List.mem_cons_of_mem _ harg))

theorem uamBuildMsg_of_msg {q : UamRequest} {octets : List UInt8} (h : q.msg = some octets) :
    uamBuildMsg q.argv = some octets :=
  (Option.ite_none_left_eq_some.1 h).2

end UamRequest

/-- What has become of a client. -/
inductive UamOutcome
  | waiting
  | failed
  /-- The serial number was compared with a null pointer. -/
  | crashed
  | printed (argv : List (List UInt8))
  deriving DecidableEq

structure UamClient where
  request : UamRequest
  plaintext : Plaintext
  outcome : UamOutcome

/-- `sw_uam_recv_msg` and the loop around it in `main`. -/
def UamClient.recv (client : UamClient) (datagram : List UInt8) : UamClient :=
  match client.outcome with
  | .waiting =>
    let (plaintext, argv, rc) := uamParseMsg client.plaintext (datagram.take SW_UAM_MSG_SIZE)
    let outcome :=
      if rc = -1 then .failed
      else if client.request.serial = [] then .printed argv
      else
        match argv.head? with
        | none => .crashed
        | some serial => if serial = client.request.serial then .printed argv else .waiting
    { client with plaintext, outcome }
  | _ => client

/-! ## The network -/

/-- Where a socket is bound. -/
structure Peer where
  ip : UInt32
  port : UInt16
  deriving DecidableEq

structure Datagram where
  source : Peer
  target : Peer
  octets : List UInt8
  deriving DecidableEq

/-- The configuration of a server, with `uam-report-errors`. -/
structure ServerConfig where
  cfg : Config
  reportErrors : Bool

structure UamNet where
  servers : Peer → UamServer
  clients : Peer → Option UamClient
  /-- Everything sent so far. -/
  sent : List Datagram

def UamNet.init : UamNet := ⟨fun _ => .init, fun _ => none, []⟩

/-- What happens: a server's daemon does a chore or assigns endpoints, a client is started, a
datagram arrives, or a client's time is up.  `sendto` may fail for all members of a group but the
first `reached`. -/
inductive NetOp
  | chore (peer : Peer) (now : ℤ) (chore : Chore)
  | assign (peer : Peer) (now : ℤ) (as bs : Chain) (prvIp : UInt32)
  | call (peer : Peer) (request : UamRequest) (members : List Peer) (reached : ℕ)
  | deliver (now : ℤ) (behind : List UInt8) (d : Datagram)
  | timeout (peer : Peer)

namespace UamNet

variable (settings : Peer → Option ServerConfig)

/-- An event of a server, if there is one. -/
def serve (net : UamNet) (peer : Peer) (ev : ServerEvent) : UamNet :=
  match settings peer with
  | none => net
  | some server =>
    { net with
      servers := Function.update net.servers peer
        (serverExec server.cfg (net.servers peer) ev) }

/-- What a server answers to a datagram. -/
def answers (net : UamNet) (now : ℤ) (behind : List UInt8) (d : Datagram) : List Datagram :=
  match settings d.target with
  | none => []
  | some server =>
    match served server.cfg (net.servers d.target) ⟨now, .datagram behind d.octets⟩ with
    | none => []
    | some (r, v) =>
      ((uamAnswer server.reportErrors r v).map fun octets => ⟨d.target, d.source, octets⟩).toList

/-- What becomes of the client on a socket. -/
def setClient (net : UamNet) (peer : Peer) (client : Option UamClient) : UamNet :=
  { net with clients := Function.update net.clients peer client }

/-- A client is started on a socket, unless that is a server's. -/
def start (net : UamNet) (peer : Peer) (request : UamRequest) (members : List Peer)
    (reached : ℕ) : UamNet :=
  if (settings peer).isSome then net
  else
    match request.msg with
    | none => net.setClient peer (some ⟨request, .zeros, .failed⟩)
    | some octets =>
      let outcome := if reached < members.length then .failed else .waiting
      { net.setClient peer (some ⟨request, .zeros, outcome⟩) with
        sent := net.sent ++ (members.take reached).map fun member => ⟨peer, member, octets⟩ }

end UamNet

/-- A datagram that was not sent does not arrive. -/
def netExec (settings : Peer → Option ServerConfig) (net : UamNet) : NetOp → UamNet
  | .chore peer now chore => net.serve settings peer ⟨now, .chore chore⟩
  | .assign peer now as bs prvIp => net.serve settings peer ⟨now, .assign as bs prvIp⟩
  | .call peer request members reached => net.start settings peer request members reached
  | .deliver now behind d =>
    if d ∈ net.sent then
      if (settings d.target).isSome then
        { net.serve settings d.target ⟨now, .datagram behind d.octets⟩ with
          sent := net.sent ++ net.answers settings now behind d }
      else net.setClient d.target ((net.clients d.target).map fun client => client.recv d.octets)
    else net
  | .timeout peer =>
    net.setClient peer ((net.clients peer).map fun client =>
      if client.outcome = .waiting then { client with outcome := .failed } else client)

/-! ## What a server takes a request for -/

section Requests

variable {cfg : Config} {now : ℤ} {behind : List UInt8} {srv : UamServer} {r : UamEvent}
  {v : UamVerdict}

/-- A server takes a datagram that was built for what it was built from. -/
theorem uamEvent_of_built {argv : List (List UInt8)} {octets : List UInt8}
    (hargv : ∀ arg ∈ argv, 0 ∉ arg) (hbuild : uamBuildMsg argv = some octets)
    (h : (uamProc cfg now behind srv octets).2 = some (r, v)) : uamEvent behind argv = some r := by
  have hlt := (uamBuildMsg_eq_some hbuild).2.2
  unfold uamProc at h
  dsimp only at h
  split at h
  · cases h
  · rename_i hsize
    have hshort : octets.length < SW_UAM_MSG_SIZE - 1 := by
      rw [List.length_take] at hsize
      omega
    rw [List.take_of_length_le hshort.le] at h
    have hparse := @uamParseMsg_uamBuildMsg srv.plaintext octets argv hargv hbuild hshort
    generalize uamParseMsg srv.plaintext octets = parsed at h hparse
    obtain ⟨plaintext, _, _⟩ := parsed
    obtain ⟨rfl, rfl⟩ := Prod.mk.inj hparse
    dsimp only at h
    rw [if_neg (by decide)] at h
    split at h
    · cases h
    · rename_i r' hr'
      rw [hr', (Prod.mk.inj (Option.some.inj h)).1]

/-- A serial number that fits is the first string of the request. -/
theorem head_of_serial {argv : List (List UInt8)} {serial : List UInt8}
    (hlength : serial.length < SW_UAM_ARG_SIZE) (hr : uamEvent behind argv = some r)
    (hserial : r.serial = some serial) :
    ∃ stateid event host args, argv = serial :: stateid :: event :: host :: args ∧
      r = ⟨some serial, atoi stateid, event, host, args⟩ := by
  unfold uamEvent at hr
  split at hr
  · rename_i serial' stateid event host args _
    obtain rfl := Option.some.inj hr
    have htext : serialText behind serial' = serial := Option.some.inj hserial
    have hshort : serial'.length < SW_UAM_ARG_SIZE := by
      by_contra hlong
      rw [serialText, if_neg hlong] at htext
      rw [← htext, List.length_append, List.length_take] at hlength
      omega
    rw [serialText, if_pos hshort] at htext ⊢
    obtain rfl := htext
    exact ⟨stateid, event, host, args, rfl, rfl⟩
  · obtain rfl := Option.some.inj hr
    cases hserial
  · cases hr

/-- An answer starts with the serial number of its request, if it starts with a digit. -/
theorem serial_of_head {serial : List UInt8} (hdigit : isNumbered [serial] = true)
    (hhead : (answerArgv r v).head? = some serial) : r.serial = some serial := by
  unfold answerArgv at hhead
  cases hserial : r.serial with
  | none =>
    rw [hserial, Option.elim_none, List.nil_append, List.head?_cons] at hhead
    obtain rfl := Option.some.inj hhead
    split at hdigit
    · exact absurd hdigit (by decide +kernel)
    · exact absurd hdigit (by decide +kernel)
  | some serial' =>
    rw [hserial] at hhead
    exact hhead

end Requests

/-! ## Where a datagram comes from -/

section Net

variable {settings : Peer → Option ServerConfig} {ops : List NetOp}

theorem sent_serve (net : UamNet) (peer : Peer) (ev : ServerEvent) :
    (net.serve settings peer ev).sent = net.sent := by
  unfold UamNet.serve
  split <;> rfl

theorem clients_serve (net : UamNet) (peer : Peer) (ev : ServerEvent) :
    (net.serve settings peer ev).clients = net.clients := by
  unfold UamNet.serve
  split <;> rfl

theorem clients_setClient (net : UamNet) (peer peer' : Peer) (client : Option UamClient) :
    (net.setClient peer client).clients peer' =
      if peer' = peer then client else net.clients peer' :=
  Function.update_apply net.clients peer client peer'

/-- The request was sent by a client that is not a server. -/
structure FromClient (settings : Peer → Option ServerConfig) (pre : List NetOp) (d : Datagram) :
    Prop where
  stranger : settings d.source = none
  call : ∃ request members reached, .call d.source request members reached ∈ pre ∧
    request.msg = some d.octets ∧ d.target ∈ members

/-- The datagram answers one that was sent before. -/
structure FromServer (settings : Peer → Option ServerConfig) (net : UamNet) (now : ℤ)
    (behind : List UInt8) (asked d : Datagram) (r : UamEvent) (v : UamVerdict) : Prop where
  sent : asked ∈ net.sent
  source : d.source = asked.target
  target : d.target = asked.source
  served : ∃ server, settings asked.target = some server ∧
    served server.cfg (net.servers asked.target) ⟨now, .datagram behind asked.octets⟩ =
      some (r, v) ∧ uamAnswer server.reportErrors r v = some d.octets

/-- **A datagram is a client's request or a server's answer** to a datagram sent before. -/
theorem sent_cases {d : Datagram} (h : d ∈ (ops.foldl (netExec settings) .init).sent) :
    FromClient settings ops d ∨ ∃ pre post now behind asked r v,
      ops = pre ++ .deliver now behind asked :: post ∧
        FromServer settings (pre.foldl (netExec settings) .init) now behind asked d r v := by
  obtain ⟨pre, op, post, rfl, hnot, hsent⟩ :=
    exists_step_of_not (fun net : UamNet => d ∈ net.sent) List.not_mem_nil h
  generalize hnet : pre.foldl (netExec settings) .init = net at hnot hsent
  cases op with
  | chore peer now chore =>
    rw [netExec, sent_serve] at hsent
    exact absurd hsent hnot
  | assign peer now as bs prvIp =>
    rw [netExec, sent_serve] at hsent
    exact absurd hsent hnot
  | timeout peer => exact absurd hsent hnot
  | call peer request members reached =>
    refine .inl ?_
    rw [netExec, UamNet.start] at hsent
    split at hsent
    · exact absurd hsent hnot
    · rename_i hstranger
      split at hsent
      · exact absurd hsent hnot
      · rename_i octets hoctets
        rcases List.mem_append.1 hsent with hsent | hsent
        · exact absurd hsent hnot
        · obtain ⟨member, hmember, rfl⟩ := List.mem_map.1 hsent
          exact ⟨Option.not_isSome_iff_eq_none.1 hstranger, request, members, reached, by simp,
            hoctets, List.mem_of_mem_take hmember⟩
  | deliver now behind asked =>
    refine .inr ?_
    rw [netExec] at hsent
    split at hsent
    · rename_i hasked
      split at hsent
      · rcases List.mem_append.1 hsent with hsent | hsent
        · exact absurd hsent hnot
        · unfold UamNet.answers at hsent
          split at hsent
          · cases hsent
          rename_i server hserver
          split at hsent
          · cases hsent
          rename_i r v hserved
          rw [Option.mem_toList] at hsent
          obtain ⟨octets, hanswer, rfl⟩ := Option.map_eq_some_iff.1 hsent
          rw [← hnet] at hasked hserved
          exact ⟨pre, post, now, behind, asked, r, v, rfl, hasked, rfl, rfl, server, hserver,
            hserved, hanswer⟩
      · exact absurd hsent hnot
    · exact absurd hsent hnot

/-- A client prints what it received, if that starts with its serial number. -/
theorem printed_of_recv {before client : UamClient} {datagram : List UInt8}
    {argv : List (List UInt8)} (hrecv : before.recv datagram = client) (hchanged : before ≠ client)
    (hprinted : client.outcome = .printed argv) (hserial : client.request.serial ≠ []) :
    argv.head? = some client.request.serial ∧
      ∃ plaintext : Plaintext, (uamParseMsg plaintext (datagram.take SW_UAM_MSG_SIZE)).2.1 = argv ∧
        (uamParseMsg plaintext (datagram.take SW_UAM_MSG_SIZE)).2.2 ≠ -1 := by
  unfold UamClient.recv at hrecv
  split at hrecv
  · generalize hparsed : uamParseMsg before.plaintext (datagram.take SW_UAM_MSG_SIZE) = parsed
      at hrecv
    obtain ⟨plaintext, argv', rc⟩ := parsed
    subst hrecv
    dsimp only at hprinted hserial ⊢
    split at hprinted
    · cases hprinted
    · rename_i hrc
      split at hprinted
      · cases hprinted
      · rename_i serial hhead
        split at hprinted
        · rename_i hsame
          obtain rfl := UamOutcome.printed.inj hprinted
          exact ⟨hhead.trans (congrArg some hsame), before.plaintext, by rw [hparsed],
            by rwa [hparsed]⟩
        · cases hprinted
  · exact absurd hrecv hchanged

/-- What a client prints arrived as a datagram. -/
theorem exists_received {peer : Peer} {client : UamClient} {argv : List (List UInt8)}
    (hclient : (ops.foldl (netExec settings) .init).clients peer = some client)
    (hprinted : client.outcome = .printed argv) (hserial : client.request.serial ≠ []) :
    ∃ pre post now behind d, ops = pre ++ .deliver now behind d :: post ∧
      d ∈ (pre.foldl (netExec settings) .init).sent ∧ d.target = peer ∧ settings peer = none ∧
      argv.head? = some client.request.serial ∧
      ∃ plaintext : Plaintext, (uamParseMsg plaintext (d.octets.take SW_UAM_MSG_SIZE)).2.1 = argv ∧
        (uamParseMsg plaintext (d.octets.take SW_UAM_MSG_SIZE)).2.2 ≠ -1 := by
  obtain ⟨pre, op, post, rfl, hnot, hstep⟩ :=
    exists_step_of_not (fun net : UamNet => net.clients peer = some client) (by rintro ⟨⟩) hclient
  generalize hnet : pre.foldl (netExec settings) .init = net at hnot hstep
  cases op with
  | chore peer' now chore =>
    rw [netExec, clients_serve] at hstep
    exact absurd hstep hnot
  | assign peer' now as bs prvIp =>
    rw [netExec, clients_serve] at hstep
    exact absurd hstep hnot
  | timeout peer' =>
    rw [netExec, clients_setClient] at hstep
    split at hstep
    · rename_i hpeer
      obtain ⟨before, hbefore, hclient⟩ := Option.map_eq_some_iff.1 hstep
      split at hclient
      · rw [← hclient] at hprinted
        cases hprinted
      · exact absurd (hpeer ▸ hclient ▸ hbefore) hnot
    · exact absurd hstep hnot
  | call peer' request members reached =>
    -- a client starts without having printed anything
    rw [netExec, UamNet.start] at hstep
    split at hstep
    · exact absurd hstep hnot
    · split at hstep
      · rw [clients_setClient] at hstep
        split at hstep
        · rw [← Option.some.inj hstep] at hprinted
          cases hprinted
        · exact absurd hstep hnot
      · dsimp only at hstep
        rw [clients_setClient] at hstep
        split at hstep
        · rw [← Option.some.inj hstep] at hprinted
          dsimp only at hprinted
          split at hprinted <;> cases hprinted
        · exact absurd hstep hnot
  | deliver now behind d =>
    rw [netExec] at hstep
    split at hstep
    · rename_i hsent
      split at hstep
      · rw [clients_serve] at hstep
        exact absurd hstep hnot
      · rename_i hstranger
        rw [clients_setClient] at hstep
        split at hstep
        · rename_i hpeer
          obtain ⟨before, hbefore, hrecv⟩ := Option.map_eq_some_iff.1 hstep
          have hchanged : before ≠ client := fun heq => hnot (by rw [hpeer, hbefore, heq])
          exact ⟨pre, post, now, behind, d, rfl, hnet ▸ hsent, hpeer.symm,
            hpeer ▸ Option.not_isSome_iff_eq_none.1 hstranger,
            printed_of_recv hrecv hchanged hprinted hserial⟩
        · exact absurd hstep hnot
    · exact absurd hstep hnot

/-- An answer that was parsed is what the server gave. -/
theorem answerArgv_of_parsed {cfg : Config} {now : ℤ} {behind octets asked : List UInt8}
    {srv : UamServer} {r : UamEvent} {v : UamVerdict} {reportErrors : Bool}
    {argv : List (List UInt8)} {plaintext : Plaintext}
    (hserved : (uamProc cfg now behind srv asked).2 = some (r, v))
    (hanswer : uamAnswer reportErrors r v = some octets)
    (hparsed : (uamParseMsg plaintext (octets.take SW_UAM_MSG_SIZE)).2.1 = argv)
    (hrc : (uamParseMsg plaintext (octets.take SW_UAM_MSG_SIZE)).2.2 ≠ -1) :
    argv = answerArgv r v := by
  have hlt : octets.length < SW_UAM_MSG_SIZE := by
    unfold uamAnswer at hanswer
    split at hanswer
    · exact (uamBuildMsg_eq_some hanswer).2.2
    · cases hanswer
  rw [List.take_of_length_le hlt.le] at hparsed hrc
  have hshort : octets.length < SW_UAM_MSG_SIZE - 1 := by
    by_contra hlong
    rw [uamParseMsg_of_le (Nat.le_of_not_lt hlong)] at hrc
    exact hrc rfl
  rw [← hparsed, uamParseMsg_uamAnswer hserved hanswer hshort plaintext]

/-- **What a client prints is the answer to its request.**  Let the clients' groups consist of
servers, and let a client whose serial number starts with a digit have printed something.  However
datagrams were lost, delayed, reordered or repeated, and whoever had the client's port before:

* at some point of the run a server served a datagram that was sent from this port, under the same
  serial number, and what is printed is what the server answered to it then;
* if no request but the client's own was ever sent from this port under its serial number, it is the
  client's own request that was served, after the client sent it. -/
theorem answer_genuine (settings : Peer → Option ServerConfig) (ops : List NetOp)
    (hgroups : ∀ peer request members reached, .call peer request members reached ∈ ops →
      ∀ member ∈ members, (settings member).isSome)
    {peer : Peer} {client : UamClient} {argv : List (List UInt8)}
    (hclient : (ops.foldl (netExec settings) .init).clients peer = some client)
    (hprinted : client.outcome = .printed argv)
    (hnumbered : isNumbered [client.request.serial] = true) :
    ∃ pre post now behind d server r v,
      ops = pre ++ .deliver now behind d :: post ∧
        d ∈ (pre.foldl (netExec settings) .init).sent ∧ d.source = peer ∧
        settings d.target = some server ∧
        served server.cfg ((pre.foldl (netExec settings) .init).servers d.target)
          ⟨now, .datagram behind d.octets⟩ = some (r, v) ∧
        r.serial = some client.request.serial ∧ argv = answerArgv r v ∧
        ((∀ request members reached, .call peer request members reached ∈ ops →
            request.argv.head? = some client.request.serial →
            request.argv = client.request.argv) →
          (∃ request members reached, .call peer request members reached ∈ pre ∧
            request.argv = client.request.argv) ∧
          r.stateid = atoi client.request.stateid ∧
          r.event :: r.host :: r.args = client.request.args) := by
  have hserial : client.request.serial ≠ [] := by
    intro hempty
    rw [hempty] at hnumbered
    exact absurd hnumbered (by decide)
  obtain ⟨pre, post, now, behind, d, rfl, hd, rfl, hstranger, hhead, plaintext, hparsed, hrc⟩ :=
    exists_received hclient hprinted hserial
  -- the client received an answer, since it is not a member of any group
  rcases sent_cases hd with ⟨-, request, members, reached, hcall, -, hmember⟩ |
    ⟨pre₁, post₁, now₁, behind₁, asked, r, v, rfl, hfrom⟩
  · have hserver := hgroups d.source request members reached (by simp [hcall]) d.target hmember
    rw [hstranger] at hserver
    cases hserver
  · obtain ⟨server, hserver, hserved, hanswer⟩ := hfrom.served
    have hstranger' : settings asked.source = none := hfrom.target ▸ hstranger
    -- and what was answered is a request, since it did not come from a server
    rcases sent_cases hfrom.sent with ⟨-, request, members, reached, hcall, hmsg, -⟩ |
      ⟨_, _, _, _, asked', _, _, rfl, hfrom'⟩
    · have hr := uamEvent_of_built request.nul_notMem_argv (UamRequest.uamBuildMsg_of_msg hmsg)
        hserved
      obtain rfl := answerArgv_of_parsed hserved hanswer hparsed hrc
      have hserial' := serial_of_head hnumbered hhead
      obtain ⟨stateid, event, host, args, hargv, rfl⟩ :=
        head_of_serial client.request.serial_length hr hserial'
      refine ⟨pre₁, post₁ ++ .deliver now behind d :: post, now₁, behind₁, asked, server, _, v,
        by simp, hfrom.sent, hfrom.target.symm, hserver, hserved, rfl, rfl, ?_⟩
      intro honly
      have hown : request.argv = client.request.argv :=
        honly request members reached (by simp [hfrom.target, hcall]) (by rw [hargv]; rfl)
      refine ⟨⟨request, members, reached, hfrom.target ▸ hcall, hown⟩, ?_⟩
      rw [hargv, UamRequest.argv, if_pos hserial] at hown
      obtain ⟨-, htail⟩ := List.cons.inj hown
      obtain ⟨rfl, hargs⟩ := List.cons.inj htail
      exact ⟨rfl, hargs⟩
    · obtain ⟨server', hserver', -⟩ := hfrom'.served
      rw [hfrom'.source, hserver'] at hstranger'
      cases hstranger'

end Net

/-! ### One client and one server -/

def serverPeer : Peer := ⟨0x0a0000fe, 3993⟩

def clientPeer : Peer := ⟨0x0a0000fd, 40000⟩

/-- A server for the only user. -/
def oneServer (peer : Peer) : Option ServerConfig :=
  if peer = serverPeer then some ⟨oneUserConfig, false⟩ else none

/-- `sweetuam -s 7 UP 10.0.0.1 paid`. -/
def upRequest : UamRequest where
  serial := toOctets "7"
  stateid := toOctets "0"
  args := ["UP", "10.0.0.1", "paid"].map toOctets
  serial_length := by decide +kernel
  stateid_length := by decide +kernel
  nul_notMem := by decide +kernel

/-- The request arrives twice, and the first answer. -/
def repeatedUp : List NetOp :=
  [.call clientPeer upRequest [serverPeer] 1,
    .deliver 0 [] ⟨clientPeer, serverPeer, joined upRequest.argv⟩,
    .deliver 1 [] ⟨clientPeer, serverPeer, joined upRequest.argv⟩,
    .deliver 2 [] ⟨serverPeer, clientPeer, joined (["7", "1", "OK", "10.0.0.1"].map toOctets)⟩]

theorem answer_genuine_up :
    ∃ r v, ["7", "1", "OK", "10.0.0.1"].map toOctets = answerArgv r v ∧
      r.event :: r.host :: r.args = ["UP", "10.0.0.1", "paid"].map toOctets := by
  have hrun : ((repeatedUp.foldl (netExec oneServer) .init).clients clientPeer).map
      (fun client => (client.outcome, client.request.argv, client.request.serial,
        client.request.args)) = some (.printed (["7", "1", "OK", "10.0.0.1"].map toOctets),
          upRequest.argv, toOctets "7", ["UP", "10.0.0.1", "paid"].map toOctets) := by
    decide +kernel
  obtain ⟨client, hclient, hfacts⟩ := Option.map_eq_some_iff.1 hrun
  simp only [Prod.mk.injEq] at hfacts
  obtain ⟨hprinted, hargv, hserial, hargs⟩ := hfacts
  have hcalls : ∀ {peer request members reached},
      NetOp.call peer request members reached ∈ repeatedUp →
        request = upRequest ∧ members = [serverPeer] := by
    intro peer request members reached hcall
    simp only [repeatedUp, List.mem_cons, NetOp.call.injEq, reduceCtorEq, List.not_mem_nil,
      or_false] at hcall
    exact ⟨hcall.2.1, hcall.2.2.1⟩
  have hgroups : ∀ peer request members reached,
      NetOp.call peer request members reached ∈ repeatedUp →
        ∀ member ∈ members, (oneServer member).isSome := by
    intro peer request members reached hcall member hmember
    rw [(hcalls hcall).2, List.mem_singleton] at hmember
    rw [hmember]
    rfl
  obtain ⟨_, _, _, _, _, _, r, v, -, -, -, -, -, -, hanswer, hown⟩ := answer_genuine oneServer
    repeatedUp hgroups hclient hprinted (by rw [hserial]; decide +kernel)
  refine ⟨r, v, hanswer, ?_⟩
  rw [← hargs]
  refine (hown fun request members reached hcall _ => ?_).2.2
  rw [(hcalls hcall).1, hargv]

end Sweetspot
