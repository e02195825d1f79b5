import Sweetspot.Lib.CText
import Sweetspot.Session.System
import Sweetspot.Snat.Lookup
import Sweetspot.Uam.Message

/-!
# The UAM server

A datagram is cut into strings; the first, if it starts with a digit, is the serial number of the
request, and the second the state id its sender has seen.  Then come an event, an address in dotted
notation and arguments.  The first letter of the event says what to do.  The answer is a vector of
strings again: the serial number and the state id if the request had a serial number, `OK` or `ER`,
the address as it came, and what was asked for.

* `uamEvent`: the strings of a request taken apart.
* `procUp` to `procRetention`, `procEvent`: the events.
* `uamProc`, `uamAnswer`: `__proc`, up to the answer, and the answer.
* `Chore`, `serverExec`: the server in the daemon, which opens sessions for packets, accounts them
  and makes its passes between the requests, with the filters that were loaded at the start.
* `uamParseMsg_uamAnswer`: the answer is what its receiver finds.
* `exec_procEvent`: a request is one operation of the controller or none.
-/

namespace Sweetspot

open Controller CText NulString

def SW_UAM_ARG_SIZE : ℕ := 32

/-! ## Requests -/

/-- A request: `argv` from the event on, with the serial number and the state id that stood
before it. -/
structure UamEvent where
  serial : Option (List UInt8)
  stateid : ℤ
  event : List UInt8
  host : List UInt8
  args : List (List UInt8)
  deriving DecidableEq

namespace UamEvent

/-- The entries of `argv` once the serial number and the state id are taken off. -/
def argv (r : UamEvent) (idx : ℕ) : Option (List UInt8) := (r.event :: r.host :: r.args)[idx]?

/-- `ntohl(inet_addr(argv[1]))`. -/
def ip (r : UamEvent) : UInt32 := inetAddr r.host

end UamEvent

/-- `serial`, which is copied at its full size: an argument too long for it goes on with what is
behind it on the stack. -/
def serialText (behind arg : List UInt8) : List UInt8 :=
  if arg.length < SW_UAM_ARG_SIZE then arg else arg.take SW_UAM_ARG_SIZE ++ str behind

/-- The vector starts with a serial number. -/
def isNumbered (argv : List (List UInt8)) : Bool :=
  (argv.head?.bind List.head?).any fun c => 48 ≤ c && c ≤ 57

/-- The request in a vector; `none` is one without event or address. -/
def uamEvent (behind : List UInt8) (argv : List (List UInt8)) : Option UamEvent :=
  match isNumbered argv, argv with
  | true, serial :: stateid :: event :: host :: args =>
    some ⟨some (serialText behind serial), atoi stateid, event, host, args⟩
  | false, event :: host :: args => some ⟨none, 0, event, host, args⟩
  | _, _ => none

/-- What the first letter of an event stands for. -/
inductive UamCommand
  | up | down | status | limits | current | peak | outward | inward | retention
  deriving DecidableEq

def uamCommand (event : List UInt8) : Option UamCommand :=
  match event.head?.map fun c => Char.ofNat c.toNat with
  | some 'U' => some .up
  | some 'D' => some .down
  | some 'S' => some .status
  | some 'L' => some .limits
  | some 'C' => some .current
  | some 'P' => some .peak
  | some 'O' => some .outward
  | some 'I' => some .inward
  | some 'R' => some .retention
  | _ => none

/-! ## Arguments -/

/-- A string argument, empty if it is missing. -/
def stringArg (arg : Option (List UInt8)) : String := ofOctets (arg.getD [])

/-- An `atoi` argument, 0 if it is missing. -/
def intArg (arg : Option (List UInt8)) : ℤ := (arg.map atoi).getD 0

/-- A quota or a rate; a missing or empty argument is the default. -/
def octetsArg (arg : Option (List UInt8)) (max : UInt64) : UInt64 :=
  match arg with
  | none | some [] => max
  | some arg => UInt64.ofInt (strtol arg)

/-- A time; a missing or empty argument is the default. -/
def timeArg (arg : Option (List UInt8)) (max : ℤ) : ℤ :=
  match arg with
  | none | some [] => max
  | some arg => strtol arg

/-- The limits in an `UP`. -/
def limitsArg (argv : ℕ → Option (List UInt8)) : GaugeLimits where
  maxOctetsIn := octetsArg (argv 4) GaugeLimits.unlimited.maxOctetsIn
  maxOctetsOut := octetsArg (argv 5) GaugeLimits.unlimited.maxOctetsOut
  maxBpsIn := octetsArg (argv 6) GaugeLimits.unlimited.maxBpsIn
  maxBpsOut := octetsArg (argv 7) GaugeLimits.unlimited.maxBpsOut
  maxDuration := timeArg (argv 8) GaugeLimits.unlimited.maxDuration
  maxIdle := timeArg (argv 9) GaugeLimits.unlimited.maxIdle

/-! ## What is written -/

/-- `%llu`. -/
def lluText (n : UInt64) : List UInt8 := numeral n.toNat

/-- `%lu` of a time. -/
def luText (time : ℤ) : List UInt8 := numeral (UInt64.ofInt time).toNat

/-- `%u` of a time, of which it writes the lower half; and `%lu` of an `int`, in a register whose
upper half is zero. -/
def uText (time : ℤ) : List UInt8 := numeral (UInt32.ofInt time).toNat

/-- `%d` of a time: its lower half, as an `int`. -/
def dText (time : ℤ) : List UInt8 := signedNumeral (int32 time)

def portText (port : UInt16) : List UInt8 := numeral port.toNat

def limitsText (max : GaugeLimits) : List (List UInt8) :=
  [lluText max.maxOctetsIn, lluText max.maxOctetsOut, lluText max.maxBpsIn, lluText max.maxBpsOut,
    uText max.maxDuration, uText max.maxIdle]

/-! ## Events -/

/-- The answer before it is written: the status, what stands behind the address, and the
state id. -/
structure UamVerdict where
  ok : Bool
  args : List (List UInt8)
  stateid : ℤ
  deriving DecidableEq

namespace UamVerdict

/-- `ER` with a message. -/
def er (message : String) (stateid : ℤ) : UamVerdict := ⟨false, [toOctets message], stateid⟩

end UamVerdict

/-- The limits of a gauge, `sw_gauge_limits`. -/
def GaugeEntry.limits (g : GaugeEntry) : GaugeLimits :=
  ⟨g.maxOctetsIn, g.maxOctetsOut, g.maxBpsIn, g.maxBpsOut, g.maxDuration, g.maxIdle⟩

/-- `sw_nat_src_endpoint_udp_getpub`. -/
def Endpoints.udpGetpub (e : Endpoints) (prvIp : UInt32) : Option (UInt16 × UInt16) :=
  (e.udp.retrieve prvIp).map fun u => (u.lport, u.hport)

section Events

variable (cfg : Config) (now : ℤ) (s : Controller) (ip : UInt32) (stateid : ℤ)

/-- What a state id is after it failed the verification, or after `sw_session_acquire_stateid`: the
session's, if there is a session. -/
def sessionStateid : ℤ := ((s.sessions.retrieve ip).map SessionEntry.stateid).getD stateid

/-- `UP`. -/
def procUp (argv : ℕ → Option (List UInt8)) : Controller × UamVerdict :=
  if verifyStateid s ip stateid then
    match uamUp cfg now s ip stateid (stringArg (argv 2)) (intArg (argv 3)) (limitsArg argv)
        (stringArg (argv 10)) (stringArg (argv 11)) with
    | (s, false) => (s, .er "session-starting-failure" stateid)
    | (s, true) => (s, ⟨true, [], sessionStateid s ip stateid⟩)
  else (s, .er "stateid-verification-failure" (sessionStateid s ip stateid))

/-- `DN`. -/
def procDown (argv : ℕ → Option (List UInt8)) : Controller × UamVerdict :=
  if verifyStateid s ip stateid then
    match uamDown cfg now s ip stateid (stringArg (argv 2)) (stringArg (argv 3))
        (stringArg (argv 4)) with
    | (s, false) => (s, .er "session-stopping-failure" stateid)
    | (s, true) => (s, ⟨true, [], sessionStateid s ip stateid⟩)
  else (s, .er "stateid-verification-failure" (sessionStateid s ip stateid))

/-- `ST`.  A session without a context ends the vector early. -/
def procStatus : Controller × UamVerdict :=
  match sessionStatus cfg now s ip with
  | (s, none) => (s, .er "getting-state-failure" stateid)
  | (s, some (e, filterName)) =>
    let state := if e.state = .released then toOctets "UP" else toOctets "DN"
    (s, ⟨true, [state, numeral e.sessionId.toNat, toOctets filterName, dText e.interimInterval] ++
      (e.sessionContext.map toOctets).toList, sessionStateid s ip stateid⟩)

/-- `LI`. -/
def procLimits : UamVerdict :=
  match s.gauges.retrieve ip with
  | none => .er "getting-limits-failure" stateid
  | some g => ⟨true, limitsText g.limits, sessionStateid s ip stateid⟩

/-- `CN`. -/
def procCurrent : UamVerdict :=
  match s.gauges.retrieve ip with
  | none => .er "getting-currents-failure" stateid
  | some g =>
    ⟨true, [lluText g.octetsIn, lluText g.octetsOut, lluText g.bpsIn, lluText g.bpsOut,
      uText (now - (g.deathday - g.maxDuration)), dText (now - g.idle)],
      sessionStateid s ip stateid⟩

/-- `PE`. -/
def procPeak : UamVerdict :=
  match s.gauges.retrieve ip with
  | none => .er "getting-peaks-failure" stateid
  | some g => ⟨true, [lluText g.peakBpsIn, lluText g.peakBpsOut], sessionStateid s ip stateid⟩

/-- `OU`. -/
def procOutward : UamVerdict :=
  match cfg.nat with
  | none => .er "snat-is-disabled" stateid
  | some _ =>
    match s.endpoints.ipGetpub ip, s.endpoints.udpGetpub ip with
    | some snatIp, some (snatLport, snatHport) =>
      ⟨true, [inetNtoa snatIp, portText snatLport, portText snatHport],
        sessionStateid s ip stateid⟩
    | _, _ => .er "getting-public-port-failure" stateid

/-- `IN`, of a public address and port.  The state id is that of the private address. -/
def procInward (argv : ℕ → Option (List UInt8)) : UamVerdict :=
  match argv 2 with
  | none => .er "missing-public-port" stateid
  | some arg =>
    let snatPort := UInt16.ofInt (atoi arg)
    match cfg.nat with
    | none => .er "snat-is-disabled" stateid
    | some nat =>
      match s.endpoints.udpGetprv nat ip snatPort with
      | none => .er "getting-private-port-failure" stateid
      | some prvIp =>
        ⟨true, [portText snatPort, inetNtoa prvIp], sessionStateid s prvIp stateid⟩

/-- The retention time of the session after `sw_session_retention`. -/
def retentionText : List (List UInt8) :=
  (s.sessions.retrieve ip).toList.map fun e => luText e.retention

/-- `RT`, which only reads without an argument. -/
def procRetention (argv : ℕ → Option (List UInt8)) : Controller × UamVerdict :=
  match argv 2 with
  | none =>
    (s, if (s.sessions.retrieve ip).isSome then
        ⟨true, retentionText s ip, sessionStateid s ip stateid⟩
      else .er "retention-operation-failure" stateid)
  | some arg =>
    if verifyStateid s ip stateid then
      match uamRetention s ip stateid (atoi arg) with
      | (s, false) => (s, .er "retention-operation-failure" stateid)
      | (s, true) => (s, ⟨true, retentionText s ip, sessionStateid s ip stateid⟩)
    else (s, .er "stateid-verification-failure" (sessionStateid s ip stateid))

end Events

/-- The `switch` of `__proc`. -/
def procEvent (cfg : Config) (now : ℤ) (s : Controller) (r : UamEvent) : Controller × UamVerdict :=
  match uamCommand r.event with
  | some .up => procUp cfg now s r.ip r.stateid r.argv
  | some .down => procDown cfg now s r.ip r.stateid r.argv
  | some .status => procStatus cfg now s r.ip r.stateid
  | some .limits => (s, procLimits s r.ip r.stateid)
  | some .current => (s, procCurrent now s r.ip r.stateid)
  | some .peak => (s, procPeak s r.ip r.stateid)
  | some .outward => (s, procOutward cfg s r.ip r.stateid)
  | some .inward => (s, procInward cfg s r.ip r.stateid r.argv)
  | some .retention => procRetention s r.ip r.stateid r.argv
  | none => (s, .er "uam-protocol-error" r.stateid)

/-! ## Datagrams -/

/-- The tables, and the buffer of the parser. -/
structure UamServer where
  ctl : Controller
  plaintext : Plaintext

def UamServer.init : UamServer := ⟨Controller.init, .zeros⟩

/-- `__recv` and `__proc` up to the answer: the request that was taken from the datagram, if any,
with the verdict on it.  `behind` is what is behind `serial` on the stack. -/
def uamProc (cfg : Config) (now : ℤ) (behind : List UInt8) (srv : UamServer)
    (datagram : List UInt8) : UamServer × Option (UamEvent × UamVerdict) :=
  let cyphertext := datagram.take (SW_UAM_MSG_SIZE - 1)
  if cyphertext.length = 0 ∨ cyphertext.length = SW_UAM_MSG_SIZE - 1 then (srv, none)
  else
    match uamParseMsg srv.plaintext cyphertext with
    | (plaintext, argv, rc) =>
      match if rc = -1 then none else uamEvent behind argv with
      | none => ({ srv with plaintext }, none)
      | some r =>
        let (ctl, verdict) := procEvent cfg now srv.ctl r
        (⟨ctl, plaintext⟩, some (r, verdict))

/-- The strings of the answer. -/
def answerArgv (r : UamEvent) (v : UamVerdict) : List (List UInt8) :=
  r.serial.elim [] (fun serial => [serial, uText v.stateid]) ++
    (if v.ok then toOctets "OK" else toOctets "ER") :: r.host :: v.args

/-- The datagram that is sent; errors are muted unless `uam-report-errors` is set. -/
def uamAnswer (reportErrors : Bool) (r : UamEvent) (v : UamVerdict) : Option (List UInt8) :=
  if v.ok || reportErrors then uamBuildMsg (answerArgv r v) else none

/-! ## The daemon -/

/-- What the daemon does between two requests.  It does not load its filters again, which stay as
they are all along a run. -/
inductive Chore
  | lookup (ip : UInt32)
  | account (ip : UInt32) (octets : UInt64) (dir : GaugeDir)
  | expireGauge (ip : UInt32)
  | expireSession (ip : UInt32)
  | commit (finalFlag : Bool) (accepts : ℕ → Bool)

def Chore.op : Chore → Op
  | .lookup ip => .lookup ip
  | .account ip octets dir => .account ip octets dir
  | .expireGauge ip => .expireGauge ip
  | .expireSession ip => .expireSession ip
  | .commit finalFlag accepts => .commit finalFlag accepts

/-- What happens to the server: a datagram arrives, the daemon does a chore, or endpoints are
assigned to a packet. -/
inductive ServerOp
  | datagram (behind octets : List UInt8)
  | chore (chore : Chore)
  | assign (as bs : Chain) (prvIp : UInt32)

/-- It happens at its time. -/
structure ServerEvent where
  now : ℤ
  op : ServerOp

/-- The request that an event serves, if it is one, and the verdict. -/
def served (cfg : Config) (srv : UamServer) (ev : ServerEvent) : Option (UamEvent × UamVerdict) :=
  match ev.op with
  | .datagram behind octets => (uamProc cfg ev.now behind srv octets).2
  | .chore _ | .assign .. => none

def serverExec (cfg : Config) (srv : UamServer) (ev : ServerEvent) : UamServer :=
  match ev.op with
  | .datagram behind octets => (uamProc cfg ev.now behind srv octets).1
  | .chore chore => { srv with ctl := exec cfg srv.ctl ⟨ev.now, chore.op⟩ }
  | .assign as bs prvIp =>
    { srv with
      ctl := { srv.ctl with
        endpoints := (cfg.nat.map fun nat => srv.ctl.endpoints.exec nat
          (.assign as bs prvIp)).getD srv.ctl.endpoints } }

/-! ## A request is one operation or none -/

/-- The operation of a request; most queries are none. -/
def procOp (r : UamEvent) : Option Op :=
  match uamCommand r.event with
  | some .up =>
    some (.up r.ip r.stateid (stringArg (r.argv 2)) (intArg (r.argv 3)) (limitsArg r.argv)
      (stringArg (r.argv 10)) (stringArg (r.argv 11)))
  | some .down =>
    some (.down r.ip r.stateid (stringArg (r.argv 2)) (stringArg (r.argv 3))
      (stringArg (r.argv 4)))
  | some .status => some (.status r.ip)
  | some .retention => (r.argv 2).map fun arg => .retention r.ip r.stateid (atoi arg)
  | _ => none

section Operations

variable {cfg : Config} {now : ℤ} {s : Controller} {ip : UInt32} {stateid : ℤ}

/-- `UP` is an error just if the operation is, and does what that does. -/
theorem procUp_eq (argv : ℕ → Option (List UInt8)) :
    (procUp cfg now s ip stateid argv).1 =
        (uamUp cfg now s ip stateid (stringArg (argv 2)) (intArg (argv 3)) (limitsArg argv)
          (stringArg (argv 10)) (stringArg (argv 11))).1 ∧
      (procUp cfg now s ip stateid argv).2.ok =
        (uamUp cfg now s ip stateid (stringArg (argv 2)) (intArg (argv 3)) (limitsArg argv)
          (stringArg (argv 10)) (stringArg (argv 11))).2 := by
  unfold procUp
  by_cases hverify : verifyStateid s ip stateid = true
  · rw [if_pos hverify]
    generalize uamUp cfg now s ip stateid _ _ _ _ _ = result
    rcases result with ⟨s', _ | _⟩ <;> exact ⟨rfl, rfl⟩
  · rw [if_neg hverify, uamUp, if_neg hverify]
    exact ⟨rfl, rfl⟩

/-- So is `DN`. -/
theorem procDown_eq (argv : ℕ → Option (List UInt8)) :
    (procDown cfg now s ip stateid argv).1 =
        (uamDown cfg now s ip stateid (stringArg (argv 2)) (stringArg (argv 3))
          (stringArg (argv 4))).1 ∧
      (procDown cfg now s ip stateid argv).2.ok =
        (uamDown cfg now s ip stateid (stringArg (argv 2)) (stringArg (argv 3))
          (stringArg (argv 4))).2 := by
  unfold procDown
  by_cases hverify : verifyStateid s ip stateid = true
  · rw [if_pos hverify]
    generalize uamDown cfg now s ip stateid _ _ _ = result
    rcases result with ⟨s', _ | _⟩ <;> exact ⟨rfl, rfl⟩
  · rw [if_neg hverify, uamDown, if_neg hverify]
    exact ⟨rfl, rfl⟩

theorem procStatus_fst :
    (procStatus cfg now s ip stateid).1 = (sessionStatus cfg now s ip).1 := by
  unfold procStatus
  generalize sessionStatus cfg now s ip = result
  rcases result with ⟨s', _ | ⟨e, filterName⟩⟩ <;> rfl

theorem procRetention_fst (argv : ℕ → Option (List UInt8)) :
    (procRetention s ip stateid argv).1 =
      ((argv 2).map fun arg => (uamRetention s ip stateid (atoi arg)).1).getD s := by
  unfold procRetention
  cases argv 2 with
  | none => rfl
  | some arg =>
    by_cases hverify : verifyStateid s ip stateid = true
    · simp only [if_pos hverify, Option.map_some, Option.getD_some]
      generalize uamRetention s ip stateid (atoi arg) = result
      rcases result with ⟨s', _ | _⟩ <;> rfl
    · simp only [if_neg hverify, Option.map_some, Option.getD_some, uamRetention]

theorem procEvent_up {r : UamEvent} (h : uamCommand r.event = some .up) :
    procEvent cfg now s r = procUp cfg now s r.ip r.stateid r.argv := by
  unfold procEvent
  rw [h]

theorem procEvent_down {r : UamEvent} (h : uamCommand r.event = some .down) :
    procEvent cfg now s r = procDown cfg now s r.ip r.stateid r.argv := by
  unfold procEvent
  rw [h]

theorem procEvent_status {r : UamEvent} (h : uamCommand r.event = some .status) :
    procEvent cfg now s r = procStatus cfg now s r.ip r.stateid := by
  unfold procEvent
  rw [h]

theorem procEvent_limits {r : UamEvent} (h : uamCommand r.event = some .limits) :
    procEvent cfg now s r = (s, procLimits s r.ip r.stateid) := by
  unfold procEvent
  rw [h]

/-- **A request is one operation of the controller**, or it leaves the controller alone. -/
theorem exec_procEvent (cfg : Config) (now : ℤ) (s : Controller) (r : UamEvent) :
    (procEvent cfg now s r).1 = ((procOp r).map fun op => exec cfg s ⟨now, op⟩).getD s := by
  unfold procEvent procOp
  cases uamCommand r.event with
  | none => rfl
  | some command =>
    cases command with
    | up => exact (procUp_eq r.argv).1
    | down => exact (procDown_eq r.argv).1
    | status => exact procStatus_fst
    | retention =>
      dsimp only
      rw [procRetention_fst, Option.map_map]
      rfl
    | limits => rfl
    | current => rfl
    | peak => rfl
    | outward => rfl
    | inward => rfl

end Operations

/-! ## The strings of an answer -/

theorem nul_notMem_argLoop {plaintext : List UInt8} {rc slots p : ℕ} {arg : List UInt8}
    (h : arg ∈ (argLoop plaintext rc slots p).1) : 0 ∉ arg := by
  induction slots generalizing p with
  | zero =>
    rw [argLoop] at h
    split at h <;> cases h
  | succ slots ih =>
    rw [argLoop] at h
    split at h
    · rcases List.mem_cons.1 h with rfl | h
      · intro hnul
        simpa using List.mem_takeWhile_imp hnul
      · exact ih h
    · cases h

section Answers

variable {cfg : Config} {now : ℤ} {behind datagram : List UInt8} {srv : UamServer}
  {r : UamEvent} {v : UamVerdict}

/-- What a served datagram comes to: its strings have no NUL, and the verdict is on the request in
them. -/
theorem uamProc_served (h : (uamProc cfg now behind srv datagram).2 = some (r, v)) :
    (∃ argv : List (List UInt8), (∀ arg ∈ argv, 0 ∉ arg) ∧ uamEvent behind argv = some r) ∧
      procEvent cfg now srv.ctl r = ((uamProc cfg now behind srv datagram).1.ctl, v) := by
  obtain ⟨srv', hsrv'⟩ : ∃ srv', uamProc cfg now behind srv datagram = (srv', some (r, v)) :=
    ⟨_, Prod.ext rfl h⟩
  rw [hsrv']
  clear h
  unfold uamProc at hsrv'
  dsimp only at hsrv'
  split at hsrv'
  · cases hsrv'
  · have hargv : ∀ arg ∈ (uamParseMsg srv.plaintext
        (datagram.take (SW_UAM_MSG_SIZE - 1))).2.1, 0 ∉ arg := by
      intro arg harg
      unfold uamParseMsg at harg
      split at harg
      · cases harg
      · exact nul_notMem_argLoop harg
    generalize uamParseMsg srv.plaintext (datagram.take (SW_UAM_MSG_SIZE - 1)) = parsed
      at hsrv' hargv
    obtain ⟨plaintext, argv, rc⟩ := parsed
    dsimp only at hsrv' hargv
    by_cases hrc : rc = -1
    · simp [hrc] at hsrv'
    · rw [if_neg hrc] at hsrv'
      cases hr : uamEvent behind argv with
      | none => simp [hr] at hsrv'
      | some r' =>
        simp only [hr, Prod.mk.injEq, Option.some.injEq] at hsrv'
        obtain ⟨rfl, rfl, rfl⟩ := hsrv'
        exact ⟨⟨argv, hargv, hr⟩, rfl⟩

/-- A datagram that is not served leaves the tables alone. -/
theorem uamProc_unserved (h : (uamProc cfg now behind srv datagram).2 = none) :
    (uamProc cfg now behind srv datagram).1.ctl = srv.ctl := by
  unfold uamProc at h ⊢
  dsimp only at h ⊢
  split
  · rfl
  · rename_i hsize
    rw [if_neg hsize] at h
    generalize uamParseMsg srv.plaintext (datagram.take (SW_UAM_MSG_SIZE - 1)) = parsed at h ⊢
    obtain ⟨plaintext, argv, rc⟩ := parsed
    dsimp only at h ⊢
    split
    · rfl
    · rename_i r hr
      rw [hr] at h
      cases h

theorem nul_notMem_str (s : List UInt8) : 0 ∉ str s := by
  intro h
  simpa using List.mem_takeWhile_imp h

/-- The strings of a request. -/
structure UamEvent.NulFree (r : UamEvent) : Prop where
  serial : ∀ serial ∈ r.serial, 0 ∉ serial
  argv : ∀ idx, ∀ arg ∈ r.argv idx, 0 ∉ arg

theorem nulFree_uamEvent {argv : List (List UInt8)} (hargv : ∀ arg ∈ argv, 0 ∉ arg)
    (h : uamEvent behind argv = some r) : r.NulFree := by
  -- the entries of `r.argv` are some of the vector
  have hpart : ∀ {event host : List UInt8} {args : List (List UInt8)} {idx : ℕ} {arg : List UInt8},
      (event :: host :: args) ⊆ argv → arg ∈ (event :: host :: args)[idx]? → 0 ∉ arg :=
    fun hsub harg => hargv _ (hsub (List.mem_of_getElem? harg))
  unfold uamEvent at h
  split at h
  · obtain rfl := Option.some.inj h
    refine ⟨?_, fun idx arg harg => hpart (by simp) harg⟩
    rintro _ ⟨⟩
    unfold serialText
    split
    · exact hargv _ List.mem_cons_self
    · intro hnul
      rcases List.mem_append.1 hnul with hnul | hnul
      · exact hargv _ List.mem_cons_self (List.mem_of_mem_take hnul)
      · exact nul_notMem_str behind hnul
  · obtain rfl := Option.some.inj h
    exact ⟨by simp, fun idx arg harg => hpart (List.Subset.refl _) harg⟩
  · cases h

/-- What stands behind the address in an answer. -/
theorem nul_notMem_args (cfg : Config) (now : ℤ) (s : Controller) (r : UamEvent) :
    ∀ arg ∈ (procEvent cfg now s r).2.args, 0 ∉ arg := by
  have her : ∀ message stateid, ∀ arg ∈ (UamVerdict.er message stateid).args, 0 ∉ arg := by
    intro message stateid arg harg
    obtain rfl := List.mem_singleton.1 harg
    exact nul_notMem_toOctets message
  have hnumbers : ∀ n : UInt64, 0 ∉ lluText n := fun n => nul_notMem_numeral _
  have htimes : ∀ time, 0 ∉ uText time := fun time => nul_notMem_numeral _
  have hlong : ∀ time, 0 ∉ luText time := fun time => nul_notMem_numeral _
  have hsigned : ∀ time, 0 ∉ dText time := fun time => nul_notMem_signedNumeral _
  have hports : ∀ port, 0 ∉ portText port := fun port => nul_notMem_numeral _
  unfold procEvent
  cases uamCommand r.event with
  | none => exact her _ _
  | some command =>
    cases command with
    | up =>
      unfold procUp
      dsimp only
      split
      · split
        · exact her _ _
        · simp
      · exact her _ _
    | down =>
      unfold procDown
      dsimp only
      split
      · split
        · exact her _ _
        · simp
      · exact her _ _
    | status =>
      unfold procStatus
      dsimp only
      split
      · exact her _ _
      · intro arg harg
        simp only [List.cons_append, List.nil_append, List.mem_cons, Option.mem_toList,
          Option.map_eq_some_iff] at harg
        rcases harg with rfl | rfl | rfl | rfl | ⟨context, -, rfl⟩
        · split <;> exact nul_notMem_toOctets _
        · exact nul_notMem_numeral _
        · exact nul_notMem_toOctets _
        · exact hsigned _
        · exact nul_notMem_toOctets _
    | limits =>
      unfold procLimits
      dsimp only
      split
      · exact her _ _
      · simp [limitsText, hnumbers, htimes]
    | current =>
      unfold procCurrent
      dsimp only
      split
      · exact her _ _
      · simp [hnumbers, htimes, hsigned]
    | peak =>
      unfold procPeak
      dsimp only
      split
      · exact her _ _
      · simp [hnumbers]
    | outward =>
      unfold procOutward
      dsimp only
      split
      · exact her _ _
      · split
        · simp [hports, nul_notMem_inetNtoa]
        · exact her _ _
    | inward =>
      unfold procInward
      dsimp only
      split
      · exact her _ _
      · split
        · exact her _ _
        · split
          · exact her _ _
          · simp [hports, nul_notMem_inetNtoa]
    | retention =>
      have hretention : ∀ (s : Controller) (ip : UInt32), ∀ arg ∈ retentionText s ip, 0 ∉ arg := by
        intro s ip arg harg
        obtain ⟨e, -, rfl⟩ := List.mem_map.1 harg
        exact hlong _
      unfold procRetention
      dsimp only
      split
      · split
        · exact hretention _ _
        · exact her _ _
      · split
        · split
          · exact her _ _
          · exact hretention _ _
        · exact her _ _

/-- **An answer is what its receiver finds**, whatever the receiver's buffer holds, unless it is too
long for the parser. -/
theorem uamParseMsg_uamAnswer (h : (uamProc cfg now behind srv datagram).2 = some (r, v))
    {reportErrors : Bool} {msg : List UInt8} (hmsg : uamAnswer reportErrors r v = some msg)
    (hshort : msg.length < SW_UAM_MSG_SIZE - 1) (buffer : Plaintext) :
    (uamParseMsg buffer msg).2 = (answerArgv r v, 0) := by
  obtain ⟨⟨argv, hargv, hr⟩, hproc⟩ := uamProc_served h
  have hfree := nulFree_uamEvent hargv hr
  have hargs : ∀ arg ∈ v.args, 0 ∉ arg := by
    have := nul_notMem_args cfg now srv.ctl r
    rwa [hproc] at this
  have hnul : ∀ arg ∈ answerArgv r v, 0 ∉ arg := by
    intro arg harg
    unfold answerArgv at harg
    rcases List.mem_append.1 harg with harg | harg
    · cases hserial : r.serial with
      | none =>
        rw [hserial] at harg
        cases harg
      | some serial =>
        rw [hserial, Option.elim_some] at harg
        rcases List.mem_cons.1 harg with rfl | harg
        · exact hfree.serial _ hserial
        · obtain rfl := List.mem_singleton.1 harg
          exact nul_notMem_numeral _
    · rcases List.mem_cons.1 harg with rfl | harg
      · split <;> exact nul_notMem_toOctets _
      · rcases List.mem_cons.1 harg with rfl | harg
        · exact hfree.argv 1 _ rfl
        · exact hargs _ harg
  unfold uamAnswer at hmsg
  split at hmsg
  · exact uamParseMsg_uamBuildMsg hnul hmsg hshort
  · cases hmsg

end Answers

end Sweetspot
