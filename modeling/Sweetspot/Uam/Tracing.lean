import Sweetspot.Session.EndpointCalls
import Sweetspot.Uam.Limits

/-!
# From a public port back to the user

An `OU` tells the public address of a user and the range of ports its UDP packets leave from.  An
`IN` asks, perhaps much later, whose a public address and port are.  In between sessions close and
open again, packets are given ports, and other users get endpoints.

* `memberRun_serverExec`: the endpoint tables of the server are those after a run of their calls.
* `Paired`: an address has its public address in its entry of each table or in none.
* `eq_of_covers`: ranges behind one public address do not overlap.
* `tracing_exact`: a port an `OU` told of leads back to the user or to nobody, and to the user for
  as long as there are endpoints.
-/

namespace Sweetspot

open Controller CText NulString

/-! ## The tables of the server -/

section Server

variable {cfg : Config} {nat : EndpointConfig} (hnat : cfg.nat = some nat)
include hnat

/-- **Whatever happens to the server is a run of the endpoint calls.** -/
theorem memberRun_serverExec (srv : UamServer) (ev : ServerEvent) :
    MemberRun cfg nat srv.ctl.endpoints (serverExec cfg srv ev).ctl.endpoints := by
  cases hserved : served cfg srv ev with
  | none =>
    obtain ⟨now, op⟩ := ev
    cases op with
    | datagram behind octets =>
      refine .of_eq (congrArg Controller.endpoints ?_)
      exact uamProc_unserved hserved
    | chore chore => exact memberRun_exec hnat _
    | assign as bs prvIp =>
      simp only [serverExec, hnat, Option.map_some, Option.getD_some]
      exact .exec (.assign as bs prvIp) (by rintro _ ⟨⟩)
  | some answered =>
    obtain ⟨r, v⟩ := answered
    have hctl := exec_procEvent cfg ev.now srv.ctl r
    rw [ctl_serverExec_served hserved] at hctl
    dsimp only at hctl
    rw [hctl]
    cases procOp r with
    | none => exact .refl _
    | some op => exact memberRun_exec hnat _

theorem memberRun_run (srv : UamServer) (evs : List ServerEvent) :
    MemberRun cfg nat srv.ctl.endpoints (evs.foldl (serverExec cfg) srv).ctl.endpoints := by
  induction evs generalizing srv with
  | nil => exact .refl _
  | cons ev evs ih => exact (memberRun_serverExec hnat srv ev).trans (ih _)

end Server

/-! ## What holds of the endpoint tables -/

namespace Endpoints

/-- The public address of an address is in its entry of each table, or in none. -/
def Paired (e : Endpoints) : Prop :=
  ∀ a, e.ipGetpub a = (e.portEntry .udp a).map PortEntry.pubIp

theorem ipGetpub_assign {cfg : EndpointConfig} (as bs : Chain) (prvIp : UInt32) (e : Endpoints)
    (a : UInt32) : (e.exec cfg (.assign as bs prvIp)).ipGetpub a = e.ipGetpub a :=
  endpointAssign_invariant (P := fun e' => e'.ipGetpub a = e.ipGetpub a)
    (fun _ _ _ _ h => h) (fun _ _ _ _ _ h => h) (fun _ _ _ _ h => h) as bs prvIp e rfl

theorem paired_exec {cfg : EndpointConfig} {e : Endpoints} (op : EndpointOp) (h : Paired e) :
    Paired (e.exec cfg op) := by
  intro b
  cases op with
  | new a =>
    cases hnew : newPort cfg .udp a with
    | none =>
      rw [exec_new_refused hnew]
      exact h b
    | some x =>
      obtain ⟨ip, hip, rfl⟩ := Option.map_eq_some_iff.1 hnew
      rw [portEntry_new hnew]
      have hinserted : (e.exec cfg (.new a)).ipGetpub b =
          if b = a then some ip.pubIp else e.ipGetpub b := by
        rw [exec, endpointNew_eq e hip, ipGetpub, ipGetpub,
          KeyedTable.retrieve_insert_ite ipComparator_comp, ipNew_prvIp hip]
        by_cases hb : a = b
        · rw [if_pos hb, if_pos hb.symm, Option.map_some]
        · rw [if_neg hb, if_neg (Ne.symm hb)]
      rw [hinserted]
      by_cases hb : b = a
      · rw [if_pos hb, if_pos hb]
        rfl
      · rw [if_neg hb, if_neg hb]
        exact h b
  | del a =>
    rw [portEntry_del, exec, endpointDel, ipGetpub,
      KeyedTable.retrieve_delete_ite ipComparator_comp]
    by_cases hb : b = a
    · rw [if_pos hb, if_pos hb]
      rfl
    · rw [if_neg hb, if_neg hb]
      exact h b
  | assign as bs prvIp =>
    rw [portEntry_assign, ipGetpub_assign]
    exact h b

/-- **Ranges behind one public address do not overlap.** -/
theorem eq_of_covers {cfg : EndpointConfig} {k : ℕ} (h : Accepted cfg k)
    (hdisj : cfg.pubNs.Disjoint) {proto : PortProto} {a b : UInt32} {x y : PortEntry}
    (hx : newPort cfg proto a = some x) (hy : newPort cfg proto b = some y)
    (ha : checkIp cfg.prvNs a = 1) (hb : checkIp cfg.prvNs b = 1) (hip : x.pubIp = y.pubIp)
    {port : UInt16} (hxport : x.Covers port) (hyport : y.Covers port) : a = b := by
  have hid : x.id = y.id := by
    rw [((covers_iff h.divided hx port).1 hxport).1, ((covers_iff h.divided hy port).1 hyport).1]
  have hmod : (netsetIdx cfg.prvNs a).toNat % k = (netsetIdx cfg.prvNs b).toNat % k := by
    rw [← newPort_id h hx, ← newPort_id h hy, hid]
  obtain ⟨ipA, hipA, rfl⟩ := Option.map_eq_some_iff.1 hx
  obtain ⟨ipB, hipB, rfl⟩ := Option.map_eq_some_iff.1 hy
  refine h.eq_of_same_chunk hdisj ha hb hipA hipB ?_ hmod
  cases proto with
  | tcp => exact hip
  | udp => exact hip

/-- What the tables of the daemon are like. -/
structure Traced (cfg : EndpointConfig) (e : Endpoints) : Prop where
  placed : Placed cfg e
  ofMembers : OfMembers cfg e
  paired : Paired e

theorem traced_of_memberRun {cfg : Config} {nat : EndpointConfig} {e : Endpoints}
    (hprv : nat.prvNs = cfg.userNetworks) (h : MemberRun cfg nat empty e) : Traced nat e := by
  obtain ⟨ops, hops, hrun⟩ := h
  refine hrun.invariant_of_guarded
    (G := fun _ op => ∀ a, op = EndpointOp.new a → checkIp nat.prvNs a = 1) (P := Traced nat)
    ?_ ?_ ?_
  · rintro e op _ rfl hop ⟨hplaced, hmembers, hpaired⟩
    exact ⟨placed_exec op hplaced, ofMembers_exec hop hmembers, paired_exec op hpaired⟩
  · intro pre op post _ hops' _
    rw [hprv]
    exact hops op (by simp [hops'])
  · refine ⟨placed_empty nat, ?_, ?_⟩
    · intro proto b y hy
      cases proto <;> cases hy
    · intro a
      rfl

end Endpoints

/-! ## What is told -/

section Told

variable {cfg : Config} {nat : EndpointConfig} {s : Controller} {ip : UInt32} {stateid : ℤ}

theorem numeral_injective {m n : ℕ} (h : numeral m = numeral n) : m = n := by
  have hm := @readDigits_numeral m [] rfl
  have hn := @readDigits_numeral n [] rfl
  rw [h, hn] at hm
  exact (congrArg Prod.fst hm).symm

theorem procOutward_eq (hnat : cfg.nat = some nat) (hpaired : s.endpoints.Paired) :
    procOutward cfg s ip stateid = match s.endpoints.portEntry .udp ip with
      | none => .er "getting-public-port-failure" stateid
      | some x => ⟨true, [inetNtoa x.pubIp, portText x.lport, portText x.hport],
          sessionStateid s ip stateid⟩ := by
  have hpub := hpaired ip
  rw [Endpoints.portEntry] at hpub ⊢
  simp only [procOutward, hnat, Endpoints.udpGetpub]
  cases hu : s.endpoints.udp.retrieve ip with
  | none =>
    rw [hu] at hpub
    simp only [hpub, Option.map_none]
  | some u =>
    rw [hu] at hpub
    simp only [hpub, Option.map_some]
    rfl

/-- An `OU` is answered `OK` just if the address has its entries. -/
theorem procOutward_ok_iff (hnat : cfg.nat = some nat) (hpaired : s.endpoints.Paired) :
    (procOutward cfg s ip stateid).ok = true ↔ (s.endpoints.portEntry .udp ip).isSome := by
  rw [procOutward_eq hnat hpaired]
  cases s.endpoints.portEntry .udp ip <;> simp [UamVerdict.er]

/-- An `IN` of a port that fits. -/
theorem procInward_eq (hnat : cfg.nat = some nat) {argv : ℕ → Option (List UInt8)} {p : ℕ}
    (hp : p < 2 ^ 16) (hport : argv 2 = some (numeral p)) :
    procInward cfg s ip stateid argv =
      match s.endpoints.getprv nat .udp ip (UInt16.ofNat p) with
      | none => .er "getting-private-port-failure" stateid
      | some prvIp => ⟨true, [numeral p, inetNtoa prvIp], sessionStateid s prvIp stateid⟩ := by
  have hatoi : atoi (numeral p) = p := by
    rw [atoi, strtol_numeral (by omega), int32]
    exact Int.bmod_eq_of_le_mul_two (by omega) (by omega)
  have hport' : UInt16.ofInt (atoi (numeral p)) = UInt16.ofNat p := by
    rw [hatoi, ← UInt16.toNat_inj, uint16_ofInt_toNat hp, UInt16.toNat_ofNat_of_lt' hp]
  have htext : portText (UInt16.ofNat p) = numeral p := by
    rw [portText, UInt16.toNat_ofNat_of_lt' hp]
  simp only [procInward, hport, hnat, hport', htext]
  rfl

end Told

/-- **A port leads back to its user.**  Let an `OU` for an address be answered `OK`.  Whatever
datagrams arrive and whatever the daemon does from then on: an `IN` of the public address it told
and of a port in the range it told is answered `OK` just if an `OU` for the address would be, and
then it tells this address. -/
theorem tracing_exact (pubNs : Netset) (hdisj : pubNs.Disjoint) (cfg : Config)
    (hprv : cfg.userNetworks.addresses.length < 2 ^ 24) (hpub : pubNs.addresses.length < 2 ^ 24)
    (nat : EndpointConfig) (hnat : cfg.nat = some nat)
    (hcreate : endpointCreate pubNs cfg.userNetworks = some nat) (evs evs' : List ServerEvent)
    {now now' : ℤ} {behind behind' datagram datagram' : List UInt8} {r r' : UamEvent}
    {v v' : UamVerdict}
    (hout : (uamProc cfg now behind (evs.foldl (serverExec cfg) .init) datagram).2 = some (r, v))
    (houtward : uamCommand r.event = some .outward) (hok : v.ok = true)
    (hin : (uamProc cfg now' behind' ((evs ++ ⟨now, .datagram behind datagram⟩ :: evs').foldl
      (serverExec cfg) .init) datagram').2 = some (r', v'))
    (hinward : uamCommand r'.event = some .inward) (hhost : v.args[0]? = some r'.host)
    {low high port : ℕ} (hlow : v.args[1]? = some (numeral low))
    (hhigh : v.args[2]? = some (numeral high)) (hport : r'.argv 2 = some (numeral port))
    (hle : low ≤ port ∧ port ≤ high) :
    (v'.ok = true ↔ (procOutward cfg ((evs ++ ⟨now, .datagram behind datagram⟩ :: evs').foldl
        (serverExec cfg) .init).ctl r.ip 0).ok = true) ∧
      (v'.ok = true → v'.args = [numeral port, inetNtoa r.ip]) := by
  obtain ⟨hprvNs, hpubNs, haccepted⟩ := accepted_of_endpointCreate hprv hpub hcreate
  -- what the `OU` told is the entry made for the address
  have htraced := Endpoints.traced_of_memberRun hprvNs (memberRun_run hnat .init evs)
  have hv : procOutward cfg (evs.foldl (serverExec cfg) .init).ctl r.ip r.stateid = v := by
    have hproc := (uamProc_served hout).2
    unfold procEvent at hproc
    rw [houtward] at hproc
    exact congrArg Prod.snd hproc
  rw [procOutward_eq hnat htraced.paired] at hv
  obtain ⟨x, hx⟩ : ∃ x, (evs.foldl (serverExec cfg) .init).ctl.endpoints.portEntry .udp r.ip =
      some x := by
    rw [← Option.isSome_iff_exists, ← procOutward_ok_iff hnat htraced.paired,
      procOutward_eq hnat htraced.paired, hv]
    exact hok
  rw [hx] at hv
  subst hv
  have hhost' : r'.ip = x.pubIp := by
    rw [UamEvent.ip, ← Option.some.inj hhost, inetAddr_inetNtoa]
  have hplaced := htraced.placed .udp r.ip x hx
  have hmember := htraced.ofMembers .udp r.ip x hx
  -- the port is one of those
  have hlow' : x.lport.toNat = low := numeral_injective (Option.some.inj hlow)
  have hhigh' : x.hport.toNat = high := numeral_injective (Option.some.inj hhigh)
  have hlt : port < 2 ^ 16 := by
    have := x.hport.toNat_lt
    omega
  have hcovers : x.Covers (UInt16.ofNat port) := by
    rw [PortEntry.Covers, UInt16.le_iff_toNat_le, UInt16.le_iff_toNat_le,
      UInt16.toNat_ofNat_of_lt' hlt]
    omega
  have hrange := ((covers_iff haccepted.divided hplaced _).1 hcovers).2
  -- and who is asked for it later is told who has it
  generalize hsrv : (evs ++ ⟨now, .datagram behind datagram⟩ :: evs').foldl (serverExec cfg)
    .init = srv at hin ⊢
  have hrun := memberRun_run hnat .init (evs ++ ⟨now, .datagram behind datagram⟩ :: evs')
  rw [hsrv] at hrun
  have htraced' := Endpoints.traced_of_memberRun hprvNs hrun
  obtain ⟨ops, hops, hrun⟩ := hrun
  have hexact : Endpoints.LookupExact nat .udp x.pubIp (UInt16.ofNat port) srv.ctl.endpoints :=
    Endpoints.lookupExact_of_disjoint hdisj hprv hpub hcreate hops hrun hrange
  have hv' : procInward cfg srv.ctl r'.ip r'.stateid r'.argv = v' := by
    have hproc := (uamProc_served hin).2
    unfold procEvent at hproc
    rw [hinward] at hproc
    exact congrArg Prod.snd hproc
  rw [procInward_eq hnat hlt hport, hhost'] at hv'
  rw [procOutward_ok_iff hnat htraced'.paired]
  cases hfound : srv.ctl.endpoints.getprv nat .udp x.pubIp (UInt16.ofNat port) with
  | none =>
    rw [hfound] at hv'
    subst hv'
    refine ⟨iff_of_false (by simp [UamVerdict.er]) ?_, by simp [UamVerdict.er]⟩
    intro hsome
    obtain ⟨y, hy⟩ := Option.isSome_iff_exists.1 hsome
    obtain rfl := Option.some.inj (hplaced.symm.trans (htraced'.placed .udp r.ip y hy))
    rw [(hexact r.ip).2 ⟨x, hy, rfl, hcovers⟩] at hfound
    cases hfound
  | some b =>
    obtain ⟨y, hy, hip, hcovers'⟩ := (hexact b).1 hfound
    obtain rfl : r.ip = b :=
      Endpoints.eq_of_covers haccepted (hpubNs ▸ hdisj) hplaced (htraced'.placed .udp b y hy)
        hmember (htraced'.ofMembers .udp b y hy) hip.symm hcovers hcovers'
    rw [hfound] at hv'
    subst hv'
    exact ⟨iff_of_true rfl (by rw [hy]; rfl), fun _ => rfl⟩

/-- Four users behind two public addresses. -/
def fourUsersConfig : Config :=
  { oneUserConfig with userNetworks := fourHosts, nat := endpointCreate twoPublic fourHosts }

/-- `OU 10.0.0.1`. -/
def outwardDatagram : List UInt8 := joined (["OU", "10.0.0.1"].map toOctets)

/-- `IN 192.0.2.1 1030`. -/
def inwardDatagram : List UInt8 := joined (["IN", "192.0.2.1", "1030"].map toOctets)

/-- A packet of the first user arrives. -/
def firstUserSeen : List ServerEvent := [⟨0, .chore (.lookup 0x0a000001)⟩]

/-- A packet of the second arrives. -/
def secondUserSeen : List ServerEvent := [⟨2, .chore (.lookup 0x0a000002)⟩]

theorem tracing_exact_firstUser :
    (uamProc fourUsersConfig 3 [] ((firstUserSeen ++ ⟨1, .datagram [] outwardDatagram⟩ ::
      secondUserSeen).foldl (serverExec fourUsersConfig) .init) inwardDatagram).2.map
        (fun x => x.2.args) = some [numeral 1030, inetNtoa (inetAddr (toOctets "10.0.0.1"))] := by
  obtain ⟨nat, hnat⟩ := Option.isSome_iff_exists.1
    (show (endpointCreate twoPublic fourHosts).isSome by decide +kernel)
  have hout : (uamProc fourUsersConfig 1 [] (firstUserSeen.foldl (serverExec fourUsersConfig)
      .init) outwardDatagram).2 = some (⟨none, 0, toOctets "OU", toOctets "10.0.0.1", []⟩,
        ⟨true, ["192.0.2.1", "1024", "33279"].map toOctets, 0⟩) := by
    decide +kernel
  have hin : (uamProc fourUsersConfig 3 [] ((firstUserSeen ++ ⟨1, .datagram [] outwardDatagram⟩ ::
      secondUserSeen).foldl (serverExec fourUsersConfig) .init) inwardDatagram).2 =
        some (⟨none, 0, toOctets "IN", toOctets "192.0.2.1", [toOctets "1030"]⟩,
          ⟨true, ["1030", "10.0.0.1"].map toOctets, 0⟩) := by
    decide +kernel
  have hlow : toOctets "1024" = numeral 1024 := by decide +kernel
  have hhigh : toOctets "33279" = numeral 33279 := by decide +kernel
  have hport : toOctets "1030" = numeral 1030 := by decide +kernel
  have htraced := (tracing_exact twoPublic (by simp [Netset.Disjoint, twoPublic]) fourUsersConfig
    (by decide) (by decide) nat hnat hnat firstUserSeen secondUserSeen hout (by decide) rfl hin
    (by decide) rfl (congrArg some hlow) (congrArg some hhigh) (congrArg some hport)
    (by decide)).2 rfl
  exact (congrArg (Option.map fun x => x.2.args) hin).trans (congrArg some htraced)

end Sweetspot
