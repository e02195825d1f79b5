import Sweetspot.Snat.Lookup

/-!
# Source-NAT endpoints: creations that fail and are taken back

The handlers make their entries one after the other, and each of them may run out of memory.  The
caller takes a creation that failed back by the ordinary deletion.

* `Allocs`, `endpointNewAlloc`: the creation with allocations that may fail.
* `endpointDel_endpointNewAlloc`: deletion leaves no trace of a creation that failed, unless another
  address had the place in an index that it got to.
* `Complete`, `Distinct`, `Tidy`: every entry is found through the index; nobody has the place an
  address would get; the indices name exactly the owners.  `Tidy.new`, `Tidy.del` keep the last,
  `Tidy.distinct_of_complete` and `distinct_udp_of_complete` say that no other creation does.
-/

namespace Sweetspot

/-- Which allocations succeed when a session is opened. -/
structure Allocs where
  session : Bool
  ip : Bool
  udp : Bool
  tcp : Bool
  icmp : Bool
  deriving DecidableEq, Repr

def Allocs.all : Allocs := ⟨true, true, true, true, true⟩

namespace Endpoints

/-- `sw_nat_src_endpoint_new`, also when an allocation fails; `false` is the return value -1. -/
def endpointNewAlloc (cfg : EndpointConfig) (alloc : Allocs) (e : Endpoints) (prvIp : UInt32) :
    Endpoints × Bool :=
  if !alloc.ip then (e, false)
  else
    match ipNew cfg prvIp with
    | none => (e, false)
    | some ip =>
      let e := { e with ip := e.ip.insert ip }
      if !alloc.udp then (e, false)
      else
        match e.ipGetpub prvIp with
        | none => (e, false)
        | some pubIp =>
          let udp := udpNew cfg prvIp pubIp
          let e := { e with
            udp := e.udp.insert udp, udpId := e.udpId.insert ⟨udp.pubIp, udp.id, prvIp⟩ }
          if !alloc.tcp then (e, false)
          else
            match e.ipGetpub prvIp with
            | none => (e, false)
            | some pubIp =>
              let tcp := tcpNew cfg prvIp pubIp
              let e := { e with
                tcp := e.tcp.insert tcp, tcpId := e.tcpId.insert ⟨tcp.pubIp, tcp.id, prvIp⟩ }
              if !alloc.icmp then (e, false)
              else ({ e with icmp := e.icmp.insert (icmpNew cfg prvIp) }, true)

section Alloc

variable {cfg : EndpointConfig} {alloc : Allocs} {e : Endpoints} {a : UInt32} {ip : EndpointIp}

/-- How far the creation gets. -/
theorem endpointNewAlloc_eq (h : ipNew cfg a = some ip) :
    e.endpointNewAlloc cfg alloc a =
      if !alloc.ip then (e, false)
      else if !alloc.udp then ({ e with ip := e.ip.insert ip }, false)
      else if !alloc.tcp then
        ({ e with
            ip := e.ip.insert ip
            udp := e.udp.insert (udpNew cfg a ip.pubIp)
            udpId := e.udpId.insert ⟨ip.pubIp, (udpNew cfg a ip.pubIp).id, a⟩ }, false)
      else if !alloc.icmp then
        ({ e with
            ip := e.ip.insert ip
            udp := e.udp.insert (udpNew cfg a ip.pubIp)
            udpId := e.udpId.insert ⟨ip.pubIp, (udpNew cfg a ip.pubIp).id, a⟩
            tcp := e.tcp.insert (tcpNew cfg a ip.pubIp)
            tcpId := e.tcpId.insert ⟨ip.pubIp, (tcpNew cfg a ip.pubIp).id, a⟩ }, false)
      else ((e.endpointNew cfg a).1, true) := by
  have hip := ipNew_prvIp h
  rw [endpointNew_eq e h]
  simp only [endpointNewAlloc, h]
  rw [ipGetpub_insert hip rfl]
  simp only
  rw [ipGetpub_insert hip rfl]
  rfl

theorem endpointNewAlloc_refused (h : ipNew cfg a = none) :
    e.endpointNewAlloc cfg alloc a = (e, false) := by
  rw [endpointNewAlloc, h]
  split <;> rfl

/-- A creation that succeeds is `endpointNew`. -/
theorem endpointNewAlloc_succeeded (h : (e.endpointNewAlloc cfg alloc a).2 = true) :
    (ipNew cfg a).isSome ∧ alloc.ip = true ∧ alloc.udp = true ∧
      (e.endpointNewAlloc cfg alloc a).1 = (e.endpointNew cfg a).1 := by
  cases hip : ipNew cfg a with
  | none =>
    rw [endpointNewAlloc_refused hip] at h
    cases h
  | some ip =>
    rw [endpointNewAlloc_eq hip] at h ⊢
    split_ifs at h ⊢ with h₁ h₂
    exact ⟨rfl, by simpa using h₁, by simpa using h₂, rfl⟩

/-- With memory enough it is `endpointNew`. -/
theorem endpointNewAlloc_all (e : Endpoints) (a : UInt32) :
    e.endpointNewAlloc cfg .all a = e.endpointNew cfg a := by
  cases h : ipNew cfg a with
  | none => simp [endpointNewAlloc, endpointNew, h, Allocs.all]
  | some ip =>
    rw [endpointNewAlloc_eq h, endpointNew_eq e h]
    rfl

/-! ## Taking a creation back -/

/-- Deleting entries that are not there changes nothing. -/
theorem endpointDel_of_absent (h : e.entries a = .none) : e.endpointDel a = e := by
  have hip : e.ip.retrieve a = none := congrArg Entries.ip h
  have hudp : e.udp.retrieve a = none := congrArg Entries.udp h
  have htcp : e.tcp.retrieve a = none := congrArg Entries.tcp h
  have hicmp : e.icmp.retrieve a = none := congrArg Entries.icmp h
  rw [endpointDel, KeyedTable.delete_of_free hip, KeyedTable.delete_of_free hudp,
    KeyedTable.delete_of_free htcp, KeyedTable.delete_of_free hicmp, hudp, htcp]

/-- **A creation that fails is taken back** without a trace, unless the places in the indices that
it got to were taken. -/
theorem endpointDel_endpointNewAlloc (habsent : e.entries a = .none)
    (hfail : (e.endpointNewAlloc cfg alloc a).2 = false)
    (hfree : alloc.ip → alloc.udp → ∀ proto x, newPort cfg proto a = some x →
      (e.portIndex proto).retrieve (x.pubIp, x.id) = none) :
    (e.endpointNewAlloc cfg alloc a).1.endpointDel a = e := by
  cases h : ipNew cfg a with
  | none =>
    rw [endpointNewAlloc_refused h]
    exact endpointDel_of_absent habsent
  | some ip =>
    have hkey := ipNew_prvIp h
    have hip : e.ip.retrieve ip.prvIp = none := hkey ▸ congrArg Entries.ip habsent
    have hudp : e.udp.retrieve a = none := congrArg Entries.udp habsent
    have htcp : e.tcp.retrieve a = none := congrArg Entries.tcp habsent
    have hicmp : e.icmp.retrieve a = none := congrArg Entries.icmp habsent
    -- what each handler inserts, its deletion finds again
    have hipBack : (e.ip.insert ip).delete a = e.ip := by
      have := KeyedTable.delete_insert_of_free hip
      rwa [hkey] at this
    have hudpBack : (e.udp.insert (udpNew cfg a ip.pubIp)).delete a = e.udp :=
      KeyedTable.delete_insert_of_free (r := udpNew cfg a ip.pubIp) hudp
    have htcpBack : (e.tcp.insert (tcpNew cfg a ip.pubIp)).delete a = e.tcp :=
      KeyedTable.delete_insert_of_free (r := tcpNew cfg a ip.pubIp) htcp
    have hudpFound : (e.udp.insert (udpNew cfg a ip.pubIp)).retrieve a =
        some (udpNew cfg a ip.pubIp) :=
      KeyedTable.retrieve_insert_of_comp ((ipComparator_comp _ _).2 rfl)
    have htcpFound : (e.tcp.insert (tcpNew cfg a ip.pubIp)).retrieve a =
        some (tcpNew cfg a ip.pubIp) :=
      KeyedTable.retrieve_insert_of_comp ((ipComparator_comp _ _).2 rfl)
    rw [endpointNewAlloc_eq h] at hfail ⊢
    split_ifs at hfail ⊢ with h₁ h₂ h₃ h₄
    · exact endpointDel_of_absent habsent
    · simp only [endpointDel, hipBack, hudp, htcp, KeyedTable.delete_of_free hudp,
        KeyedTable.delete_of_free htcp, KeyedTable.delete_of_free hicmp]
    · have hudpId := KeyedTable.delete_insert_of_free
        (r := (⟨ip.pubIp, (udpNew cfg a ip.pubIp).id, a⟩ : EndpointId))
        (hfree (by simpa using h₁) (by simpa using h₂) .udp _ (newPort_udp h))
      simp only [endpointDel, hipBack, hudpBack, hudpFound, htcp,
        KeyedTable.delete_of_free htcp, KeyedTable.delete_of_free hicmp]
      exact congrArg (Endpoints.mk _ _ · _ _ _) hudpId
    · have hudpId := KeyedTable.delete_insert_of_free
        (r := (⟨ip.pubIp, (udpNew cfg a ip.pubIp).id, a⟩ : EndpointId))
        (hfree (by simpa using h₁) (by simpa using h₂) .udp _ (newPort_udp h))
      have htcpId := KeyedTable.delete_insert_of_free
        (r := (⟨ip.pubIp, (tcpNew cfg a ip.pubIp).id, a⟩ : EndpointId))
        (hfree (by simpa using h₁) (by simpa using h₂) .tcp _ (newPort_tcp h))
      simp only [endpointDel, hipBack, hudpBack, hudpFound, htcpBack, htcpFound,
        KeyedTable.delete_of_free hicmp]
      exact congrArg₂ (Endpoints.mk _ _ · _ · _) hudpId htcpId

/-- Where such a place was taken, its holder is not found any more. -/
theorem portIndex_endpointDel_endpointNewAlloc (halloc : alloc.ip = true ∧ alloc.udp = true)
    {x : PortEntry} (hx : newPort cfg .udp a = some x) :
    (((e.endpointNewAlloc cfg alloc a).1.endpointDel a).portIndex .udp).retrieve (x.pubIp, x.id) =
      none ∧
    ∀ b, b ≠ a → ((e.endpointNewAlloc cfg alloc a).1.endpointDel a).portEntry .udp b =
      e.portEntry .udp b := by
  obtain ⟨ip, h, -⟩ := Option.map_eq_some_iff.1 hx
  obtain rfl := Option.some.inj ((newPort_udp h).symm.trans hx)
  have hudp : (e.endpointNewAlloc cfg alloc a).1.udp = e.udp.insert (udpNew cfg a ip.pubIp) := by
    rw [endpointNewAlloc_eq h, endpointNew_eq e h, halloc.1, halloc.2]
    rcases alloc with ⟨-, -, -, - | -, - | -⟩ <;> rfl
  have hentry : ∀ b, (e.endpointNewAlloc cfg alloc a).1.portEntry .udp b =
      if a = b then some (udpNew cfg a ip.pubIp).portEntry else e.portEntry .udp b := by
    intro b
    rw [portEntry, hudp, KeyedTable.retrieve_insert_ite ipComparator_comp]
    show Option.map _ (if a = b then _ else _) = _
    split <;> rfl
  constructor
  · have := @portIndex_del cfg (e.endpointNewAlloc cfg alloc a).1 a .udp
      ((udpNew cfg a ip.pubIp).portEntry.pubIp, (udpNew cfg a ip.pubIp).portEntry.id) _
      ((hentry a).trans (if_pos rfl))
    rw [if_pos rfl] at this
    exact this
  · intro b hb
    have := @portEntry_del cfg (e.endpointNewAlloc cfg alloc a).1 a b .udp
    rw [if_neg hb, hentry, if_neg hb.symm] at this
    exact this

/-- The other addresses keep their entries, however far the creation gets. -/
theorem entries_endpointNewAlloc_of_ne {b : UInt32} (hb : b ≠ a) :
    (e.endpointNewAlloc cfg alloc a).1.entries b = e.entries b := by
  cases h : ipNew cfg a with
  | none => rw [endpointNewAlloc_refused h]
  | some ip =>
    have hkey := ipNew_prvIp h
    have hnew := @entries_endpointNew cfg e a b (by rw [h]; rfl)
    rw [if_neg hb] at hnew
    rw [endpointNewAlloc_eq h]
    split_ifs
    · rfl
    · simp [entries, KeyedTable.retrieve_insert_ite, hkey, Ne.symm hb]
    · simp [entries, KeyedTable.retrieve_insert_ite, hkey, udpNew, Ne.symm hb]
    · simp [entries, KeyedTable.retrieve_insert_ite, hkey, udpNew, tcpNew, Ne.symm hb]
    · exact hnew

end Alloc

/-! ## Entries that are found again -/

/-- Every TCP and UDP entry is found under its public address and block. -/
def Complete (e : Endpoints) : Prop :=
  ∀ proto a x, e.portEntry proto a = some x →
    ∃ y, (e.portIndex proto).retrieve (x.pubIp, x.id) = some y ∧ y.prvIp = a

/-- Nobody else has an entry with the public address and the block that the address would get. -/
def Distinct (cfg : EndpointConfig) (e : Endpoints) (a : UInt32) : Prop :=
  ∀ proto x, newPort cfg proto a = some x → ∀ b y, e.portEntry proto b = some y →
    y.pubIp = x.pubIp → y.id = x.id → b = a

/-- Entries are as they were made, and the indices name exactly their owners. -/
structure Tidy (cfg : EndpointConfig) (e : Endpoints) : Prop where
  placed : Placed cfg e
  exact : ∀ proto k, (e.reverse proto).ExactAt (home cfg proto) k

section Tidy

variable {cfg : EndpointConfig} {alloc : Allocs} {e : Endpoints} {a : UInt32}

theorem complete_iff (hplaced : Placed cfg e) :
    e.Complete ↔ ∀ proto, (e.reverse proto).Complete (home cfg proto) := by
  refine forall_congr' fun proto => forall_congr' fun a => ?_
  rw [reverse_present, Option.isSome_iff_exists, forall_exists_index]
  refine forall_congr' fun x => forall_congr' fun hx => ?_
  rw [home_eq (hplaced proto a x hx), reverse_owner, Option.map_eq_some_iff]

theorem Tidy.complete (h : Tidy cfg e) : e.Complete :=
  (complete_iff h.placed).2 fun proto => ReverseIndex.complete_of_exactAt (h.exact proto)

theorem tidy_empty (cfg : EndpointConfig) : Tidy cfg empty where
  placed := placed_empty cfg
  exact proto k a := by
    refine iff_of_false ?_ ?_
    · cases proto <;> rintro ⟨⟩
    · cases proto <;> rintro ⟨⟨⟩, -⟩

theorem Tidy.del (h : Tidy cfg e) (a : UInt32) : Tidy cfg (e.endpointDel a) where
  placed := placed_exec (.del a) h.placed
  exact proto k := by
    have hdel : (e.exec cfg (.del a)).reverse proto = (e.reverse proto).drop (home cfg proto) a :=
      reverse_del h.placed
    rw [exec] at hdel
    rw [hdel]
    exact ReverseIndex.exactAt_drop (h.exact proto k)

/-- Whether the creation keeps the indices exact depends on who is there already. -/
theorem Tidy.exactAt_new (h : Tidy cfg e) {proto : PortProto} {x : PortEntry}
    (hx : newPort cfg proto a = some x) (k : UInt32 × UInt16) :
    ((e.endpointNew cfg a).1.reverse proto).ExactAt (home cfg proto) k ↔
      ((x.pubIp, x.id) = k →
        ∀ b y, e.portEntry proto b = some y → (y.pubIp, y.id) = k → b = a) := by
  have hnew := @reverse_new cfg e a proto x hx
  rw [exec] at hnew
  rw [hnew, ReverseIndex.exactAt_put (h.exact proto k), home_eq hx]
  refine imp_congr_right fun _ => forall_congr' fun b => ?_
  rw [reverse_present, Option.isSome_iff_exists, forall_exists_index]
  refine forall_congr' fun y => forall_congr' fun hy => ?_
  rw [home_eq (h.placed proto b y hy)]

theorem Tidy.new (h : Tidy cfg e) (hnew : (ipNew cfg a).isSome) (hdistinct : Distinct cfg e a) :
    Tidy cfg (e.endpointNew cfg a).1 := by
  obtain ⟨ip, hip⟩ := Option.isSome_iff_exists.1 hnew
  refine ⟨placed_exec (.new a) h.placed, fun proto k => ?_⟩
  have hx : ∃ x, newPort cfg proto a = some x := by rw [newPort, hip]; exact ⟨_, rfl⟩
  obtain ⟨x, hx⟩ := hx
  rw [h.exactAt_new hx]
  rintro rfl b y hy hkey
  obtain ⟨hyip, hyid⟩ := Prod.mk.inj hkey
  exact hdistinct proto x hx b y hy hyip hyid

/-- If everybody is found after a creation, the place was free. -/
theorem Tidy.distinct_of_complete (h : Tidy cfg e)
    (hcomplete : (e.endpointNew cfg a).1.Complete) : Distinct cfg e a := by
  intro proto x hx b y hy hyip hyid
  have hplaced : Placed cfg (e.endpointNew cfg a).1 := placed_exec (.new a) h.placed
  have hput := (complete_iff hplaced).1 hcomplete proto
  have heq := @reverse_new cfg e a proto x hx
  rw [exec] at heq
  rw [heq] at hput
  refine ReverseIndex.alone_of_complete_put hput (by simp [hy]) ?_
  rw [home_eq hx, home_eq (h.placed proto b y hy), hyip, hyid]

/-- In a place that nobody has, nobody is found. -/
theorem Tidy.free (h : Tidy cfg e) (habsent : ∀ proto, e.portEntry proto a = none)
    (hdistinct : Distinct cfg e a) (proto : PortProto) {x : PortEntry}
    (hx : newPort cfg proto a = some x) :
    (e.portIndex proto).retrieve (x.pubIp, x.id) = none := by
  cases hfound : (e.portIndex proto).retrieve (x.pubIp, x.id) with
  | none => rfl
  | some y =>
    have howner : (e.reverse proto).owner (x.pubIp, x.id) = some y.prvIp := by
      rw [reverse_owner, hfound, Option.map_some]
    obtain ⟨hpresent, hhome⟩ := (h.exact proto _ _).1 howner
    obtain ⟨z, hz⟩ := Option.isSome_iff_exists.1 (reverse_present.1 hpresent)
    rw [home_eq (h.placed proto _ z hz)] at hhome
    obtain ⟨hzip, hzid⟩ := Prod.mk.inj hhome
    have hself := hdistinct proto x hx _ z hz hzip hzid
    rw [hself, habsent proto] at hz
    cases hz

/-- If everybody is found after a creation was taken back, its place was free, too. -/
theorem distinct_udp_of_complete (halloc : alloc.ip = true ∧ alloc.udp = true)
    (hcomplete : ((e.endpointNewAlloc cfg alloc a).1.endpointDel a).Complete) {x : PortEntry}
    (hx : newPort cfg .udp a = some x) (b : UInt32) (y : PortEntry)
    (hy : e.portEntry .udp b = some y) (hyip : y.pubIp = x.pubIp) (hyid : y.id = x.id) : b = a := by
  by_contra hne
  obtain ⟨hlost, hkept⟩ := @portIndex_endpointDel_endpointNewAlloc cfg alloc e a halloc x hx
  obtain ⟨z, hz, -⟩ := hcomplete .udp b y ((hkept b hne).trans hy)
  rw [hyip, hyid, hlost] at hz
  cases hz

/-- Both handlers divide the ports alike. -/
theorem newPort_tcp_eq_udp {k : ℕ} (hcfg : Divided cfg k) :
    newPort cfg .tcp a = newPort cfg .udp a := by
  have hchunk : cfg.tcp.chunk = cfg.udp.chunk :=
    UInt16.toNat_inj.1 (by rw [hcfg.tcpChunk.1, hcfg.udpChunk.1])
  have hports : cfg.tcp = cfg.udp := ChunkConfig.ext (by rw [hcfg.tcpK, hcfg.udpK]) hchunk
  cases h : ipNew cfg a with
  | none => simp only [newPort, h, Option.map_none]
  | some ip =>
    rw [newPort_tcp h, newPort_udp h, tcpNew, udpNew, hports]
    rfl

end Tidy

end Endpoints

end Sweetspot
