import Sweetspot.Lib.Cyclic
import Sweetspot.Lib.Run
import Sweetspot.Snat.Partition

/-!
# Source-NAT endpoints over time

The entries of private addresses come and go, and every assignment moves a cursor.

* `EndpointOp`, `exec`, `Step`: the calls on the endpoints, one at a time.
* `entries`: what the tables hold of one address, and what each call does to it.
* `CursorRange`: a range of ports or sequence numbers with the cursor in it.  `Walked` says that
  some values are those the cursor passes on its way.
* `endpointEmissions`: the values the handlers write, and for whom; `natValues_assign` finds them
  again in the chain an assignment returns.
* `endpointCursor_cycles`: the cursor of an address goes round its range, whatever happens to the
  others.
-/

namespace Sweetspot

/-- A call on the endpoints. -/
inductive EndpointOp
  | new (prvIp : UInt32)
  | del (prvIp : UInt32)
  | assign (as bs : Chain) (prvIp : UInt32)

/-- The call creates or deletes the entries of the address. -/
def EndpointOp.Renews (op : EndpointOp) (a : UInt32) : Prop := op = .new a ∨ op = .del a

/-- What the tables hold of one address. -/
structure Entries where
  ip : Option EndpointIp
  udp : Option EndpointUdp
  tcp : Option EndpointTcp
  icmp : Option EndpointIcmp

namespace Entries

def none : Entries := ⟨Option.none, Option.none, Option.none, Option.none⟩

/-- The entries of an address as they are made, if it is given a public address. -/
def new (cfg : EndpointConfig) (a : UInt32) : Entries :=
  match ipNew cfg a with
  | Option.none => none
  | some ip =>
    ⟨some ip, some (udpNew cfg a ip.pubIp), some (tcpNew cfg a ip.pubIp), some (icmpNew cfg a)⟩

end Entries

namespace Endpoints

/-- One call. -/
def exec (cfg : EndpointConfig) (e : Endpoints) : EndpointOp → Endpoints
  | .new prvIp => (e.endpointNew cfg prvIp).1
  | .del prvIp => e.endpointDel prvIp
  | .assign as bs prvIp => (endpointAssign as bs prvIp e).1

def Step (cfg : EndpointConfig) (e : Endpoints) (op : EndpointOp) (e' : Endpoints) : Prop :=
  e' = e.exec cfg op

def entries (e : Endpoints) (a : UInt32) : Entries :=
  ⟨e.ip.retrieve a, e.udp.retrieve a, e.tcp.retrieve a, e.icmp.retrieve a⟩

@[simp] theorem entries_empty (a : UInt32) : empty.entries a = .none := rfl

/-! ## Creation and deletion -/

section Upkeep

variable {cfg : EndpointConfig} {e : Endpoints} {a b : UInt32}

theorem endpointNew_refused (h : ipNew cfg a = none) : e.endpointNew cfg a = (e, false) := by
  rw [endpointNew, h]

theorem endpointNew_snd : (e.endpointNew cfg a).2 = (ipNew cfg a).isSome := by
  cases h : ipNew cfg a with
  | none => rw [endpointNew_refused h]; rfl
  | some ip => rw [endpointNew_eq e h]; rfl

theorem entries_endpointNew (h : (ipNew cfg a).isSome) :
    (e.endpointNew cfg a).1.entries b = if b = a then .new cfg a else e.entries b := by
  obtain ⟨ip, hip⟩ := Option.isSome_iff_exists.1 h
  have hkey := ipNew_prvIp hip
  rw [endpointNew_eq e hip]
  simp only [entries, KeyedTable.retrieve_insert_ite ipComparator_comp, hkey, udpNew, tcpNew,
    icmpNew]
  by_cases hb : b = a
  · simp [hb, Entries.new, hip, udpNew, tcpNew, icmpNew]
  · simp [hb, Ne.symm hb]

theorem entries_endpointDel :
    (e.endpointDel a).entries b = if b = a then .none else e.entries b := by
  simp only [entries, endpointDel, KeyedTable.retrieve_delete_ite ipComparator_comp]
  by_cases hb : b = a
  · simp [hb, Entries.none]
  · simp [hb]

end Upkeep

end Endpoints

/-! ## Ranges and their cursors -/

/-- The protocols whose handlers keep a cursor. -/
inductive NatProto
  | tcp | udp | icmp
  deriving DecidableEq, Repr

/-- A range with the cursor that goes round in it. -/
@[ext] structure CursorRange where
  low : UInt16
  high : UInt16
  cursor : UInt16
  deriving DecidableEq, Repr

namespace CursorRange

/-- The values of the range. -/
def values (r : CursorRange) : Set UInt16 := {v | r.low ≤ v ∧ v ≤ r.high}

/-- How many there are. -/
def size (r : CursorRange) : ℕ := r.high.toNat - r.low.toNat + 1

/-- The cursor moves on. -/
def next (r : CursorRange) : CursorRange := { r with cursor := cursorNext r.low r.high r.cursor }

/-- The cursor after `n` moves. -/
def advance (r : CursorRange) (n : ℕ) : CursorRange :=
  { r with cursor := (cursorNext r.low r.high)^[n] r.cursor }

theorem cursorNext_toNat {l h v : UInt16} (hv : l ≤ v ∧ v ≤ h) : (cursorNext l h v).toNat =
    if v.toNat = h.toNat then l.toNat else v.toNat + 1 := by
  obtain ⟨-, hv⟩ := hv
  rw [UInt16.le_iff_toNat_le] at hv
  have hh := h.toNat_lt
  unfold cursorNext
  by_cases hge : v ≥ h
  · have : h.toNat ≤ v.toNat := UInt16.le_iff_toNat_le.1 hge
    rw [if_pos hge, if_pos (by omega)]
  · have : ¬ h.toNat ≤ v.toNat := fun hle => hge (UInt16.le_iff_toNat_le.2 hle)
    rw [if_neg hge, if_neg (by omega), UInt16.toNat_add, UInt16.toNat_one]
    omega

/-- **A cursor goes round its range**, also when that ends at the last number there is. -/
def cyclic (l h : UInt16) : Cyclic (cursorNext l h) {v | l ≤ v ∧ v ≤ h}
    (h.toNat - l.toNat + 1) where
  position v := v.toNat - l.toNat
  position_lt := by
    rintro v ⟨hl, hh⟩
    rw [UInt16.le_iff_toNat_le] at hl hh
    omega
  position_inj := by
    rintro v w ⟨hv, -⟩ ⟨hw, -⟩ heq
    rw [UInt16.le_iff_toNat_le] at hv hw
    exact UInt16.toNat_inj.1 (by omega)
  step_mem := by
    rintro v hv
    have hnext := cursorNext_toNat hv
    obtain ⟨hl, hh⟩ := hv
    simp only [Set.mem_ofPred_eq, UInt16.le_iff_toNat_le] at hl hh ⊢
    split at hnext <;> omega
  position_step := by
    rintro v hv
    have hnext := cursorNext_toNat hv
    obtain ⟨hl, hh⟩ := hv
    rw [UInt16.le_iff_toNat_le] at hl hh
    rw [hnext]
    by_cases hend : v.toNat = h.toNat
    · rw [if_pos hend, hend, Nat.mod_self]
      omega
    · rw [if_neg hend, Nat.mod_eq_of_lt (by omega)]
      omega

/-- From one range to the other the cursor passes these values. -/
def Walked (r : CursorRange) (vs : List UInt16) (r' : CursorRange) : Prop :=
  vs = List.iterate (cursorNext r.low r.high) r.cursor vs.length ∧ r' = r.advance vs.length

theorem Walked.nil (r : CursorRange) : r.Walked [] r := ⟨rfl, rfl⟩

theorem Walked.cons {r r' : CursorRange} {vs : List UInt16} (h : r.next.Walked vs r') :
    r.Walked (r.cursor :: vs) r' := by
  obtain ⟨hvs, hr'⟩ := h
  exact ⟨congrArg (r.cursor :: ·) hvs, hr'⟩

theorem Walked.append {r r' r'' : CursorRange} {vs ws : List UInt16} (h : r.Walked vs r')
    (h' : r'.Walked ws r'') : r.Walked (vs ++ ws) r'' := by
  obtain ⟨hvs, rfl⟩ := h
  obtain ⟨hws, rfl⟩ := h'
  constructor
  · rw [List.length_append, List.iterate_add, ← hvs]
    exact congrArg (vs ++ ·) hws
  · ext : 1
    · rfl
    · rfl
    · show (cursorNext r.low r.high)^[ws.length] ((cursorNext r.low r.high)^[vs.length] r.cursor) =
        (cursorNext r.low r.high)^[(vs ++ ws).length] r.cursor
      rw [← Function.iterate_add_apply, List.length_append, Nat.add_comm]

end CursorRange

namespace EndpointUdp

/-- The range of UDP ports. -/
def range (e : EndpointUdp) : CursorRange := ⟨e.lport, e.hport, e.port⟩

end EndpointUdp

namespace EndpointTcp

/-- The range of TCP ports. -/
def range (e : EndpointTcp) : CursorRange := ⟨e.lport, e.hport, e.port⟩

end EndpointTcp

namespace EndpointIcmp

/-- The range of ICMP sequence numbers. -/
def range (e : EndpointIcmp) : CursorRange := ⟨e.lseq, e.hseq, e.seq⟩

end EndpointIcmp

/-- The range of a protocol. -/
def Entries.range (es : Entries) : NatProto → Option CursorRange
  | .tcp => es.tcp.map EndpointTcp.range
  | .udp => es.udp.map EndpointUdp.range
  | .icmp => es.icmp.map EndpointIcmp.range

/-! ## What the handlers write -/

/-- A value written for a private address. -/
structure Emission where
  proto : NatProto
  prvIp : UInt32
  value : UInt16
  deriving DecidableEq, Repr

/-- The values among them that are for one address. -/
def emittedFor (proto : NatProto) (a : UInt32) (es : List Emission) : List UInt16 :=
  (es.filter fun m => m.proto = proto ∧ m.prvIp = a).map Emission.value

theorem emittedFor_cons_self (proto : NatProto) (a : UInt32) (v : UInt16) (es : List Emission) :
    emittedFor proto a (⟨proto, a, v⟩ :: es) = v :: emittedFor proto a es := by
  simp [emittedFor]

theorem emittedFor_cons_of_ne {proto : NatProto} {a : UInt32} {m : Emission}
    (h : ¬ (m.proto = proto ∧ m.prvIp = a)) (es : List Emission) :
    emittedFor proto a (m :: es) = emittedFor proto a es := by
  rw [emittedFor, List.filter_cons_of_neg (by simpa using h), emittedFor]

theorem emittedFor_append (proto : NatProto) (a : UInt32) (es es' : List Emission) :
    emittedFor proto a (es ++ es') = emittedFor proto a es ++ emittedFor proto a es' := by
  rw [emittedFor, List.filter_append, List.map_append, emittedFor, emittedFor]

/-- The ports and sequence numbers that stand in a chain. -/
def natValues : Chain → List (NatProto × UInt16)
  | [] => []
  | .ip _ :: ns => natValues ns
  | .udp n :: ns => (.udp, n.port) :: natValues ns
  | .tcp n :: ns => (.tcp, n.port) :: natValues ns
  | .icmp n :: ns => (.icmp, n.seq) :: natValues ns

/-- The values the handlers write in one `sw_nat_src_endpoint_assign`, also when a later handler
gives up. -/
def endpointEmissions : Chain → Chain → UInt32 → Endpoints → List Emission
  | .ip _ :: as, .ip b :: bs, _, e =>
    match e.ip.retrieve b.ip with
    | none => []
    | some _ => endpointEmissions as bs b.ip e
  | .udp _ :: as, .udp _ :: bs, prvIp, e =>
    match e.udp.retrieve prvIp with
    | none => []
    | some ep =>
      ⟨.udp, prvIp, ep.port⟩ ::
        endpointEmissions as bs prvIp { e with udp := e.udp.insert ep.assigned }
  | .tcp _ :: as, .tcp b :: bs, prvIp, e =>
    match e.tcp.retrieve prvIp with
    | none => []
    | some ep =>
      ⟨.tcp, prvIp, ep.port⟩ ::
        endpointEmissions as bs prvIp { e with tcp := e.tcp.insert (ep.assigned b.port) }
  | .icmp _ :: as, .icmp _ :: bs, prvIp, e =>
    match e.icmp.retrieve prvIp with
    | none => []
    | some ep =>
      ⟨.icmp, prvIp, ep.seq⟩ ::
        endpointEmissions as bs prvIp { e with icmp := e.icmp.insert ep.assigned }
  | _, _, _, _ => []

namespace Endpoints

section Assign

variable {e : Endpoints} {a b : UInt32} {proto : NatProto} {r : CursorRange}

/-- The table of a handler shows the next cursor for the address it wrote for, and the old ones for
the others. -/
theorem range_insert_udp {ep : EndpointUdp} (h : e.udp.retrieve b = some ep) :
    (({ e with udp := e.udp.insert ep.assigned } : Endpoints).entries a).range proto =
      if proto = .udp ∧ b = a then some ep.range.next else (e.entries a).range proto := by
  have hkey : ep.prvIp = b := ip_key h
  cases proto with
  | udp =>
    simp only [entries, Entries.range, KeyedTable.retrieve_insert_ite ipComparator_comp,
      EndpointUdp.assigned, hkey]
    by_cases hb : b = a
    · simp [hb, EndpointUdp.range, CursorRange.next]
    · simp [hb]
  | tcp => simp [entries, Entries.range]
  | icmp => simp [entries, Entries.range]

theorem range_insert_tcp {ep : EndpointTcp} (h : e.tcp.retrieve b = some ep) (pubPort : UInt16) :
    (({ e with tcp := e.tcp.insert (ep.assigned pubPort) } : Endpoints).entries a).range proto =
      if proto = .tcp ∧ b = a then some ep.range.next else (e.entries a).range proto := by
  have hkey : ep.prvIp = b := ip_key h
  cases proto with
  | tcp =>
    simp only [entries, Entries.range, KeyedTable.retrieve_insert_ite ipComparator_comp,
      EndpointTcp.assigned, hkey]
    by_cases hb : b = a
    · simp [hb, EndpointTcp.range, CursorRange.next]
    · simp [hb]
  | udp => simp [entries, Entries.range]
  | icmp => simp [entries, Entries.range]

theorem range_insert_icmp {ep : EndpointIcmp} (h : e.icmp.retrieve b = some ep) :
    (({ e with icmp := e.icmp.insert ep.assigned } : Endpoints).entries a).range proto =
      if proto = .icmp ∧ b = a then some ep.range.next else (e.entries a).range proto := by
  have hkey : ep.prvIp = b := ip_key h
  cases proto with
  | icmp =>
    simp only [entries, Entries.range, KeyedTable.retrieve_insert_ite ipComparator_comp,
      EndpointIcmp.assigned, hkey]
    by_cases hb : b = a
    · simp [hb, EndpointIcmp.range, CursorRange.next]
    · simp [hb]
  | udp => simp [entries, Entries.range]
  | tcp => simp [entries, Entries.range]

/-- One value written, and what was written after it. -/
theorem walked_cons {e' e'' : Endpoints} {m : Emission} {r₀ : CursorRange} {es : List Emission}
    (hr : (e.entries a).range proto = some r)
    (hself : (e.entries m.prvIp).range m.proto = some r₀) (hvalue : m.value = r₀.cursor)
    (hstep : (e'.entries a).range proto =
      if proto = m.proto ∧ m.prvIp = a then some r₀.next else (e.entries a).range proto)
    (hrest : ∀ {r₁}, (e'.entries a).range proto = some r₁ →
      ∃ r', (e''.entries a).range proto = some r' ∧ r₁.Walked (emittedFor proto a es) r') :
    ∃ r', (e''.entries a).range proto = some r' ∧
      r.Walked (emittedFor proto a (m :: es)) r' := by
  obtain ⟨mproto, mip, mvalue⟩ := m
  by_cases hmine : proto = mproto ∧ mip = a
  · obtain ⟨rfl, rfl⟩ := hmine
    obtain rfl : r₀ = r := Option.some.inj (hself.symm.trans hr)
    obtain rfl : mvalue = r₀.cursor := hvalue
    obtain ⟨r', hr', hwalked⟩ := hrest (by rw [hstep, if_pos ⟨rfl, rfl⟩])
    refine ⟨r', hr', ?_⟩
    rw [emittedFor_cons_self]
    exact hwalked.cons
  · obtain ⟨r', hr', hwalked⟩ := hrest (by rw [hstep, if_neg hmine, hr])
    refine ⟨r', hr', ?_⟩
    rwa [emittedFor_cons_of_ne fun h => hmine ⟨h.1.symm, h.2⟩]

/-- **One assignment**: the cursor of an address passes the values written for it. -/
theorem walked_assign (as bs : Chain) (prvIp : UInt32) (e : Endpoints) {r : CursorRange}
    (hr : (e.entries a).range proto = some r) :
    ∃ r', ((endpointAssign as bs prvIp e).1.entries a).range proto = some r' ∧
      r.Walked (emittedFor proto a (endpointEmissions as bs prvIp e)) r' := by
  fun_induction endpointAssign as bs prvIp e generalizing r with
  | case1 _ _ _ _ _ _ hnone => exact ⟨r, hr, by simpa [endpointEmissions, hnone] using .nil r⟩
  | case2 _ _ _ _ _ _ _ hep _ _ hrest ih =>
    rw [hrest] at ih
    simpa [endpointEmissions, hep] using ih hr
  | case3 _ _ _ _ _ _ hnone => exact ⟨r, hr, by simpa [endpointEmissions, hnone] using .nil r⟩
  | case4 _ _ _ _ _ _ ep hep _ _ hrest ih =>
    rw [hrest] at ih
    simp only [endpointEmissions, hep]
    exact walked_cons hr (by simp [entries, Entries.range, hep]) rfl (range_insert_udp hep) ih
  | case5 _ _ _ _ _ _ hnone => exact ⟨r, hr, by simpa [endpointEmissions, hnone] using .nil r⟩
  | case6 _ _ b _ _ _ ep hep _ _ hrest ih =>
    rw [hrest] at ih
    simp only [endpointEmissions, hep]
    exact walked_cons hr (by simp [entries, Entries.range, hep]) rfl
      (range_insert_tcp hep b.port) ih
  | case7 _ _ _ _ _ _ hnone => exact ⟨r, hr, by simpa [endpointEmissions, hnone] using .nil r⟩
  | case8 _ _ _ _ _ _ ep hep _ _ hrest ih =>
    rw [hrest] at ih
    simp only [endpointEmissions, hep]
    exact walked_cons hr (by simp [entries, Entries.range, hep]) rfl (range_insert_icmp hep) ih
  | case9 => exact ⟨r, hr, by simpa [endpointEmissions] using .nil r⟩
  | case10 => exact ⟨r, hr, by simpa [endpointEmissions] using .nil r⟩
  | case11 =>
    refine ⟨r, hr, ?_⟩
    rw [endpointEmissions]
    · exact .nil r
    all_goals grind

/-- The values written stand in the chain, if the assignment succeeds. -/
theorem natValues_assign {as bs : Chain} {prvIp : UInt32} {e e' : Endpoints} {cs : Chain}
    (h : endpointAssign as bs prvIp e = (e', some cs)) :
    (endpointEmissions as bs prvIp e).map (fun m => (m.proto, m.value)) =
      natValues (cs.take bs.length) := by
  fun_induction endpointAssign as bs prvIp e generalizing cs with
  | case1 => simp at h
  | case2 _ _ _ _ _ _ _ hep _ _ hrest ih =>
    simp only [Prod.mk.injEq, Option.map_eq_some_iff] at h
    obtain ⟨rfl, cs', rfl, rfl⟩ := h
    simpa [endpointEmissions, hep, natValues] using ih hrest
  | case3 => simp at h
  | case4 _ _ _ _ _ _ _ hep _ _ hrest ih =>
    simp only [Prod.mk.injEq, Option.map_eq_some_iff] at h
    obtain ⟨rfl, cs', rfl, rfl⟩ := h
    simpa [endpointEmissions, hep, natValues] using ih hrest
  | case5 => simp at h
  | case6 _ _ _ _ _ _ _ hep _ _ hrest ih =>
    simp only [Prod.mk.injEq, Option.map_eq_some_iff] at h
    obtain ⟨rfl, cs', rfl, rfl⟩ := h
    simpa [endpointEmissions, hep, natValues] using ih hrest
  | case7 => simp at h
  | case8 _ _ _ _ _ _ _ hep _ _ hrest ih =>
    simp only [Prod.mk.injEq, Option.map_eq_some_iff] at h
    obtain ⟨rfl, cs', rfl, rfl⟩ := h
    simpa [endpointEmissions, hep, natValues] using ih hrest
  | case9 =>
    obtain ⟨rfl, rfl⟩ := h
    simp [endpointEmissions, natValues]
  | case10 =>
    obtain ⟨rfl, rfl⟩ := h
    simp [endpointEmissions, natValues]
  | case11 => simp at h

end Assign

/-! ## Runs -/

/-- Every cursor lies in its range. -/
def Within (e : Endpoints) : Prop :=
  ∀ a proto r, (e.entries a).range proto = some r → r.cursor ∈ r.values

theorem within_empty : empty.Within := by
  intro a proto r h
  cases proto <;> cases h

/-- One cursor moves on. -/
theorem within_next {e e' : Endpoints} {b : UInt32} {p : NatProto} {r₀ : CursorRange}
    (hself : (e.entries b).range p = some r₀)
    (hstep : ∀ a proto, (e'.entries a).range proto =
      if proto = p ∧ b = a then some r₀.next else (e.entries a).range proto)
    (h : e.Within) : e'.Within := by
  intro a proto r hr
  rw [hstep] at hr
  split at hr
  · obtain rfl := Option.some.inj hr
    exact (CursorRange.cyclic r₀.low r₀.high).step_mem (h b p r₀ hself)
  · exact h a proto r hr

theorem within_assign {e : Endpoints} (as bs : Chain) (prvIp : UInt32) (h : e.Within) :
    (endpointAssign as bs prvIp e).1.Within := by
  refine endpointAssign_invariant ?_ ?_ ?_ as bs prvIp e h
  · intro e a ep hep
    exact within_next (p := .udp) (by simp [entries, Entries.range, hep])
      fun _ _ => range_insert_udp hep
  · intro e a ep pubPort hep
    exact within_next (p := .tcp) (by simp [entries, Entries.range, hep])
      fun _ _ => range_insert_tcp hep pubPort
  · intro e a ep hep
    exact within_next (p := .icmp) (by simp [entries, Entries.range, hep])
      fun _ _ => range_insert_icmp hep

section Runs

variable {cfg : EndpointConfig}

/-- An address starts with its cursors at the low ends of its ranges. -/
theorem within_new {k : ℕ} (hcfg : Divided cfg k) {a : UInt32} {proto : NatProto}
    {r : CursorRange} (hr : (Entries.new cfg a).range proto = some r) : r.cursor ∈ r.values := by
  cases hip : ipNew cfg a with
  | none => cases proto <;> simp [Entries.new, hip, Entries.none, Entries.range] at hr
  | some ip =>
    obtain ⟨⟨-, hudp, -⟩, ⟨-, htcp, -⟩, -, hicmp, -⟩ :=
      (hcfg.exact a ip).inRange hcfg.kPos hcfg.udp_pos hcfg.icmp_pos
    cases proto with
    | tcp =>
      obtain rfl : (tcpNew cfg a ip.pubIp).range = r := by
        simpa [Entries.new, hip, Entries.range] using hr
      exact ⟨UInt16.le_refl _, htcp⟩
    | udp =>
      obtain rfl : (udpNew cfg a ip.pubIp).range = r := by
        simpa [Entries.new, hip, Entries.range] using hr
      exact ⟨UInt16.le_refl _, hudp⟩
    | icmp =>
      obtain rfl : (icmpNew cfg a).range = r := by
        simpa [Entries.new, hip, Entries.range] using hr
      exact ⟨UInt16.le_refl _, hicmp⟩

theorem within_exec {k : ℕ} (hcfg : Divided cfg k) {e : Endpoints} (op : EndpointOp)
    (h : e.Within) : (e.exec cfg op).Within := by
  cases op with
  | new b =>
    cases hip : ipNew cfg b with
    | none =>
      rw [exec, endpointNew_refused hip]
      exact h
    | some ip =>
      intro a proto r hr
      rw [exec, entries_endpointNew (by rw [hip]; rfl)] at hr
      split at hr
      · exact within_new hcfg hr
      · exact h a proto r hr
  | del b =>
    intro a proto r hr
    rw [exec, entries_endpointDel] at hr
    split at hr
    · cases proto <;> cases hr
    · exact h a proto r hr
  | assign as bs prvIp => exact within_assign as bs prvIp h

/-- **In every reachable state every cursor lies in its range.** -/
theorem within_of_run {k : ℕ} (hcfg : Divided cfg k) {ops : List EndpointOp} {e : Endpoints}
    (hrun : Run (Step cfg) empty ops e) : e.Within := by
  refine hrun.invariant (P := Within) ?_ within_empty
  rintro e op _ rfl h
  exact within_exec hcfg op h

/-- The values one call writes. -/
def opEmissions (e : Endpoints) : EndpointOp → List Emission
  | .new _ => []
  | .del _ => []
  | .assign as bs prvIp => endpointEmissions as bs prvIp e

/-- The values written by calls made one after the other. -/
def emissions (cfg : EndpointConfig) : Endpoints → List EndpointOp → List Emission
  | _, [] => []
  | e, op :: ops => e.opEmissions op ++ emissions cfg (e.exec cfg op) ops

variable {a : UInt32} {proto : NatProto}

/-- **One call** that leaves the entries of the address alone. -/
theorem walked_exec {e : Endpoints} {op : EndpointOp} (hkeep : ¬ op.Renews a) {r : CursorRange}
    (hr : (e.entries a).range proto = some r) :
    ∃ r', ((e.exec cfg op).entries a).range proto = some r' ∧
      r.Walked (emittedFor proto a (e.opEmissions op)) r' := by
  cases op with
  | new b =>
    have hb : a ≠ b := fun hab => hkeep (Or.inl (congrArg _ hab.symm))
    refine ⟨r, ?_, .nil r⟩
    cases hip : ipNew cfg b with
    | none => rwa [exec, endpointNew_refused hip]
    | some ip => rwa [exec, entries_endpointNew (by rw [hip]; rfl), if_neg hb]
  | del b =>
    have hb : a ≠ b := fun hab => hkeep (Or.inr (congrArg _ hab.symm))
    refine ⟨r, ?_, .nil r⟩
    rwa [exec, entries_endpointDel, if_neg hb]
  | assign as bs prvIp => exact walked_assign as bs prvIp e hr

/-- **Whatever happens to the other addresses**, the cursor passes one value after the other. -/
theorem walked_of_run {e e' : Endpoints} {ops : List EndpointOp}
    (hrun : Run (Step cfg) e ops e') (hkeep : ∀ op ∈ ops, ¬ op.Renews a) {r : CursorRange}
    (hr : (e.entries a).range proto = some r) :
    ∃ r', (e'.entries a).range proto = some r' ∧
      r.Walked (emittedFor proto a (emissions cfg e ops)) r' := by
  induction hrun generalizing r with
  | nil => exact ⟨r, hr, .nil r⟩
  | @cons e _ _ op ops hstep _ ih =>
    obtain rfl := hstep
    rw [List.forall_mem_cons] at hkeep
    obtain ⟨r₁, hr₁, hwalked⟩ := @walked_exec cfg _ _ _ _ hkeep.1 _ hr
    obtain ⟨r', hr', hrest⟩ := ih hkeep.2 hr₁
    refine ⟨r', hr', ?_⟩
    rw [emissions, emittedFor_append]
    exact hwalked.append hrest

end Runs

/-- **The endpoint cursor cycles through its range.**  In every accepted configuration, for every
address that has an entry and every calls that follow and leave it its entries, whatever else they
do: every value written for it lies in its range; as many consecutive ones as the range has values
are all different and all of the range; and the cursor stays in the range, which stays the same. -/
theorem endpointCursor_cycles (pubNs prvNs : Netset) (cfg : EndpointConfig)
    (hcreate : endpointCreate pubNs prvNs = some cfg) (pre : List EndpointOp) (e : Endpoints)
    (hpre : Run (Step cfg) empty pre e) (a : UInt32) (proto : NatProto) (r : CursorRange)
    (hr : (e.entries a).range proto = some r) (ops : List EndpointOp) (e' : Endpoints)
    (hrun : Run (Step cfg) e ops e') (hkeep : ∀ op ∈ ops, ¬ op.Renews a) :
    (∀ v ∈ emittedFor proto a (emissions cfg e ops), v ∈ r.values) ∧
    (∀ i, i + r.size ≤ (emittedFor proto a (emissions cfg e ops)).length →
      (((emittedFor proto a (emissions cfg e ops)).drop i).take r.size).Nodup ∧
      ∀ v ∈ r.values, v ∈ ((emittedFor proto a (emissions cfg e ops)).drop i).take r.size) ∧
    ∃ r', (e'.entries a).range proto = some r' ∧ r'.low = r.low ∧ r'.high = r.high ∧
      r'.cursor ∈ r.values := by
  obtain ⟨k, hcfg⟩ := divided_of_endpointCreate hcreate
  have hin : r.cursor ∈ r.values := within_of_run hcfg hpre a proto r hr
  obtain ⟨r', hr', hvs, rfl⟩ := walked_of_run hrun hkeep hr
  have C := CursorRange.cyclic r.low r.high
  refine ⟨?_, ?_, r.advance _, hr', rfl, rfl, C.iterate_mem hin _⟩
  · intro v hv
    rw [hvs] at hv
    obtain ⟨n, -, rfl⟩ := List.mem_iterate.1 hv
    exact C.iterate_mem hin n
  · intro i hi
    rw [hvs]
    exact ⟨C.window_nodup hin hi, fun v hv => C.mem_window hin hv hi⟩

/-! ### Two hosts, one of them leaving -/

/-- Two flows of the first host, the second host's entries made and dropped in between. -/
def twoFlows : List EndpointOp :=
  let flow : Chain := [.ip ⟨0x0a000001, 7, 0⟩, .tcp ⟨40000, 2⟩]
  [.assign flow flow 0, .new 0x0a000002, .del 0x0a000002, .assign flow flow 0]

theorem endpointCursor_cycles_twoFlows :
    ∃ cfg r, endpointCreate twoPublic fourHosts = some cfg ∧
      (((empty.endpointNew cfg 0x0a000001).1).entries 0x0a000001).range .tcp = some r ∧
      ∀ v ∈ emittedFor .tcp 0x0a000001
        (emissions cfg (empty.endpointNew cfg 0x0a000001).1 twoFlows), v ∈ r.values := by
  obtain ⟨cfg, hcreate⟩ := Option.isSome_iff_exists.1
    (show (endpointCreate twoPublic fourHosts).isSome by decide +kernel)
  have hsome : ((endpointCreate twoPublic fourHosts).bind (ipNew · 0x0a000001)).isSome := by
    decide +kernel
  rw [hcreate, Option.bind_some] at hsome
  have hentries : ((empty.endpointNew cfg 0x0a000001).1).entries 0x0a000001 =
      .new cfg 0x0a000001 := by
    rw [entries_endpointNew hsome, if_pos rfl]
  obtain ⟨ip, hip⟩ := Option.isSome_iff_exists.1 hsome
  have hrange : (((empty.endpointNew cfg 0x0a000001).1).entries 0x0a000001).range .tcp =
      some (tcpNew cfg 0x0a000001 ip.pubIp).range := by
    simp [hentries, Entries.new, hip, Entries.range]
  refine ⟨cfg, _, hcreate, hrange, ?_⟩
  exact (endpointCursor_cycles twoPublic fourHosts cfg hcreate [.new 0x0a000001] _
    (Run.of_foldl _ _ _) 0x0a000001 .tcp _ hrange twoFlows _ (Run.of_foldl _ _ _)
    (by simp [twoFlows, EndpointOp.Renews])).1

end Endpoints

end Sweetspot
