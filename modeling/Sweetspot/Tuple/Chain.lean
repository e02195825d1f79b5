import Sweetspot.Lib.KeyedTable

/-!
# Tuple chains

`sw_tuple_fetch` describes one side of a packet by a chain of protocol tuples: the IP header
first, then what it carries.  Four handlers exist (IP, TCP, UDP, ICMP), so a chain is a list of
four kinds of node.  Every field holds the value of the header field as a number; the byte order
it is stored in does not matter to any comparison.

* `tupleCmp` and `natTupleCmp`: the two comparisons of chains.  The NAT one looks past what
  changes between two packets of a flow: the IP id and fragment offset, and the ICMP type.
* `tupleCmp_eq_zero_iff`, `natTupleCmp_eq_zero_iff`: each says *equal* exactly when the two
  chains agree once the fields it ignores are blanked out.
* `natComparator`: hence `natTupleCmp` is fit to be the callback of a keyed table.
-/

namespace Sweetspot

/-- `sw_tuple_ip_t`. -/
@[ext] structure TupleIp where
  ip : UInt32
  id : UInt16
  fragOff : UInt16
  deriving DecidableEq, Repr

/-- `sw_tuple_tcp_t`. -/
@[ext] structure TupleTcp where
  port : UInt16
  flags : UInt8
  deriving DecidableEq, Repr

/-- `sw_tuple_udp_t`. -/
@[ext] structure TupleUdp where
  port : UInt16
  deriving DecidableEq, Repr

/-- `sw_tuple_icmp_t`. -/
@[ext] structure TupleIcmp where
  type : UInt8
  id : UInt16
  seq : UInt16
  deriving DecidableEq, Repr

/-- One link of a chain, `sw_tuple_t`: its protocol and the private data of that protocol. -/
inductive TupleNode
  | ip (prv : TupleIp)
  | tcp (prv : TupleTcp)
  | udp (prv : TupleUdp)
  | icmp (prv : TupleIcmp)
  deriving DecidableEq, Repr

/-- A chain, outermost protocol first. -/
abbrev Chain := List TupleNode

def IPPROTO_IP : ℕ := 0
def IPPROTO_ICMP : ℕ := 1
def IPPROTO_TCP : ℕ := 6
def IPPROTO_UDP : ℕ := 17

namespace TupleNode

def protocol : TupleNode → ℕ
  | ip _ => IPPROTO_IP
  | tcp _ => IPPROTO_TCP
  | udp _ => IPPROTO_UDP
  | icmp _ => IPPROTO_ICMP

end TupleNode

/-! ## The comparisons -/

/-- `sw_tuple_cmp`, with the `__cmp` of the handler it dispatches to. -/
def tupleCmp : Chain → Chain → ℤ
  | [], [] => 0
  | _ :: _, [] => 1
  | [], _ :: _ => -1
  | .ip a :: as, .ip b :: bs =>
    if a.ip ≠ b.ip ∨ a.id ≠ b.id ∨ a.fragOff ≠ b.fragOff then 1 else tupleCmp as bs
  | .tcp a :: as, .tcp b :: bs => if a.port ≠ b.port then 1 else tupleCmp as bs
  | .udp a :: as, .udp b :: bs => if a.port ≠ b.port then 1 else tupleCmp as bs
  | .icmp a :: as, .icmp b :: bs =>
    if a.type ≠ b.type ∨ a.id ≠ b.id ∨ a.seq ≠ b.seq then 1 else tupleCmp as bs
  | a :: _, b :: _ => (a.protocol : ℤ) - b.protocol

/-- `sw_nat_tuple_cmp`.  IP and ICMP have handlers of their own; below TCP and UDP the plain
comparison takes over, since those two handlers are the plain ones. -/
def natTupleCmp : Chain → Chain → ℤ
  | [], [] => 0
  | _ :: _, [] => 1
  | [], _ :: _ => -1
  | .ip a :: as, .ip b :: bs => if a.ip ≠ b.ip then 1 else natTupleCmp as bs
  | .tcp a :: as, .tcp b :: bs => if a.port ≠ b.port then 1 else tupleCmp as bs
  | .udp a :: as, .udp b :: bs => if a.port ≠ b.port then 1 else tupleCmp as bs
  | .icmp a :: as, .icmp b :: bs =>
    if a.id ≠ b.id ∨ a.seq ≠ b.seq then 1 else natTupleCmp as bs
  | a :: _, b :: _ => (a.protocol : ℤ) - b.protocol

/-! ## What they compare -/

/-- The chain with the fields `tupleCmp` ignores blanked out. -/
def tupleImage : Chain → Chain
  | [] => []
  | .tcp a :: as => .tcp { a with flags := 0 } :: tupleImage as
  | a :: as => a :: tupleImage as

/-- The chain with the fields `natTupleCmp` ignores blanked out. -/
def natTupleImage : Chain → Chain
  | [] => []
  | .ip a :: as => .ip { a with id := 0, fragOff := 0 } :: natTupleImage as
  | .tcp a :: as => .tcp { a with flags := 0 } :: tupleImage as
  | .udp a :: as => .udp a :: tupleImage as
  | .icmp a :: as => .icmp { a with type := 0 } :: natTupleImage as

theorem ite_one_eq_zero_iff {p : Prop} [Decidable p] {z : ℤ} :
    (if p then 1 else z) = 0 ↔ ¬ p ∧ z = 0 := by
  by_cases hp : p <;> simp [hp]

theorem ite_else_one_eq_zero_iff {p : Prop} [Decidable p] {z : ℤ} :
    (if p then z else 1) = 0 ↔ p ∧ z = 0 := by
  by_cases hp : p <;> simp [hp]

/-- **`sw_tuple_cmp` says equal exactly when nothing it looks at differs.** -/
theorem tupleCmp_eq_zero_iff (a b : Chain) : tupleCmp a b = 0 ↔ tupleImage a = tupleImage b := by
  induction a generalizing b with
  | nil =>
    cases b with
    | nil => simp [tupleCmp]
    | cons y bs => cases y <;> simp [tupleCmp, tupleImage]
  | cons x as ih =>
    cases b with
    | nil => cases x <;> simp [tupleCmp, tupleImage]
    | cons y bs =>
      -- one handler for each of the four equal pairs, the protocol numbers for the others
      cases x <;> cases y <;>
        simp [tupleCmp, tupleImage, ite_one_eq_zero_iff, ite_else_one_eq_zero_iff, ih,
          TupleNode.protocol, IPPROTO_IP, IPPROTO_ICMP, IPPROTO_TCP, IPPROTO_UDP, TupleIp.ext_iff,
          TupleUdp.ext_iff, TupleIcmp.ext_iff, and_assoc]

/-- **`sw_nat_tuple_cmp` says equal exactly when nothing it looks at differs.** -/
theorem natTupleCmp_eq_zero_iff (a b : Chain) :
    natTupleCmp a b = 0 ↔ natTupleImage a = natTupleImage b := by
  induction a generalizing b with
  | nil =>
    cases b with
    | nil => simp [natTupleCmp]
    | cons y bs => cases y <;> simp [natTupleCmp, natTupleImage]
  | cons x as ih =>
    cases b with
    | nil => cases x <;> simp [natTupleCmp, natTupleImage]
    | cons y bs =>
      cases x <;> cases y <;>
        simp [natTupleCmp, natTupleImage, ite_one_eq_zero_iff, ite_else_one_eq_zero_iff, ih,
          tupleCmp_eq_zero_iff,
          TupleNode.protocol, IPPROTO_IP, IPPROTO_ICMP, IPPROTO_TCP, IPPROTO_UDP,
          TupleUdp.ext_iff, and_assoc]

/-- `sw_nat_tuple_cmp` as the callback of the two relation tables. -/
def natComparator : Comparator Chain :=
  Comparator.ofImage natTupleCmp natTupleImage natTupleCmp_eq_zero_iff

@[simp] theorem natComparator_comp : natComparator.comp = natTupleCmp := rfl

theorem natTupleCmp_self (a : Chain) : natTupleCmp a a = 0 := natComparator.comp_self a

theorem natTupleCmp_symm {a b : Chain} (h : natTupleCmp a b = 0) : natTupleCmp b a = 0 :=
  natComparator.comp_symm h

theorem natTupleCmp_trans {a b c : Chain} (hab : natTupleCmp a b = 0)
    (hbc : natTupleCmp b c = 0) : natTupleCmp a c = 0 :=
  natComparator.comp_trans hab hbc

end Sweetspot
