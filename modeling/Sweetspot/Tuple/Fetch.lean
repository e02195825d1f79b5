import Sweetspot.Lib.Octets
import Sweetspot.Tuple.Chain

/-!
# Fetching the tuples of a packet

`sw_tuple_fetch` reads a receive buffer into two chains, one for the source side of every header
and one for the destination side.  A pointer into the packet is an offset into the buffer; the
length that travels with it is a signed number, and the tests against `sizeof` are unsigned, so a
negative length passes them.

* `tupleFetch`: the dispatcher and its four handlers.  It need not return: a header that claims to
  be no octets long and to carry IP is its own payload.
* `tupleFetch_ip`, `tupleFetch_tcp`, `tupleFetch_udp`, `tupleFetch_icmp`: what a chain that came
  back says about the buffer.
-/

namespace Sweetspot

open Octets

/-! ## Headers -/

/-- `length < sizeof(…)`, which compares as unsigned. -/
def sizeLt (length : ℤ) (size : ℕ) : Prop := 0 ≤ length ∧ length < size

instance (length : ℤ) (size : ℕ) : Decidable (sizeLt length size) :=
  inferInstanceAs (Decidable (_ ∧ _))

/-- A length that is not negative passes the test only if it is large enough. -/
theorem le_of_not_sizeLt {length : ℤ} {size : ℕ} (h : ¬ sizeLt length size) (hlength : 0 ≤ length) :
    size ≤ length := by
  by_contra hlt
  exact h ⟨hlength, by omega⟩

theorem not_sizeLt_of_le {length : ℤ} {size : ℕ} (h : size ≤ length) : ¬ sizeLt length size :=
  fun hlt => absurd hlt.2 (not_lt.mpr h)

def iphVersion (packet : List UInt8) (off : ℕ) : ℕ := (get8 packet off).toNat / 16
def iphIhl (packet : List UInt8) (off : ℕ) : ℕ := (get8 packet off).toNat % 16
def iphTotLen (packet : List UInt8) (off : ℕ) : ℕ := (get16 packet (off + 2)).toNat
def iphId (packet : List UInt8) (off : ℕ) : UInt16 := get16 packet (off + 4)
def iphFragOff (packet : List UInt8) (off : ℕ) : UInt16 := get16 packet (off + 6)
def iphProtocol (packet : List UInt8) (off : ℕ) : ℕ := (get8 packet (off + 9)).toNat
def iphCheck (packet : List UInt8) (off : ℕ) : UInt16 := get16 packet (off + 10)
def iphSaddr (packet : List UInt8) (off : ℕ) : UInt32 := get32 packet (off + 12)
def iphDaddr (packet : List UInt8) (off : ℕ) : UInt32 := get32 packet (off + 16)

/-- The payload of the IP header: `packet+iph->ihl*4` and `ntohs(iph->tot_len)-iph->ihl*4`. -/
def iphPayload (packet : List UInt8) (off : ℕ) : ℕ := off + iphIhl packet off * 4
def iphPayloadLen (packet : List UInt8) (off : ℕ) : ℤ :=
  (iphTotLen packet off : ℤ) - iphIhl packet off * 4

/-- The payload ends where the datagram does. -/
theorem iphPayload_add_payloadLen (packet : List UInt8) (off : ℕ) :
    ((iphPayload packet off : ℕ) : ℤ) + iphPayloadLen packet off = off + iphTotLen packet off := by
  simp only [iphPayload, iphPayloadLen]
  push_cast
  ring

def tcphDoff (packet : List UInt8) (off : ℕ) : ℕ := (get8 packet (off + 12)).toNat / 16

/-- `urg`, `ack`, `psh`, `rst`, `syn` and `fin`, shifted together in that order: the low six bits
of the octet they share. -/
def tcphFlags (packet : List UInt8) (off : ℕ) : UInt8 :=
  UInt8.ofNat ((get8 packet (off + 13)).toNat % 64)

def ICMP_ECHOREPLY : UInt8 := 0
def ICMP_REDIRECT : UInt8 := 5
def ICMP_ECHO : UInt8 := 8
def ICMP_TIME_EXCEEDED : UInt8 := 11
def ICMP_TIMESTAMP : UInt8 := 13
def ICMP_TIMESTAMPREPLY : UInt8 := 14

/-! ## The handlers -/

/-- What a fetch leaves: `some none` is `-1`, after which the caller frees the chains; `none` is a
fetch that has not returned. -/
abbrev Fetched := Option (Option (Chain × Chain))

/-- One node in front of each chain. -/
def Fetched.push (a b : TupleNode) (r : Fetched) : Fetched :=
  r.map (Option.map fun (as, bs) => (a :: as, b :: bs))

/-- `__fetch` of `tuple_ip.c`; `fetch` is the call of `sw_tuple_fetch` it ends in. -/
def ipFetch (fetch : ℕ → ℕ → ℤ → Fetched) (packet : List UInt8) (off : ℕ) (length : ℤ) :
    Fetched :=
  if iphVersion packet off ≠ 4 then some none
  else if sizeLt length 20 ∨ length < iphTotLen packet off then some none
  else
    let a : TupleNode := .ip ⟨iphSaddr packet off, iphId packet off, iphFragOff packet off⟩
    let b : TupleNode := .ip ⟨iphDaddr packet off, iphId packet off, iphFragOff packet off⟩
    -- in case of a fragment, only the first one is parsed further: IP_OFFMASK
    if (iphFragOff packet off).toNat % 0x2000 ≠ 0 then some (some ([a], [b]))
    else
      (fetch (iphProtocol packet off) (iphPayload packet off) (iphPayloadLen packet off)).push a b

/-- `__fetch` of `tuple_tcp.c`. -/
def tcpFetch (packet : List UInt8) (off : ℕ) (length : ℤ) : Fetched :=
  if sizeLt length 20 ∨ length < 20 then some none
  else
    some (some ([.tcp ⟨get16 packet off, tcphFlags packet off⟩],
      [.tcp ⟨get16 packet (off + 2), tcphFlags packet off⟩]))

/-- `__fetch` of `tuple_udp.c`. -/
def udpFetch (packet : List UInt8) (off : ℕ) (length : ℤ) : Fetched :=
  if sizeLt length 8 then some none
  else some (some ([.udp ⟨get16 packet off⟩], [.udp ⟨get16 packet (off + 2)⟩]))

/-- `__fetch` of `tuple_icmp.c`.  The two tuples are fresh memory, `uninit`, of which only the type
is always written. -/
def icmpFetch (uninit : ℕ → TupleIcmp × TupleIcmp) (fetch : ℕ → ℕ → ℤ → Fetched)
    (packet : List UInt8) (off : ℕ) (length : ℤ) : Fetched :=
  if sizeLt length 8 then some none
  else
    let type := get8 packet off
    let a := { (uninit off).1 with type }
    let b := { (uninit off).2 with type }
    if type = ICMP_ECHO ∨ type = ICMP_ECHOREPLY then
      let id := get16 packet (off + 4)
      let seq := get16 packet (off + 6)
      some (some ([.icmp { a with id, seq }], [.icmp { b with id, seq }]))
    else if type = ICMP_TIMESTAMP ∨ type = ICMP_TIMESTAMPREPLY ∨ type = ICMP_REDIRECT then
      some (some ([.icmp a], [.icmp b]))
    else if type = ICMP_TIME_EXCEEDED then
      -- the echo header behind an IP header without options
      let id := get16 packet (off + 32)
      let seq := get16 packet (off + 34)
      some (some ([.icmp { a with id, seq }], [.icmp { b with id, seq }]))
    else (fetch IPPROTO_IP (off + 8) (length - 8)).push (.icmp a) (.icmp b)

/-- `sw_tuple_fetch`, given `fuel` calls. -/
def tupleFetch (uninit : ℕ → TupleIcmp × TupleIcmp) (packet : List UInt8) :
    ℕ → ℕ → ℕ → ℤ → Fetched
  | 0, _, _, _ => none
  | fuel + 1, protocol, off, length =>
    if protocol = IPPROTO_IP then ipFetch (tupleFetch uninit packet fuel) packet off length
    else if protocol = IPPROTO_TCP then tcpFetch packet off length
    else if protocol = IPPROTO_UDP then udpFetch packet off length
    else if protocol = IPPROTO_ICMP then
      icmpFetch uninit (tupleFetch uninit packet fuel) packet off length
    else some none

/-! ## What a chain says about the buffer -/

section

variable {uninit : ℕ → TupleIcmp × TupleIcmp} {packet : List UInt8} {fuel protocol off : ℕ}
  {length : ℤ} {a b : Chain}

theorem Fetched.push_eq_some {x y : TupleNode} {r : Fetched} :
    r.push x y = some (some (a, b)) ↔
      ∃ as bs, r = some (some (as, bs)) ∧ a = x :: as ∧ b = y :: bs := by
  rcases r with _ | _ | ⟨as, bs⟩
  · simp [Fetched.push]
  · simp [Fetched.push]
  · simp [Fetched.push, eq_comm]

/-- **A fetched IP header**: the buffer has one, and unless it is a later fragment the rest of the
chains was fetched from its payload. -/
theorem tupleFetch_ip
    (h : tupleFetch uninit packet fuel IPPROTO_IP off length = some (some (a, b))) :
    iphVersion packet off = 4 ∧ ¬ sizeLt length 20 ∧ iphTotLen packet off ≤ length ∧
    ∃ as bs,
      a = .ip ⟨iphSaddr packet off, iphId packet off, iphFragOff packet off⟩ :: as ∧
      b = .ip ⟨iphDaddr packet off, iphId packet off, iphFragOff packet off⟩ :: bs ∧
      (((iphFragOff packet off).toNat % 0x2000 ≠ 0 ∧ as = [] ∧ bs = []) ∨
        ((iphFragOff packet off).toNat % 0x2000 = 0 ∧
          ∃ fuel', tupleFetch uninit packet fuel' (iphProtocol packet off) (iphPayload packet off)
            (iphPayloadLen packet off) = some (some (as, bs)))) := by
  cases fuel with
  | zero => cases h
  | succ fuel =>
    rw [tupleFetch, if_pos rfl, ipFetch] at h
    by_cases hv : iphVersion packet off = 4
    · by_cases hl : sizeLt length 20 ∨ length < iphTotLen packet off
      · simp [hv, hl] at h
      · rw [if_neg (not_not.mpr hv), if_neg hl] at h
        push Not at hl
        refine ⟨hv, hl.1, hl.2, ?_⟩
        by_cases hf : (iphFragOff packet off).toNat % 0x2000 = 0
        · rw [if_neg (not_not.mpr hf), Fetched.push_eq_some] at h
          obtain ⟨as, bs, hrec, rfl, rfl⟩ := h
          exact ⟨as, bs, rfl, rfl, Or.inr ⟨hf, fuel, hrec⟩⟩
        · rw [if_pos hf] at h
          cases h
          exact ⟨[], [], rfl, rfl, Or.inl ⟨hf, rfl, rfl⟩⟩
    · simp [hv] at h

/-- **A fetched TCP header** has its twenty octets and ends the chains. -/
theorem tupleFetch_tcp
    (h : tupleFetch uninit packet fuel IPPROTO_TCP off length = some (some (a, b))) :
    20 ≤ length ∧ a = [.tcp ⟨get16 packet off, tcphFlags packet off⟩] ∧
      b = [.tcp ⟨get16 packet (off + 2), tcphFlags packet off⟩] := by
  cases fuel with
  | zero => cases h
  | succ fuel =>
    have h' : tcpFetch packet off length = some (some (a, b)) := h
    rw [tcpFetch] at h'
    by_cases hl : sizeLt length 20 ∨ length < 20
    · simp [hl] at h'
    · rw [if_neg hl] at h'
      push Not at hl
      cases h'
      exact ⟨hl.2, rfl, rfl⟩

/-- **A fetched UDP header** ends the chains; its eight octets are there unless the length is
negative. -/
theorem tupleFetch_udp
    (h : tupleFetch uninit packet fuel IPPROTO_UDP off length = some (some (a, b))) :
    ¬ sizeLt length 8 ∧ a = [.udp ⟨get16 packet off⟩] ∧ b = [.udp ⟨get16 packet (off + 2)⟩] := by
  cases fuel with
  | zero => cases h
  | succ fuel =>
    have h' : udpFetch packet off length = some (some (a, b)) := h
    rw [udpFetch] at h'
    by_cases hl : sizeLt length 8
    · simp [hl] at h'
    · rw [if_neg hl] at h'
      cases h'
      exact ⟨hl, rfl, rfl⟩

/-- **A fetched ICMP header** carries the type of the message on both sides. -/
theorem tupleFetch_icmp
    (h : tupleFetch uninit packet fuel IPPROTO_ICMP off length = some (some (a, b))) :
    ¬ sizeLt length 8 ∧ ∃ xa xb as bs, a = .icmp xa :: as ∧ b = .icmp xb :: bs ∧
      xa.type = get8 packet off ∧ xb.type = get8 packet off ∧
      (get8 packet off = ICMP_ECHO ∨ get8 packet off = ICMP_ECHOREPLY →
        as = [] ∧ bs = [] ∧ xa.id = get16 packet (off + 4) ∧ xb.id = get16 packet (off + 4) ∧
          xa.seq = get16 packet (off + 6) ∧ xb.seq = get16 packet (off + 6)) := by
  cases fuel with
  | zero => cases h
  | succ fuel =>
    have h' : icmpFetch uninit (tupleFetch uninit packet fuel) packet off length =
      some (some (a, b)) := h
    rw [icmpFetch] at h'
    by_cases hl : sizeLt length 8
    · simp [hl] at h'
    · rw [if_neg hl] at h'
      refine ⟨hl, ?_⟩
      by_cases he : get8 packet off = ICMP_ECHO ∨ get8 packet off = ICMP_ECHOREPLY
      · simp only [if_pos he] at h'
        cases h'
        exact ⟨_, _, [], [], rfl, rfl, rfl, rfl, fun _ => ⟨rfl, rfl, rfl, rfl, rfl, rfl⟩⟩
      · simp only [if_neg he] at h'
        split at h'
        · cases h'
          exact ⟨_, _, [], [], rfl, rfl, rfl, rfl, fun h => absurd h he⟩
        · split at h'
          · cases h'
            exact ⟨_, _, [], [], rfl, rfl, rfl, rfl, fun h => absurd h he⟩
          · obtain ⟨as, bs, -, rfl, rfl⟩ := Fetched.push_eq_some.mp h'
            exact ⟨_, _, as, bs, rfl, rfl, rfl, rfl, fun h => absurd h he⟩

/-- Behind an ICMP node are the tuples of the IP packet that the message quotes. -/
theorem tupleFetch_icmp_next {x y : TupleNode} {as bs : Chain}
    (h : tupleFetch uninit packet fuel IPPROTO_ICMP off length = some (some (x :: as, y :: bs)))
    (has : as ≠ []) :
    ∃ fuel', tupleFetch uninit packet fuel' IPPROTO_IP (off + 8) (length - 8) =
      some (some (as, bs)) := by
  cases fuel with
  | zero => cases h
  | succ fuel =>
    have h' : icmpFetch uninit (tupleFetch uninit packet fuel) packet off length =
      some (some (x :: as, y :: bs)) := h
    rw [icmpFetch] at h'
    split at h'
    · cases h'
    · simp only at h'
      -- only the last branch goes on
      split at h'
      · cases h'
        exact absurd rfl has
      · split at h'
        · cases h'
          exact absurd rfl has
        · split at h'
          · cases h'
            exact absurd rfl has
          · obtain ⟨as', bs', hnext, hx, hy⟩ := Fetched.push_eq_some.mp h'
            cases hx
            cases hy
            exact ⟨fuel, hnext⟩

/-- The dispatcher hands a protocol to its handler, so the first nodes name the protocol. -/
theorem exists_cons_of_tupleFetch
    (h : tupleFetch uninit packet fuel protocol off length = some (some (a, b))) :
    ∃ x as y bs, a = x :: as ∧ b = y :: bs ∧ x.protocol = protocol ∧ y.protocol = protocol := by
  by_cases hip : protocol = IPPROTO_IP
  · subst hip
    obtain ⟨-, -, -, as, bs, ha, hb, -⟩ := tupleFetch_ip h
    exact ⟨_, as, _, bs, ha, hb, rfl, rfl⟩
  by_cases htcp : protocol = IPPROTO_TCP
  · subst htcp
    obtain ⟨-, ha, hb⟩ := tupleFetch_tcp h
    exact ⟨_, [], _, [], ha, hb, rfl, rfl⟩
  by_cases hudp : protocol = IPPROTO_UDP
  · subst hudp
    obtain ⟨-, ha, hb⟩ := tupleFetch_udp h
    exact ⟨_, [], _, [], ha, hb, rfl, rfl⟩
  by_cases hicmp : protocol = IPPROTO_ICMP
  · subst hicmp
    obtain ⟨-, xa, xb, as, bs, ha, hb, -⟩ := tupleFetch_icmp h
    exact ⟨_, as, _, bs, ha, hb, rfl, rfl⟩
  -- no handler
  cases fuel with
  | zero => cases h
  | succ fuel => simp [tupleFetch, hip, htcp, hudp, hicmp] at h

theorem tupleFetch_protocol {x : TupleNode} {as : Chain}
    (h : tupleFetch uninit packet fuel protocol off length = some (some (x :: as, b))) :
    x.protocol = protocol := by
  obtain ⟨x', as', -, -, ha, -, hprotocol, -⟩ := exists_cons_of_tupleFetch h
  cases ha
  exact hprotocol

end

end Sweetspot
